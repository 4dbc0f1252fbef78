import DeclutrMail.Metering.SlidingWindow
import Mathlib.Algebra.Order.Group.Nat
import Mathlib.Data.Nat.Notation

/-!
# The rate limiter of a mailbox

`RateLimiter` caps the units that are spent in any window. Its `acquire` calls share one list of
events: each asks `reserve` in a loop and sleeps for what this answers in between. A clock that
does not run backwards, the calls in any order of their attempts and the signals that abort them
are the steps of the model.

Every run keeps the window (`Sound.run`), and a caller that nobody overtakes waits at most once for
each event (`Alone.waiting`).
-/

namespace DeclutrMail.Quota

open SlidingWindow

variable {K : Type*}

structure RateLimiter (K : Type*) where
  maxUnits : K
  windowMs : ℤ

namespace RateLimiter

/-! ## States -/

inductive Phase
  /-- The call asks `reserve` at this time or later. -/
  | due (time : ℤ)
  | granted
  | aborted
  | failed
  deriving DecidableEq

structure Call (K : Type*) where
  units : K
  phase : Phase
  deriving DecidableEq

/-- `grants` is not kept by the limiter: all that has been granted. -/
structure State (K : Type*) where
  now : ℤ
  events : List (Spend K)
  calls : List (Call K)
  grants : List (Spend K)
  deriving DecidableEq

def State.start (now : ℤ) : State K := ⟨now, [], [], []⟩

def State.settle (s : State K) (i : ℕ) (phase : Phase) : State K :=
  { s with calls := s.calls.modify i fun call => { call with phase } }

theorem State.settle_self {s : State K} {i : ℕ} {call : Call K} (h : s.calls[i]? = some call)
    (phase : Phase) : (s.settle i phase).calls[i]? = some { call with phase } := by
  simp [State.settle, h]

theorem State.settle_other {s : State K} {i j : ℕ} (ne : j ≠ i) (phase : Phase) :
    (s.settle j phase).calls[i]? = s.calls[i]? := by
  simp [State.settle, ne]

theorem mem_settle {s : State K} {i : ℕ} {phase : Phase} {call : Call K}
    (mem : call ∈ (s.settle i phase).calls) :
    call ∈ s.calls ∨ call.phase = phase ∧ ∃ old ∈ s.calls, call.units = old.units := by
  obtain ⟨j, lt, rfl⟩ := List.mem_iff_getElem.mp mem
  simp only [State.settle, List.getElem_modify]
  split_ifs with same
  · exact .inr ⟨rfl, _, List.getElem_mem _, rfl⟩
  · exact .inl (List.getElem_mem _)

inductive Action (K : Type*)
  | acquire (units : K)
  | tick (ms : ℕ)
  | attempt (i : ℕ)
  | abort (i : ℕ)
  deriving DecidableEq

/-! ## Steps -/

variable [AddCommMonoid K] [LinearOrder K]

/-- Prunes expired events; if `units` fits, records the spend and answers 0, otherwise the wait for
the oldest event to age out. Nothing is the error of reading the oldest event of an empty list. -/
def reserve (l : RateLimiter K) (events : List (Spend K)) (units : K) (now : ℤ) :
    Option (List (Spend K) × ℤ) :=
  let events := expire l.windowMs now events
  if total events + units ≤ l.maxUnits then some (events ++ [⟨now, units⟩], 0)
  else
    match events with
    | [] => none
    -- (+1ms guard)
    | oldest :: _ => some (events, l.windowMs - (now - oldest.time) + 1)

def step (l : RateLimiter K) (s : State K) : Action K → Option (State K)
  | .acquire units => some { s with calls := s.calls ++ [⟨units, .due s.now⟩] }
  | .tick ms => some { s with now := s.now + ms }
  | .attempt i =>
    match s.calls[i]? with
    | some ⟨units, .due time⟩ =>
      if time ≤ s.now then
        match l.reserve s.events units s.now with
        | none => some { s.settle i .failed with events := [] }
        | some (events, waitMs) =>
          if waitMs = 0 then
            some { s.settle i .granted with events, grants := s.grants ++ [⟨s.now, units⟩] }
          else some { s.settle i (.due (s.now + waitMs)) with events }
      else none
    | _ => none
  | .abort i =>
    match s.calls[i]? with
    | some ⟨_, .due _⟩ => some (s.settle i .aborted)
    | _ => none

def run (l : RateLimiter K) : List (Action K) → State K → Option (State K)
  | [], s => some s
  | action :: actions, s => (l.step s action).bind (l.run actions)

/-! ## One attempt -/

variable {l : RateLimiter K} {s s' : State K} {units : K} {i : ℕ}

theorem reserve_granted {events : List (Spend K)} {now : ℤ}
    (fits : total (expire l.windowMs now events) + units ≤ l.maxUnits) :
    l.reserve events units now = some (expire l.windowMs now events ++ [⟨now, units⟩], 0) := by
  rw [reserve]
  exact if_pos fits

/-- A call within the cap is refused only while there is an event to wait for. -/
theorem reserve_refused {events : List (Spend K)} {now : ℤ} (small : units ≤ l.maxUnits)
    (full : ¬ total (expire l.windowMs now events) + units ≤ l.maxUnits) :
    ∃ oldest rest, expire l.windowMs now events = oldest :: rest ∧
      0 < l.windowMs - (now - oldest.time) + 1 ∧
      l.reserve events units now =
        some (oldest :: rest, l.windowMs - (now - oldest.time) + 1) := by
  cases kept : expire l.windowMs now events with
  | nil =>
    rw [kept, total_nil, zero_add] at full
    exact absurd small full
  | cons oldest rest =>
    have young := not_expired_of_expire_eq_cons kept
    refine ⟨oldest, rest, rfl, by omega, ?_⟩
    rw [kept] at full
    rw [reserve, kept]
    exact if_neg full

/-- What an attempt does. -/
inductive Attempted (l : RateLimiter K) (s : State K) (i : ℕ) (units : K) : State K → Prop
  | granted (fits : total (expire l.windowMs s.now s.events) + units ≤ l.maxUnits) :
    Attempted l s i units { s.settle i .granted with
      events := expire l.windowMs s.now s.events ++ [⟨s.now, units⟩]
      grants := s.grants ++ [⟨s.now, units⟩] }
  | refused {oldest : Spend K} {rest : List (Spend K)}
    (kept : expire l.windowMs s.now s.events = oldest :: rest) :
    Attempted l s i units { s.settle i (.due (oldest.time + l.windowMs + 1)) with
      events := oldest :: rest }

theorem step_attempt (small : ∀ call ∈ s.calls[i]?, call.units ≤ l.maxUnits)
    (h : l.step s (.attempt i) = some s') : ∃ units time,
      s.calls[i]? = some ⟨units, .due time⟩ ∧ time ≤ s.now ∧ Attempted l s i units s' := by
  simp only [step] at h
  split at h
  · rename_i units time call
    have within := small _ call
    split_ifs at h with reached
    refine ⟨units, time, call, reached, ?_⟩
    by_cases fits : total (expire l.windowMs s.now s.events) + units ≤ l.maxUnits
    · rw [reserve_granted fits] at h
      obtain rfl := Option.some.inj h
      exact .granted fits
    · obtain ⟨oldest, rest, kept, positive, refused⟩ := reserve_refused within fits
      rw [refused] at h
      dsimp only at h
      rw [if_neg (by omega), show s.now + (l.windowMs - (s.now - oldest.time) + 1) =
        oldest.time + l.windowMs + 1 by omega] at h
      obtain rfl := Option.some.inj h
      exact .refused kept
  · cases h

theorem exists_step_attempt {time : ℤ} (due : s.calls[i]? = some ⟨units, .due time⟩)
    (reached : time ≤ s.now) : ∃ s', l.step s (.attempt i) = some s' := by
  simp only [step, due, reached, if_true]
  cases l.reserve s.events units s.now with
  | none => exact ⟨_, rfl⟩
  | some answer =>
    dsimp only
    split_ifs <;> exact ⟨_, rfl⟩

/-! ## Every run keeps the window -/

/-- What has been granted and is not an event any more has left the window. -/
structure Sound (l : RateLimiter K) (s : State K) : Prop where
  kept : ∃ expired, expired ++ s.events = s.grants ∧
    ∀ spend ∈ expired, l.windowMs ≤ s.now - spend.time
  capped : Capped l.windowMs l.maxUnits s.grants
  small : ∀ call ∈ s.calls, call.units ≤ l.maxUnits
  healthy : ∀ call ∈ s.calls, call.phase ≠ .failed

theorem sound_start [CanonicallyOrderedAdd K] (l : RateLimiter K) (now : ℤ) :
    l.Sound (.start now) where
  kept := ⟨[], rfl, nofun⟩
  capped := capped_nil l.windowMs l.maxUnits
  small := nofun
  healthy := nofun

namespace Sound

variable (sound : l.Sound s)
include sound

theorem settle {phase : Phase} (healthy : phase ≠ .failed) : l.Sound (s.settle i phase) where
  kept := sound.kept
  capped := sound.capped
  small call mem := by
    rcases mem_settle mem with old | ⟨-, old, old_mem, units⟩
    · exact sound.small call old
    · exact units ▸ sound.small old old_mem
  healthy call mem := by
    rcases mem_settle mem with old | ⟨settled, -⟩
    · exact sound.healthy call old
    · exact settled ▸ healthy

/-- Pruning drops what has left the window. -/
theorem kept_expire : ∃ expired, expired ++ expire l.windowMs s.now s.events = s.grants ∧
    ∀ spend ∈ expired, l.windowMs ≤ s.now - spend.time := by
  obtain ⟨expired, split, out⟩ := sound.kept
  obtain ⟨pruned, split', out'⟩ := exists_expired l.windowMs s.now s.events
  refine ⟨expired ++ pruned, by rw [List.append_assoc, split', split], fun spend mem => ?_⟩
  rcases List.mem_append.mp mem with before | now
  · exact out spend before
  · exact out' spend now

variable [IsOrderedAddMonoid K] [CanonicallyOrderedAdd K]

theorem attempt (attempted : l.Attempted s i units s') : l.Sound s' := by
  obtain ⟨expired, split, out⟩ := sound.kept_expire
  cases attempted with
  | granted fits =>
    have settled : l.Sound (s.settle i .granted) := sound.settle nofun
    refine { settled with kept := ?_, capped := ?_ }
    · exact ⟨expired, by rw [← split, List.append_assoc], out⟩
    · have capped := sound.capped
      rw [← split] at capped
      rw [← split]
      exact capped.append out fits
  | refused kept =>
    rename_i oldest rest
    have settled : l.Sound (s.settle i (.due (oldest.time + l.windowMs + 1))) :=
      sound.settle nofun
    refine { settled with kept := ?_ }
    rw [kept] at split
    exact ⟨expired, split, out⟩

theorem step {action : Action K}
    (small : ∀ units, action = .acquire units → units ≤ l.maxUnits)
    (h : l.step s action = some s') : l.Sound s' := by
  cases action with
  | acquire units =>
    obtain rfl := Option.some.inj h
    refine ⟨sound.kept, sound.capped, fun call mem => ?_, fun call mem => ?_⟩
    · rcases List.mem_append.mp mem with old | new
      · exact sound.small call old
      · rw [List.mem_singleton.mp new]
        exact small units rfl
    · rcases List.mem_append.mp mem with old | new
      · exact sound.healthy call old
      · rw [List.mem_singleton.mp new]
        nofun
  | tick ms =>
    obtain rfl := Option.some.inj h
    obtain ⟨expired, split, out⟩ := sound.kept
    refine { sound with kept := ⟨expired, split, fun spend mem => ?_⟩ }
    have := out spend mem
    dsimp only
    omega
  | attempt i =>
    obtain ⟨units, time, -, -, attempted⟩ :=
      step_attempt (fun call mem => sound.small call (List.mem_of_getElem? mem)) h
    exact sound.attempt attempted
  | abort i =>
    simp only [RateLimiter.step] at h
    split at h
    · obtain rfl := Option.some.inj h
      exact sound.settle nofun
    · cases h

theorem run {actions : List (Action K)}
    (small : ∀ units, .acquire units ∈ actions → units ≤ l.maxUnits)
    (h : l.run actions s = some s') : l.Sound s' := by
  induction actions generalizing s with
  | nil =>
    obtain rfl := Option.some.inj h
    exact sound
  | cons action actions ih =>
    obtain ⟨next, first, rest⟩ := Option.bind_eq_some_iff.mp h
    refine ih (sound.step (fun units same => ?_) first) (fun units mem => ?_) rest
    · exact small units (same ▸ List.mem_cons_self)
    · exact small units (List.mem_cons_of_mem _ mem)

end Sound

/-! ## A caller that nobody overtakes -/

/-- The run from `s` in which the call `i` makes so many attempts, each at the time that it is due,
and in which no other call is granted. -/
inductive Alone (l : RateLimiter K) (i : ℕ) (s : State K) : ℕ → State K → Prop
  | start : Alone l i s 0 s
  | other {n : ℕ} {s₁ s₂ : State K} {action : Action K} : Alone l i s n s₁ →
    action ≠ .attempt i → l.step s₁ action = some s₂ → s₂.grants = s₁.grants → Alone l i s n s₂
  | attempt {n : ℕ} {s₁ s₂ : State K} {units : K} : Alone l i s n s₁ →
    s₁.calls[i]? = some ⟨units, .due s₁.now⟩ → l.step s₁ (.attempt i) = some s₂ →
    Alone l i s (n + 1) s₂

theorem reserve_suffix {events events' : List (Spend K)} {now waitMs : ℤ}
    (h : l.reserve events units now = some (events', waitMs)) (refused : waitMs ≠ 0) :
    events' <:+ events := by
  unfold reserve at h
  dsimp only at h
  split_ifs at h
  · exact absurd (Prod.ext_iff.mp (Option.some.inj h)).2.symm refused
  · split at h
    · cases h
    · rename_i oldest rest kept
      obtain ⟨rfl, -⟩ := Prod.ext_iff.mp (Option.some.inj h)
      exact expire_suffix ..

/-- Without a grant the events only grow fewer, and only a signal ends the call. -/
theorem step_other {action : Action K} {call : Call K} (other : action ≠ .attempt i)
    (h : l.step s action = some s') (none : s'.grants = s.grants)
    (mine : s.calls[i]? = some call) :
    s'.events <:+ s.events ∧
      (s'.calls[i]? = some call ∨
        (∃ time, call.phase = .due time) ∧
          s'.calls[i]? = some { call with phase := .aborted }) := by
  cases action with
  | acquire units =>
    obtain rfl := Option.some.inj h
    refine ⟨List.suffix_rfl, .inl ?_⟩
    rw [List.getElem?_append_left (List.getElem?_eq_some_iff.mp mine).1, mine]
  | tick ms =>
    obtain rfl := Option.some.inj h
    exact ⟨List.suffix_rfl, .inl mine⟩
  | attempt j =>
    have ne : j ≠ i := fun same => other (same ▸ rfl)
    have kept (phase : Phase) := (s.settle_other ne phase).trans mine
    simp only [step] at h
    split at h
    · split_ifs at h
      split at h
      · obtain rfl := Option.some.inj h
        exact ⟨List.nil_suffix, .inl (kept _)⟩
      · rename_i events waitMs answer
        split_ifs at h with granted
        · obtain rfl := Option.some.inj h
          simp at none
        · obtain rfl := Option.some.inj h
          exact ⟨reserve_suffix answer granted, .inl (kept _)⟩
    · cases h
  | abort j =>
    simp only [step] at h
    split at h
    · rename_i units time waits
      obtain rfl := Option.some.inj h
      refine ⟨List.suffix_rfl, ?_⟩
      by_cases same : j = i
      · rw [same] at waits ⊢
        obtain rfl := Option.some.inj (mine.symm.trans waits)
        exact .inr ⟨⟨time, rfl⟩, s.settle_self waits .aborted⟩
      · exact .inl ((s.settle_other same _).trans mine)
    · cases h

/-- Each attempt that is refused leaves an event less until the next one. -/
theorem Alone.waiting {n : ℕ} (due : s.calls[i]? = some ⟨units, .due s.now⟩)
    (small : units ≤ l.maxUnits) (alone : Alone l i s n s') : ∃ phase,
    s'.calls[i]? = some ⟨units, phase⟩ ∧
      (phase = .granted ∨ n ≤ (expire l.windowMs s.now s.events).length ∧
        ∀ time, phase = .due time → n + (expire l.windowMs time s'.events).length ≤
          (expire l.windowMs s.now s.events).length) := by
  induction alone with
  | start => exact ⟨_, due, .inr ⟨Nat.zero_le _, fun time same => by cases same; simp⟩⟩
  | other _ other h none ih =>
    obtain ⟨phase, mine, waits⟩ := ih
    obtain ⟨fewer, kept | ⟨⟨time, rfl⟩, aborted⟩⟩ := step_other other h none mine
    · refine ⟨phase, kept, waits.imp_right fun ⟨most, next⟩ => ⟨most, fun time same => ?_⟩⟩
      have := next time same
      have := length_expire_le l.windowMs time fewer
      omega
    · rcases waits with granted | ⟨most, -⟩
      · cases granted
      · exact ⟨_, aborted, .inr ⟨most, nofun⟩⟩
  | attempt _ now h ih =>
    obtain ⟨phase, mine, waits⟩ := ih
    obtain ⟨rfl, rfl⟩ := (Call.mk.injEq ..).mp (Option.some.inj (mine.symm.trans now))
    rcases waits with granted | ⟨-, next⟩
    · cases granted
    have before := next _ rfl
    obtain ⟨units', time, call, -, attempted⟩ :=
      step_attempt (fun call mem => by cases mine.symm.trans mem; exact small) h
    cases attempted with
    | granted fits => exact ⟨_, State.settle_self mine .granted, .inl rfl⟩
    | refused kept =>
      rename_i oldest rest
      rw [kept] at before
      refine ⟨_, State.settle_self mine _, .inr ⟨?_, fun time same => ?_⟩⟩
      · rw [List.length_cons] at before
        omega
      · cases same
        have out : l.windowMs ≤ oldest.time + l.windowMs + 1 - oldest.time := by omega
        have := length_expire_lt rest out
        dsimp only
        omega

/-- Nobody else need act: asking again whenever it is due the call comes to its grant. -/
theorem exists_granted (due : s.calls[i]? = some ⟨units, .due s.now⟩) (small : units ≤ l.maxUnits) :
    ∃ n s', Alone l i s n s' ∧ n ≤ (expire l.windowMs s.now s.events).length + 1 ∧
      s'.calls[i]? = some ⟨units, .granted⟩ := by
  have progress (m : ℕ) : (∃ n s', Alone l i s n s' ∧ n ≤ m ∧
      s'.calls[i]? = some ⟨units, .granted⟩) ∨
      ∃ s' time, Alone l i s m s' ∧ s'.calls[i]? = some ⟨units, .due time⟩ ∧ s'.now ≤ time := by
    induction m with
    | zero => exact .inr ⟨s, _, .start, due, le_rfl⟩
    | succ m ih =>
      rcases ih with ⟨n, s₁, alone, le, granted⟩ | ⟨s₁, time, alone, mine, ahead⟩
      · exact .inl ⟨n, s₁, alone, by omega, granted⟩
      have slept : Alone l i s m { s₁ with now := s₁.now + (time - s₁.now).toNat } :=
        alone.other (show Action.tick (time - s₁.now).toNat ≠ .attempt i from nofun) rfl rfl
      rw [show s₁.now + ((time - s₁.now).toNat : ℤ) = time by omega] at slept
      obtain ⟨s₂, h⟩ := exists_step_attempt (l := l) mine (s := { s₁ with now := time }) le_rfl
      obtain ⟨units', time', call, -, attempted⟩ :=
        step_attempt (fun call mem => by cases mine.symm.trans mem; exact small) h
      obtain ⟨rfl, -⟩ := (Call.mk.injEq ..).mp (Option.some.inj (mine.symm.trans call))
      have asked := slept.attempt mine h
      cases attempted with
      | granted fits => exact .inl ⟨m + 1, _, asked, le_rfl, State.settle_self mine .granted⟩
      | refused kept =>
        have young := not_expired_of_expire_eq_cons kept
        refine .inr ⟨_, _, asked, State.settle_self mine _, ?_⟩
        dsimp only [State.settle] at young ⊢
        omega
  obtain granted | ⟨s', time, alone, mine, -⟩ :=
    progress ((expire l.windowMs s.now s.events).length + 1)
  · exact granted
  · obtain ⟨phase, mine', waits⟩ := alone.waiting due small
    obtain ⟨-, rfl⟩ := (Call.mk.injEq ..).mp (Option.some.inj (mine.symm.trans mine'))
    rcases waits with granted | ⟨most, -⟩
    · cases granted
    · omega

/-- Every run keeps every span under the cap and meets no empty list, and a call that asks again
exactly when it is due is granted after a wait for each event of the window at most. -/
theorem run_keeps_window [IsOrderedAddMonoid K] [CanonicallyOrderedAdd K] {now : ℤ}
    {actions : List (Action K)} (small : ∀ units, .acquire units ∈ actions → units ≤ l.maxUnits)
    (h : l.run actions (.start now) = some s) :
    (∀ first last, last - first < l.windowMs → total (within first last s.grants) ≤ l.maxUnits) ∧
    (∀ call ∈ s.calls, call.phase ≠ .failed) ∧
    ∀ i units, s.calls[i]? = some ⟨units, .due s.now⟩ →
      (∀ n s', Alone l i s n s' → n ≤ (expire l.windowMs s.now s.events).length ∨
        s'.calls[i]? = some ⟨units, .granted⟩) ∧
      ∃ n s', Alone l i s n s' ∧ n ≤ (expire l.windowMs s.now s.events).length + 1 ∧
        s'.calls[i]? = some ⟨units, .granted⟩ := by
  have sound := (sound_start l now).run small h
  refine ⟨sound.capped, sound.healthy, fun i units due => ?_⟩
  have fits := sound.small _ (List.mem_of_getElem? due)
  refine ⟨fun n s' alone => ?_, exists_granted due fits⟩
  obtain ⟨phase, mine, granted | ⟨most, -⟩⟩ := alone.waiting due fits
  · exact .inr (granted ▸ mine)
  · exact .inl most

/-- Three calls of four units under a cap of ten. -/
theorem run_keeps_window_sample : ∃ s : State ℕ,
    RateLimiter.run ⟨10, 1000⟩ [.acquire 4, .acquire 4, .attempt 0, .tick 7, .attempt 1, .acquire 4]
      (.start 0) = some s ∧
    ∀ first last, last - first < 1000 → total (within first last s.grants) ≤ 10 := by
  have small (units : ℕ) (mem : Action.acquire units ∈ [.acquire 4, .acquire 4, .attempt 0, .tick 7,
      .attempt 1, .acquire 4]) : units ≤ 10 := by
    simp at mem
    omega
  have ran : RateLimiter.run (⟨10, 1000⟩ : RateLimiter ℕ) [.acquire 4, .acquire 4, .attempt 0,
      .tick 7, .attempt 1, .acquire 4] (.start 0) = some _ := rfl
  exact ⟨_, ran, (run_keeps_window small ran).1⟩

end RateLimiter

end DeclutrMail.Quota
