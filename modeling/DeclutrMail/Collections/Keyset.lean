import Mathlib.Algebra.GroupWithZero.Nat
import Mathlib.Data.List.Nodup
import Mathlib.Order.Lattice

/-!
# Pages by key

A table is read page by page from the greatest key down. Where a page ends, a cursor that is made
of its last row says where to go on. Rows may come and go between two reads, so a walk is given the
table as it stands at each of them.

A read `Pages` a table if it answers with the first rows that pass the cursor. How exactly the
cursor is compared with the rows is left open: a comparison may lose rows (`skipped`).
-/

namespace Keyset

variable {σ α κ γ : Type*} [LinearOrder κ] (key : α → κ)

/-- The rows from the greatest key down. -/
def newestFirst (rows : List α) : List α := rows.mergeSort fun a b => key b ≤ key a

/-- The rows that pass a cursor. Every row passes if there is none. -/
def after (passes : γ → α → Bool) (cursor : Option γ) (rows : List α) : List α :=
  rows.filter fun x => cursor.all (passes · x)

/-- Read page after page, each from the next of the tables, until no page follows. The flag says
whether the walk has come to its end. -/
def walk (read : σ → Option γ → List α × Option γ) : Option γ → List σ → List (List α) × Bool
  | _, [] => ([], false)
  | cursor, s :: later =>
    match read s cursor with
    | (page, none) => ([page], true)
    | (page, some next) =>
      let rest := walk read (some next) later
      (page :: rest.1, rest.2)

/-- The rows with which the pages end, but for the last page. -/
def boundaries (pages : List (List α)) : List α := pages.dropLast.filterMap List.getLast?

structure Pages (passes : γ → α → Bool) (cursorOf : α → γ) (rows : List α)
    (read : Option γ → List α × Option γ) : Prop where
  page : ∀ cursor, (read cursor).1 <+: newestFirst key (after passes cursor rows)
  last : ∀ cursor, (read cursor).2 = none →
    (read cursor).1 = newestFirst key (after passes cursor rows)
  next : ∀ cursor c, (read cursor).2 = some c → ∃ b, (read cursor).1.getLast? = some b ∧
    c = cursorOf b

variable {key} {passes : γ → α → Bool} {cursorOf : α → γ} {rows : List α} {cursor : Option γ}

/-! ## Sorted rows -/

@[simp] theorem mem_newestFirst {x : α} : x ∈ newestFirst key rows ↔ x ∈ rows :=
  List.mem_mergeSort

theorem newestFirst_perm (rows : List α) : (newestFirst key rows).Perm rows :=
  List.mergeSort_perm _ _

theorem mem_after {x : α} : x ∈ after passes cursor rows ↔ x ∈ rows ∧ ∀ c ∈ cursor, passes c x := by
  cases cursor <;> simp [after]

theorem sorted_newestFirst (rows : List α) :
    (newestFirst key rows).Pairwise fun a b => decide (key b ≤ key a) := by
  refine List.pairwise_mergeSort (fun a b c ab bc => ?_) (fun a b => ?_) rows
  · exact decide_eq_true (le_trans (of_decide_eq_true bc) (of_decide_eq_true ab))
  · simpa using le_total (key b) (key a)

theorem pairwise_lt_of_le {xs : List α} (falls : xs.Pairwise fun a b => decide (key b ≤ key a))
    (distinct : (xs.map key).Nodup) : xs.Pairwise fun a b => key b < key a :=
  falls.imp₂ (fun _ _ le ne => lt_of_le_of_ne (of_decide_eq_true le) ne.symm)
    (List.pairwise_map.mp distinct)

/-- Distinct keys strictly fall. -/
theorem pairwise_newestFirst (distinct : (rows.map key).Nodup) :
    (newestFirst key rows).Pairwise fun a b => key b < key a :=
  pairwise_lt_of_le (sorted_newestFirst rows)
    (((newestFirst_perm rows).map key).nodup_iff.mpr distinct)

omit [LinearOrder κ] in
theorem nodup_after (passes : γ → α → Bool) (cursor : Option γ) (distinct : (rows.map key).Nodup) :
    ((after passes cursor rows).map key).Nodup :=
  distinct.sublist (List.filter_sublist.map key)

/-- Two falling lists with the same rows are equal. -/
theorem eq_of_falls {xs ys : List α} (falls : xs.Pairwise fun a b => key b < key a)
    (falls' : ys.Pairwise fun a b => key b < key a) (same : ∀ x, x ∈ xs ↔ x ∈ ys) : xs = ys := by
  have nodup {zs : List α} (h : zs.Pairwise fun a b => key b < key a) : zs.Nodup :=
    h.imp fun lt same => ne_of_gt lt (congrArg key same)
  refine List.Perm.eq_of_pairwise (fun a b _ _ lt gt => absurd (lt_trans lt gt) (lt_irrefl _))
    falls falls' ?_
  exact (List.perm_ext_iff_of_nodup (nodup falls) (nodup falls')).mpr same

/-- The rows of a table are those of the falling list with the same rows. -/
theorem eq_newestFirst {xs : List α} (falls : xs.Pairwise fun a b => key b < key a)
    (distinct : (rows.map key).Nodup) (same : ∀ x, x ∈ xs ↔ x ∈ rows) :
    xs = newestFirst key rows :=
  eq_of_falls falls (pairwise_newestFirst distinct) (by simpa using same)

/-- Sorted lists merge to a sorted list. -/
theorem merge_newestFirst {xs ys : List α} (whole : (xs ++ ys).Perm rows)
    (distinct : (rows.map key).Nodup) :
    (newestFirst key xs).merge (newestFirst key ys) (fun a b => key b ≤ key a) =
      newestFirst key rows := by
  have perm : ((newestFirst key xs).merge (newestFirst key ys)
      fun a b => key b ≤ key a).Perm rows :=
    (List.merge_perm_append _).trans
      (((newestFirst_perm xs).append (newestFirst_perm ys)).trans whole)
  have falls : ((newestFirst key xs).merge (newestFirst key ys) fun a b => key b ≤ key a).Pairwise
      fun a b => decide (key b ≤ key a) := by
    refine List.pairwise_merge (fun a b c ab bc => ?_) (fun a b => ?_) _ _
      (sorted_newestFirst xs) (sorted_newestFirst ys)
    · exact decide_eq_true (le_trans (of_decide_eq_true bc) (of_decide_eq_true ab))
    · simpa using le_total (key b) (key a)
  exact eq_newestFirst (pairwise_lt_of_le falls ((perm.map key).nodup_iff.mpr distinct)) distinct
    fun x => perm.mem_iff

/-! ## The first rows of several tables -/

variable (key) in
/-- How many rows come before `x`. -/
def ahead (x : α) (rows : List α) : ℕ := rows.countP fun y => key x < key y

/-- Of the first rows, those before `x` are the first of those before `x`. -/
theorem ahead_take {xs : List α} (falls : xs.Pairwise fun a b => key b < key a) (x : α) (n : ℕ) :
    ahead key x (xs.take n) = min n (ahead key x xs) := by
  induction xs generalizing n with
  | nil => simp [ahead]
  | cons a xs ih =>
    obtain ⟨least, falls⟩ := List.pairwise_cons.mp falls
    cases n with
    | zero => simp [ahead]
    | succ n =>
      have rest := ih falls n
      by_cases before : key x < key a
      · simp only [ahead, List.take_succ_cons, List.countP_cons, before] at rest ⊢
        simp only [decide_true, if_true]
        omega
      · have none : ∀ b ∈ xs, ¬ key x < key b := fun b mem lt => before (lt_trans lt (least b mem))
        have nothing : ahead key x xs = 0 := by simpa [ahead] using none
        simp only [ahead, List.take_succ_cons, List.countP_cons, before] at rest nothing ⊢
        simp only [decide_false, Bool.false_eq_true, if_false]
        omega

/-- A row is among the first `n` if fewer than `n` come before it. -/
theorem mem_take_of_falls {xs : List α} (falls : xs.Pairwise fun a b => key b < key a) {x : α}
    {n : ℕ} : x ∈ xs.take n ↔ x ∈ xs ∧ ahead key x xs < n := by
  induction xs generalizing n with
  | nil => simp
  | cons a xs ih =>
    obtain ⟨least, falls⟩ := List.pairwise_cons.mp falls
    cases n with
    | zero => simp
    | succ n =>
      have own : ∀ b ∈ a :: xs, ¬ key a < key b := by
        intro b mem
        rcases List.mem_cons.mp mem with rfl | mem
        · exact lt_irrefl _
        · exact lt_asymm (least b mem)
      rw [List.take_succ_cons, List.mem_cons, List.mem_cons, ih falls]
      constructor
      · rintro (rfl | ⟨mem, few⟩)
        · have nothing : ahead key x (x :: xs) = 0 := by simpa [ahead] using own
          exact ⟨.inl rfl, by omega⟩
        · have one : ahead key x (a :: xs) = ahead key x xs + 1 := by simp [ahead, least x mem]
          exact ⟨.inr mem, by omega⟩
      · rintro ⟨rfl | mem, few⟩
        · exact .inl rfl
        · have one : ahead key x (a :: xs) = ahead key x xs + 1 := by simp [ahead, least x mem]
          exact .inr ⟨mem, by omega⟩

theorem ahead_newestFirst (x : α) (rows : List α) :
    ahead key x (newestFirst key rows) = ahead key x rows :=
  (newestFirst_perm rows).countP_eq _

theorem min_sum_min (n : ℕ) (counts : List ℕ) :
    min n (counts.map (min n)).sum = min n counts.sum := by
  induction counts with
  | nil => rfl
  | cons c counts ih =>
    rw [List.map_cons, List.sum_cons, List.sum_cons]
    omega

theorem nodup_takes {sources : List (List α)} (distinct : (sources.flatten.map key).Nodup) (n : ℕ) :
    ((sources.flatMap fun s => (newestFirst key s).take n).map key).Nodup := by
  have whole : (sources.flatMap (newestFirst key)).Perm sources.flatten := by
    clear distinct
    induction sources with
    | nil => rfl
    | cons s sources ih => simpa using (newestFirst_perm s).append ih
  have part : (sources.flatMap fun s => (newestFirst key s).take n).Sublist
      (sources.flatMap (newestFirst key)) := by
    clear distinct whole
    induction sources with
    | nil => exact List.Sublist.slnil
    | cons s sources ih => simpa using (List.take_sublist n _).append ih
  exact ((whole.map key).nodup_iff.mpr distinct).sublist (part.map key)

/-- The first rows of several tables are the first of the first rows of each. -/
theorem take_newestFirst_flatMap {sources : List (List α)}
    (distinct : (sources.flatten.map key).Nodup) (n : ℕ) :
    (newestFirst key (sources.flatMap fun s => (newestFirst key s).take n)).take n =
      (newestFirst key sources.flatten).take n := by
  have own (s : List α) (mem : s ∈ sources) : (s.map key).Nodup :=
    distinct.sublist ((List.sublist_flatten_of_mem mem).map key)
  have count (x : α) : ahead key x (sources.flatMap fun s => (newestFirst key s).take n) =
      ((sources.map (ahead key x)).map (min n)).sum := by
    rw [ahead, List.countP_flatMap, List.map_map]
    refine congrArg List.sum (List.map_congr_left fun s mem => ?_)
    change ahead key x _ = min n (ahead key x s)
    rw [ahead_take (pairwise_newestFirst (own s mem)), ahead_newestFirst]
  have total (x : α) : ahead key x sources.flatten = (sources.map (ahead key x)).sum :=
    List.countP_flatten
  have few (x : α) : ahead key x (sources.flatMap fun s => (newestFirst key s).take n) < n ↔
      ahead key x sources.flatten < n := by
    have cut := min_sum_min n (sources.map (ahead key x))
    rw [count, total]
    omega
  have falls := pairwise_newestFirst (nodup_takes distinct n)
  have falls' := pairwise_newestFirst distinct
  refine eq_of_falls (falls.sublist (List.take_sublist ..)) (falls'.sublist (List.take_sublist ..))
    fun x => ?_
  rw [mem_take_of_falls falls, mem_take_of_falls falls', ahead_newestFirst, ahead_newestFirst, few,
    mem_newestFirst, mem_newestFirst, and_congr_left_iff]
  intro ahead_lt
  constructor
  · intro mem
    obtain ⟨s, source, mem⟩ := List.mem_flatMap.mp mem
    exact List.mem_flatten.mpr ⟨s, source, mem_newestFirst.mp (List.mem_of_mem_take mem)⟩
  · intro mem
    obtain ⟨s, source, mem⟩ := List.mem_flatten.mp mem
    have le : ahead key x s ≤ ahead key x sources.flatten :=
      (List.sublist_flatten_of_mem source).countP_le
    refine List.mem_flatMap.mpr ⟨s, source, (mem_take_of_falls
      (pairwise_newestFirst (own s source))).mpr ⟨mem_newestFirst.mpr mem, ?_⟩⟩
    rw [ahead_newestFirst]
    omega

/-! ## Walks -/

/-- A read that takes a page which is not full for the last one. -/
theorem pages_of_full {limit : ℕ} (pos : 1 ≤ limit) {read : Option γ → List α × Option γ}
    (reads : ∀ cursor, read cursor =
      let page := (newestFirst key (after passes cursor rows)).take limit
      (page, if page.length < limit then none else page.getLast?.map cursorOf)) :
    Pages key passes cursorOf rows read := by
  refine ⟨fun cursor => ?_, fun cursor => ?_, fun cursor c => ?_⟩ <;> rw [reads] <;> dsimp only
  · exact List.take_prefix ..
  · split_ifs with short
    · rw [List.length_take] at short
      exact fun _ => List.take_of_length_le (by omega)
    · intro none
      rw [Option.map_eq_none_iff, List.getLast?_eq_none_iff] at none
      rw [none, List.length_nil] at short
      omega
  · split_ifs with short
    · nofun
    · intro next
      obtain ⟨b, last, is⟩ := Option.map_eq_some_iff.mp next
      exact ⟨b, last, is.symm⟩

/-- What holds of the pages of a walk that asks for the rows which pass `cursor`. -/
theorem Pages.mem_page {read : Option γ → List α × Option γ}
    (pages : Pages key passes cursorOf rows read) {x : α} (mem : x ∈ (read cursor).1) :
    x ∈ rows ∧ ∀ c ∈ cursor, passes c x :=
  mem_after.mp (mem_newestFirst.mp ((pages.page cursor).subset mem))

/-- A row that passes the cursor is on the page, or comes after the last row of it. -/
theorem Pages.mem_or_lt {read : Option γ → List α × Option γ}
    (pages : Pages key passes cursorOf rows read) (distinct : (rows.map key).Nodup) {x : α}
    (mem : x ∈ rows) (within : ∀ c ∈ cursor, passes c x) :
    x ∈ (read cursor).1 ∨ ∀ b ∈ (read cursor).1, key x < key b := by
  obtain ⟨rest, split⟩ := pages.page cursor
  have falls := pairwise_newestFirst (nodup_after passes cursor distinct)
  have there : x ∈ newestFirst key (after passes cursor rows) :=
    mem_newestFirst.mpr (mem_after.mpr ⟨mem, within⟩)
  rw [← split] at falls there
  rcases List.mem_append.mp there with here | later
  · exact .inl here
  · exact .inr fun b before => (List.pairwise_append.mp falls).2.2 b before x later

variable {tables : σ → List α} {read : σ → Option γ → List α × Option γ} {ss : List σ}

theorem walk_cons_none {s : σ} {page : List α} (here : read s cursor = (page, none)) :
    walk read cursor (s :: ss) = ([page], true) := by
  simp [walk, here]

theorem walk_cons_some {s : σ} {page : List α} {next : γ}
    (here : read s cursor = (page, some next)) : walk read cursor (s :: ss) =
      (page :: (walk read (some next) ss).1, (walk read (some next) ss).2) := by
  simp [walk, here]

theorem ne_nil_of_ended (ended : (walk read cursor ss).2) : (walk read cursor ss).1 ≠ [] := by
  cases ss with
  | nil => cases ended
  | cons s ss =>
    match here : read s cursor with
    | (page, none) => simp [walk_cons_none here]
    | (page, some next) => simp [walk_cons_some here]

omit [LinearOrder κ] in
theorem boundaries_cons {page : List α} {pages : List (List α)} {b : α}
    (last : page.getLast? = some b) (more : pages ≠ []) :
    boundaries (page :: pages) = b :: boundaries pages := by
  simp [boundaries, List.dropLast_cons_of_ne_nil more, last]

omit [LinearOrder κ] in
theorem mem_boundaries_cons {page : List α} {pages : List (List α)} {b : α}
    (mem : b ∈ boundaries (page :: pages)) : page.getLast? = some b ∨ b ∈ boundaries pages := by
  cases pages with
  | nil => simp [boundaries] at mem
  | cons page' pages =>
    rw [boundaries, List.dropLast_cons_of_ne_nil (by simp)] at mem
    obtain ⟨p, front, last⟩ := List.mem_filterMap.mp mem
    rcases List.mem_cons.mp front with rfl | front
    · exact .inl last
    · exact .inr (List.mem_filterMap.mpr ⟨p, front, last⟩)

omit [LinearOrder κ] in
theorem mem_flatten_of_boundary {pages : List (List α)} {b : α} (mem : b ∈ boundaries pages) :
    b ∈ pages.flatten := by
  obtain ⟨p, front, last⟩ := List.mem_filterMap.mp mem
  exact List.mem_flatten.mpr ⟨p, List.dropLast_subset _ front, List.mem_of_getLast? last⟩

/-- The last of falling rows is the least. -/
theorem le_of_getLast? {page : List α} {b : α} (falls : page.Pairwise fun a b => key b < key a)
    (last : page.getLast? = some b) : ∀ a ∈ page, key b ≤ key a := by
  obtain ⟨front, rfl⟩ := List.getLast?_eq_some_iff.mp last
  intro a mem
  rcases List.mem_append.mp mem with before | same
  · exact le_of_lt ((List.pairwise_append.mp falls).2.2 a before b List.mem_cons_self)
  · exact le_of_eq (congrArg key (List.mem_singleton.mp same).symm)

/-- A walk lists its rows from the greatest key down, and so lists no row twice. -/
theorem walk_falls (behind : ∀ b x, passes (cursorOf b) x → key x < key b)
    (paged : ∀ s ∈ ss, Pages key passes cursorOf (tables s) (read s))
    (distinct : ∀ s ∈ ss, ((tables s).map key).Nodup) :
    (walk read cursor ss).1.flatten.Pairwise (fun a b => key b < key a) ∧
      ∀ b, cursor = some (cursorOf b) → ∀ x ∈ (walk read cursor ss).1.flatten, key x < key b := by
  induction ss generalizing cursor with
  | nil => simp [walk]
  | cons s ss ih =>
    have pages := paged s List.mem_cons_self
    have falls := (pairwise_newestFirst (nodup_after passes cursor
      (distinct s List.mem_cons_self))).sublist (pages.page cursor).sublist
    have below : ∀ b, cursor = some (cursorOf b) → ∀ x ∈ (read s cursor).1, key x < key b :=
      fun b same x mem => behind b x ((pages.mem_page mem).2 _ same)
    match here : read s cursor with
    | (page, none) =>
      rw [here] at falls below
      simpa [walk_cons_none here] using ⟨falls, below⟩
    | (page, some next) =>
      rw [here] at falls below
      obtain ⟨b, last, rfl⟩ := pages.next cursor next (congrArg Prod.snd here)
      obtain ⟨rest, lower⟩ := @ih (some (cursorOf b))
        (fun s mem => paged s (List.mem_cons_of_mem _ mem))
        fun s mem => distinct s (List.mem_cons_of_mem _ mem)
      rw [here] at last
      have least : ∀ a ∈ page, key b ≤ key a := le_of_getLast? falls last
      rw [walk_cons_some here, List.flatten_cons]
      refine ⟨List.pairwise_append.mpr ⟨falls, rest, fun a mem x later => ?_⟩,
        fun b' same x mem => ?_⟩
      · exact lt_of_lt_of_le (lower b rfl x later) (least a mem)
      · rcases List.mem_append.mp mem with mem | later
        · exact below b' same x mem
        · exact lt_trans (lower b rfl x later) (below b' same b (List.mem_of_getLast? last))

/-- A row that is there at every read is listed by a walk that has come to its end, unless a
cursor on the way has skipped it. -/
theorem mem_walk (paged : ∀ s ∈ ss, Pages key passes cursorOf (tables s) (read s))
    (distinct : ∀ s ∈ ss, ((tables s).map key).Nodup) {x : α} (steady : ∀ s ∈ ss, x ∈ tables s)
    (within : ∀ c ∈ cursor, passes c x) (ended : (walk read cursor ss).2) :
    x ∈ (walk read cursor ss).1.flatten ∨
      ∃ b ∈ boundaries (walk read cursor ss).1, key x < key b ∧ passes (cursorOf b) x = false := by
  induction ss generalizing cursor with
  | nil => cases ended
  | cons s ss ih =>
    have pages := paged s List.mem_cons_self
    have mem := steady s List.mem_cons_self
    match here : read s cursor with
    | (page, none) =>
      have whole : page = _ := (congrArg Prod.fst here).symm.trans
        (pages.last cursor (congrArg Prod.snd here))
      rw [walk_cons_none here, whole]
      exact .inl (by simpa using mem_after.mpr ⟨mem, within⟩)
    | (page, some next) =>
      obtain ⟨b, last, rfl⟩ := pages.next cursor next (congrArg Prod.snd here)
      have split := pages.mem_or_lt (distinct s List.mem_cons_self) mem within
      rw [here] at last split
      rw [walk_cons_some here] at ended ⊢
      have more : (walk read (some (cursorOf b)) ss).1 ≠ [] := ne_nil_of_ended ended
      rw [List.flatten_cons, boundaries_cons last more]
      rcases split with mem | lower
      · exact .inl (List.mem_append_left _ mem)
      by_cases on : passes (cursorOf b) x
      · rcases ih (fun s mem => paged s (List.mem_cons_of_mem _ mem))
          (fun s mem => distinct s (List.mem_cons_of_mem _ mem))
          (fun s mem => steady s (List.mem_cons_of_mem _ mem)) (by simpa using on) ended with
          listed | ⟨b', bound, skipped⟩
        · exact .inl (List.mem_append_right _ listed)
        · exact .inr ⟨b', List.mem_cons_of_mem _ bound, skipped⟩
      · exact .inr ⟨b, List.mem_cons_self, lower b (List.mem_of_getLast? last), by simpa using on⟩

/-- Where a cursor passes all that a later one passes, the rows of a walk pass its cursor. -/
theorem passes_of_walk (chain : ∀ c b x, passes c b → passes (cursorOf b) x → passes c x)
    (paged : ∀ s ∈ ss, Pages key passes cursorOf (tables s) (read s)) {x : α}
    (mem : x ∈ (walk read cursor ss).1.flatten) :
    (∃ s ∈ ss, x ∈ tables s) ∧ ∀ c ∈ cursor, passes c x := by
  induction ss generalizing cursor with
  | nil => simp [walk] at mem
  | cons s ss ih =>
    have pages := paged s List.mem_cons_self
    have listed {y : α} (mem : y ∈ (read s cursor).1) :
        (∃ s' ∈ s :: ss, y ∈ tables s') ∧ ∀ c ∈ cursor, passes c y :=
      ⟨⟨s, List.mem_cons_self, (pages.mem_page mem).1⟩, (pages.mem_page mem).2⟩
    match here : read s cursor with
    | (page, none) =>
      rw [here] at listed
      exact listed (by simpa [walk_cons_none here] using mem)
    | (page, some next) =>
      obtain ⟨b, last, rfl⟩ := pages.next cursor next (congrArg Prod.snd here)
      rw [here] at listed last
      rw [walk_cons_some here, List.flatten_cons] at mem
      rcases List.mem_append.mp mem with mem | later
      · exact listed mem
      · obtain ⟨⟨s', there, of⟩, past⟩ :=
          ih (fun s mem => paged s (List.mem_cons_of_mem _ mem)) later
        refine ⟨⟨s', List.mem_cons_of_mem _ there, of⟩, fun c given => ?_⟩
        exact chain c b x ((listed (List.mem_of_getLast? last)).2 c given) (past _ rfl)

/-- What a cursor has skipped is not listed later. -/
theorem passes_of_boundary (behind : ∀ b x, passes (cursorOf b) x → key x < key b)
    (chain : ∀ c b x, passes c b → passes (cursorOf b) x → passes c x)
    (paged : ∀ s ∈ ss, Pages key passes cursorOf (tables s) (read s))
    (distinct : ∀ s ∈ ss, ((tables s).map key).Nodup) {x b : α}
    (mem : x ∈ (walk read cursor ss).1.flatten) (bound : b ∈ boundaries (walk read cursor ss).1)
    (lower : key x < key b) : passes (cursorOf b) x := by
  induction ss generalizing cursor with
  | nil => simp [walk] at mem
  | cons s ss ih =>
    have pages := paged s List.mem_cons_self
    have falls : (walk read cursor (s :: ss)).1.flatten.Pairwise fun a b => key b < key a :=
      (walk_falls behind paged distinct).1
    match here : read s cursor with
    | (page, none) => simp [walk_cons_none here, boundaries] at bound
    | (page, some next) =>
      obtain ⟨b', last, rfl⟩ := pages.next cursor next (congrArg Prod.snd here)
      rw [here] at last
      have paged' := fun s mem => paged s (List.mem_cons_of_mem _ mem)
      have distinct' := fun s mem => distinct s (List.mem_cons_of_mem _ mem)
      rw [walk_cons_some here] at mem bound falls
      rw [List.flatten_cons] at mem falls
      obtain ⟨first, -, across⟩ := List.pairwise_append.mp falls
      have beyond : key x < key b' → x ∈ (walk read (some (cursorOf b')) ss).1.flatten := by
        intro lower
        refine (List.mem_append.mp mem).resolve_left fun here => ?_
        exact absurd (le_of_getLast? first last x here) (not_le_of_gt lower)
      rcases mem_boundaries_cons bound with same | bound
      · obtain rfl := Option.some.inj (last.symm.trans same)
        exact (passes_of_walk chain paged' (beyond lower)).2 _ rfl
      · have between := across b' (List.mem_of_getLast? last) b (mem_flatten_of_boundary bound)
        exact ih paged' distinct' (beyond (lt_trans lower between)) bound

/-- A table that does not change is walked to its end. -/
theorem walk_ends (behind : ∀ b x, passes (cursorOf b) x → key x < key b)
    (chain : ∀ c b x, passes c b → passes (cursorOf b) x → passes c x) {s : σ}
    (pages : Pages key passes cursorOf rows (read s)) {n : ℕ}
    (enough : (after passes cursor rows).length < n) :
    (walk read cursor (List.replicate n s)).2 := by
  induction n generalizing cursor with
  | zero => omega
  | succ n ih =>
    rw [List.replicate_succ]
    match here : read s cursor with
    | (page, none) => rw [walk_cons_none here]
    | (page, some next) =>
      rw [walk_cons_some here]
      obtain ⟨b, last, rfl⟩ := pages.next cursor next (congrArg Prod.snd here)
      obtain ⟨mem, within⟩ := pages.mem_page (List.mem_of_getLast? last)
      have narrows : after passes (some (cursorOf b)) rows =
          (after passes cursor rows).filter (passes (cursorOf b)) := by
        rw [after, after, List.filter_filter]
        refine List.filter_congr fun x _ => ?_
        by_cases past : passes (cursorOf b) x
        · cases cursor with
          | none => simp
          | some c => simp [past, chain c b x (within c rfl) past]
        · simp [past]
      have fewer : (after passes (some (cursorOf b)) rows).length <
          (after passes cursor rows).length := by
        rw [narrows]
        refine List.length_filter_lt_length_iff_exists.mpr
          ⟨b, mem_after.mpr ⟨mem, within⟩, fun past => ?_⟩
        exact lt_irrefl _ (behind b b past)
      exact ih (by omega)

/-- Where no cursor skips a row, the pages of a table that does not change are all of it. -/
theorem walk_whole (behind : ∀ b x, passes (cursorOf b) x → key x < key b)
    (chain : ∀ c b x, passes c b → passes (cursorOf b) x → passes c x)
    (lossless : ∀ b x, key x < key b → passes (cursorOf b) x) {s : σ}
    (pages : Pages key passes cursorOf rows (read s))
    (distinct : (rows.map key).Nodup) {n : ℕ} (enough : rows.length < n) :
    (walk read none (List.replicate n s)).2 ∧
      (walk read none (List.replicate n s)).1.flatten = newestFirst key rows := by
  have whole : after passes none rows = rows := List.filter_eq_self.mpr fun _ _ => rfl
  have ended : (walk read none (List.replicate n s)).2 :=
    walk_ends behind chain pages (by rwa [whole])
  have paged : ∀ s' ∈ List.replicate n s, Pages key passes cursorOf rows (read s') :=
    fun s' mem => List.eq_of_mem_replicate mem ▸ pages
  have distincts : ∀ s' ∈ List.replicate n s, (rows.map key).Nodup := fun _ _ => distinct
  refine ⟨ended, eq_newestFirst (walk_falls behind paged distincts).1 distinct fun x => ⟨?_, ?_⟩⟩
  · intro mem
    obtain ⟨⟨-, -, of⟩, -⟩ := passes_of_walk chain paged mem
    exact of
  · intro mem
    refine (mem_walk paged distincts (fun _ _ => mem) (fun c given => by cases given)
      ended).resolve_right ?_
    rintro ⟨b, -, lower, skipped⟩
    rw [lossless b x lower] at skipped
    cases skipped

end Keyset
