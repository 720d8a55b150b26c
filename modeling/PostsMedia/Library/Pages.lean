import Mathlib.Data.List.Basic
import Mathlib.Data.List.Nodup

namespace Pages

variable {α : Type*} {le : α → α → Bool} {rows sorted : List α} {size : ℕ} {x : α}

/-- A total order with ties. -/
structure Preference (le : α → α → Bool) : Prop where
  total : ∀ a b, le a b = true ∨ le b a = true
  trans : ∀ a b c, le a b = true → le b c = true → le a c = true

/-- One of the orders in which a sort may return the rows. -/
structure SortOf (le : α → α → Bool) (rows sorted : List α) : Prop where
  perm : sorted.Perm rows
  ordered : sorted.Pairwise fun a b => le a b = true

/-- The number of rows that every sort returns before the row. -/
def before (le : α → α → Bool) (rows : List α) (x : α) : ℕ := rows.countP fun y => !le x y

/-- The number of rows up to the last one that ties with the row. -/
def upto (le : α → α → Bool) (rows : List α) (x : α) : ℕ := rows.countP fun y => le y x

/-- The page with this number, from zero on. -/
def page (size p : ℕ) (sorted : List α) : List α := (sorted.drop (p * size)).take size

/-- No ties cross the end of a page. -/
def TiesFit (le : α → α → Bool) (rows : List α) (size : ℕ) : Prop :=
  ∀ x ∈ rows, before le rows x / size = (upto le rows x - 1) / size

theorem Preference.refl (order : Preference le) (a : α) : le a a = true := by
  rcases order.total a a with same | same <;> exact same

/-- The opposite order is an order. -/
theorem Preference.swap (order : Preference le) : Preference fun a b => le b a where
  total a b := order.total b a
  trans a b c first second := order.trans c b a second first

/-- An order of keys is an order of their rows. -/
theorem Preference.comap {β : Type*} {le : β → β → Bool} (order : Preference le) (key : α → β) :
    Preference fun a b => le (key a) (key b) where
  total _ _ := order.total _ _
  trans _ _ _ := order.trans _ _ _

theorem preference_nat : Preference fun a b : ℕ => decide (a ≤ b) where
  total a b := by simpa using Nat.le_total a b
  trans a b c := by simpa using Nat.le_trans

/-- A row stands after everything that precedes it and before everything that follows its ties. -/
theorem SortOf.position_append {first rest : List α} (order : Preference le)
    (sort : SortOf le rows (first ++ x :: rest)) :
    before le rows x ≤ first.length ∧ first.length < upto le rows x := by
  obtain ⟨_, ⟨after, _⟩, earlier⟩ :
      _ ∧ ((∀ y ∈ rest, le x y = true) ∧ _) ∧ ∀ y ∈ first, ∀ z ∈ x :: rest, le y z = true := by
    simpa only [List.pairwise_append, List.pairwise_cons] using sort.ordered
  have self : le x x = true := order.refl x
  constructor
  · have none : rest.countP (fun y => !le x y) = 0 := by
      rw [List.countP_eq_zero]
      intro y member
      simp [after y member]
    calc before le rows x = (first ++ x :: rest).countP fun y => !le x y :=
          (sort.perm.countP_eq _).symm
      _ = first.countP fun y => !le x y := by
          simp [List.countP_append, none, self]
      _ ≤ first.length := List.countP_le_length
  · have all : first.countP (fun y => le y x) = first.length :=
      List.countP_eq_length.mpr fun y member => earlier y member x List.mem_cons_self
    calc first.length < (first ++ x :: rest).countP fun y => le y x := by
          simp only [List.countP_append, List.countP_cons, all, self, if_true]
          omega
      _ = upto le rows x := sort.perm.countP_eq _

theorem SortOf.position (sort : SortOf le rows sorted) (order : Preference le) {i : ℕ}
    (inside : i < sorted.length) :
    before le rows sorted[i] ≤ i ∧ i < upto le rows sorted[i] := by
  have split : SortOf le rows (sorted.take i ++ sorted[i] :: sorted.drop (i + 1)) := by
    rw [List.getElem_cons_drop, List.take_append_drop]
    exact sort
  have length : (sorted.take i).length = i := List.length_take_of_le (by omega)
  have placed := split.position_append order
  rwa [length] at placed

theorem mem_page {p : ℕ} : x ∈ page size p sorted ↔
    ∃ i, ∃ inside : i < sorted.length, p * size ≤ i ∧ i < (p + 1) * size ∧ sorted[i] = x := by
  rw [page, List.mem_iff_getElem, Nat.add_one_mul]
  constructor
  · rintro ⟨i, inside, rfl⟩
    rw [List.length_take, List.length_drop] at inside
    exact ⟨p * size + i, by omega, by omega, by omega, by simp⟩
  · rintro ⟨i, inside, above, below, rfl⟩
    refine ⟨i - p * size, by rw [List.length_take, List.length_drop]; omega, ?_⟩
    simp only [List.getElem_take, List.getElem_drop]
    congr 1
    omega

/-- The pages of one sort are its rows. -/
theorem flatten_pages (n : ℕ) :
    ((List.range n).map fun p => page size p sorted).flatten = sorted.take (n * size) := by
  induction n with
  | zero => simp
  | succ n ih =>
      rw [List.range_succ, List.map_append, List.flatten_append, ih, Nat.add_one_mul,
        List.take_add]
      simp [page]

/-- The number of pages is enough for all rows. -/
theorem length_le_pages (rows : List α) (positive : 0 < size) :
    rows.length ≤ (rows.length + size - 1) / size * size := by
  have split := Nat.div_add_mod (rows.length + size - 1) size
  have rest := Nat.mod_lt (rows.length + size - 1) positive
  rw [Nat.mul_comm] at split
  omega

/-- A page that is not the last one is full. -/
theorem length_page {p : ℕ} (positive : 0 < size)
    (inner : p + 1 < (sorted.length + size - 1) / size) : (page size p sorted).length = size := by
  have enough := (Nat.le_div_iff_mul_le positive).mp (Nat.succ_le_of_lt inner)
  rw [page, List.length_take, List.length_drop]
  rw [Nat.succ_mul, Nat.add_one_mul] at enough
  omega

/-- Ties that fit on a page fix the page of every row. -/
theorem SortOf.page_eq_filter (sort : SortOf le rows sorted) (order : Preference le)
    (fit : TiesFit le rows size) (positive : 0 < size) (p : ℕ) :
    page size p sorted = sorted.filter fun x => before le rows x / size = p := by
  have slot : ∀ i, ∀ inside : i < sorted.length, before le rows sorted[i] / size = i / size := by
    intro i inside
    obtain ⟨low, high⟩ := sort.position order inside
    have fits := fit sorted[i] (sort.perm.subset (List.getElem_mem inside))
    have lower : before le rows sorted[i] / size ≤ i / size := Nat.div_le_div_right low
    have upper : i / size ≤ (upto le rows sorted[i] - 1) / size :=
      Nat.div_le_div_right (by omega)
    omega
  have parts : sorted =
      sorted.take (p * size) ++ (page size p sorted ++ sorted.drop (p * size + size)) := by
    rw [page, ← List.drop_drop, List.take_append_drop, List.take_append_drop]
  have first : (sorted.take (p * size)).filter (fun x => before le rows x / size = p) = [] := by
    rw [List.filter_eq_nil_iff]
    intro x member
    obtain ⟨i, inside, rfl⟩ := List.mem_iff_getElem.mp member
    rw [List.length_take] at inside
    have early : i / size < p := (Nat.div_lt_iff_lt_mul positive).mpr (by omega)
    simp only [List.getElem_take, slot i (by omega), decide_eq_true_eq]
    omega
  have own : (page size p sorted).filter (fun x => before le rows x / size = p) =
      page size p sorted := by
    rw [List.filter_eq_self]
    intro x member
    obtain ⟨i, inside, above, below, rfl⟩ := mem_page.mp member
    simp only [slot i inside, decide_eq_true_eq]
    exact Nat.div_eq_of_lt_le above below
  have last : (sorted.drop (p * size + size)).filter (fun x => before le rows x / size = p) =
      [] := by
    rw [List.filter_eq_nil_iff]
    intro x member
    obtain ⟨i, inside, rfl⟩ := List.mem_iff_getElem.mp member
    rw [List.length_drop] at inside
    have present : p * size + size + i < sorted.length := by omega
    have late : p + 1 ≤ (p * size + size + i) / size :=
      (Nat.le_div_iff_mul_le positive).mpr (by rw [Nat.add_one_mul]; omega)
    simp only [List.getElem_drop, slot _ present, decide_eq_true_eq]
    omega
  conv_rhs => rw [parts]
  rw [List.filter_append, List.filter_append, first, own, last]
  simp

/-- Lists that are permutations page by page are permutations. -/
theorem flatten_map_perm {f g : ℕ → List α} (pages : List ℕ) (same : ∀ p, (f p).Perm (g p)) :
    (pages.map f).flatten.Perm (pages.map g).flatten := by
  induction pages with
  | nil => exact .refl _
  | cons p rest ih => exact (same p).append ih

/-- Pages of different sorts still contain every row once when the ties fit. -/
theorem flatten_perm {sorts : ℕ → List α} (order : Preference le)
    (sort : ∀ p, SortOf le rows (sorts p)) (fit : TiesFit le rows size) (positive : 0 < size) :
    ((List.range ((rows.length + size - 1) / size)).map fun p =>
      page size p (sorts p)).flatten.Perm rows := by
  have same : ∀ p, (page size p (sorts p)).Perm (page size p (sorts 0)) := by
    intro p
    rw [(sort p).page_eq_filter order fit positive, (sort 0).page_eq_filter order fit positive]
    exact ((sort p).perm.trans (sort 0).perm.symm).filter _
  refine (flatten_map_perm _ same).trans ?_
  have enough : (sorts 0).length ≤ (rows.length + size - 1) / size * size :=
    (sort 0).perm.length_eq ▸ length_le_pages rows positive
  rw [flatten_pages, List.take_of_length_le enough]
  exact (sort 0).perm

/-- The pages of different sorts follow each other in order. -/
theorem flatten_ordered {sorts : ℕ → List α} (order : Preference le)
    (sort : ∀ p, SortOf le rows (sorts p)) (n : ℕ) :
    ((List.range n).map fun p => page size p (sorts p)).flatten.Pairwise
      fun a b => le a b = true := by
  rw [List.pairwise_flatten]
  constructor
  · intro rows' member
    obtain ⟨p, _, rfl⟩ := List.mem_map.mp member
    exact (((sort p).ordered).drop).take
  · rw [List.pairwise_map]
    refine List.pairwise_lt_range.imp ?_
    intro p q earlier a first b second
    obtain ⟨i, inside, _, below, rfl⟩ := mem_page.mp first
    obtain ⟨j, inside', above, _, rfl⟩ := mem_page.mp second
    have gap : (p + 1) * size ≤ q * size := Nat.mul_le_mul_right size earlier
    by_contra behind
    -- Everything up to the later row would stand before the earlier one.
    have absorbed : upto le rows (sorts q)[j] ≤ before le rows (sorts p)[i] := by
      apply List.countP_mono_left
      intro y _ upTo
      by_contra kept
      exact behind (order.trans _ _ _ (by simpa using kept) upTo)
    have low := ((sort p).position order inside).1
    have high := ((sort q).position order inside').2
    omega

/-- The rows that tie with a row. -/
def ties (le : α → α → Bool) (rows : List α) (x : α) : List α :=
  rows.filter fun y => le x y && le y x

theorem upto_eq (order : Preference le) :
    upto le rows x = before le rows x + (ties le rows x).length := by
  induction rows with
  | nil => rfl
  | cons y rest ih =>
      simp only [upto, before, ties, List.countP_cons, List.filter_cons] at ih ⊢
      have total := order.total x y
      cases forward : le x y <;> cases backward : le y x <;>
        simp_all only [Bool.and_true, Bool.and_false, Bool.not_true, Bool.not_false, if_true,
          List.length_cons, Bool.false_eq_true, or_self, if_false] <;> omega

/-- The rows before a row, its ties and the rows after its ties are all rows. -/
theorem parts_perm (le : α → α → Bool) (rows : List α) (x : α) :
    (rows.filter (fun y => !le x y) ++
      (ties le rows x ++ rows.filter fun y => le x y && !le y x)).Perm rows := by
  have outer := List.filter_append_perm (fun y => !le x y) rows
  have inner := List.filter_append_perm (fun y => le y x) (rows.filter fun y => le x y)
  simp only [Bool.not_not] at outer
  simp only [List.filter_filter] at inner
  refine (List.Perm.append_left _ ?_).trans outer
  simpa only [ties, Bool.and_comm] using inner

theorem exists_sort (order : Preference le) (rows : List α) : ∃ sorted, SortOf le rows sorted :=
  ⟨rows.mergeSort le, List.mergeSort_perm _ _,
    List.pairwise_mergeSort order.trans (by simpa using order.total) _⟩

/-- The ties of a row in any order, between the sorted rows before them and the sorted rows after
them, are a sort. -/
theorem sortOf_parts (order : Preference le) {front middle back : List α}
    (sortFront : SortOf le (rows.filter fun y => !le x y) front)
    (shuffled : middle.Perm (ties le rows x))
    (sortBack : SortOf le (rows.filter fun y => le x y && !le y x) back) :
    SortOf le rows (front ++ middle ++ back) := by
  have inFront : ∀ y ∈ front, le y x = true := by
    intro y present
    have strict := (List.mem_filter.mp (sortFront.perm.subset present)).2
    rcases order.total x y with forward | backward
    · simp [forward] at strict
    · exact backward
  have inMiddle : ∀ y ∈ middle, le x y = true ∧ le y x = true := by
    intro y present
    simpa using (List.mem_filter.mp (shuffled.subset present)).2
  have inBack : ∀ y ∈ back, le x y = true := by
    intro y present
    have strict := (List.mem_filter.mp (sortBack.perm.subset present)).2
    simp only [Bool.and_eq_true] at strict
    exact strict.1
  refine ⟨?_, ?_⟩
  · rw [List.append_assoc]
    exact (sortFront.perm.append (shuffled.append sortBack.perm)).trans (parts_perm le rows x)
  · simp only [List.pairwise_append, List.mem_append]
    refine ⟨⟨sortFront.ordered, ?_, ?_⟩, sortBack.ordered, ?_⟩
    · apply List.pairwise_of_forall_mem_list
      intro a first b second
      exact order.trans a x b (inMiddle a first).2 (inMiddle b second).1
    · intro a first b second
      exact order.trans a x b (inFront a first) (inMiddle b second).1
    · intro a first b second
      have upTo : le a x = true := first.elim (inFront a) fun tie => (inMiddle a tie).2
      exact order.trans a x b upTo (inBack b second)

/-- A row may take every place among its ties. -/
theorem exists_sort_at (order : Preference le) (member : x ∈ rows) {i : ℕ}
    (low : before le rows x ≤ i) (high : i < upto le rows x) :
    ∃ sorted, SortOf le rows sorted ∧ ∃ inside : i < sorted.length, sorted[i] = x := by
  have tied : x ∈ ties le rows x := by simp [ties, member, order.refl]
  obtain ⟨some, others, split⟩ := List.append_of_mem tied
  let rest := some ++ others
  let k := i - before le rows x
  obtain ⟨front, sortFront⟩ := exists_sort order (rows.filter fun y => !le x y)
  obtain ⟨back, sortBack⟩ := exists_sort order (rows.filter fun y => le x y && !le y x)
  let middle := rest.take k ++ x :: rest.drop k
  have shuffled : middle.Perm (ties le rows x) := by
    rw [split]
    refine List.perm_middle.trans (.trans (.cons x ?_) List.perm_middle.symm)
    rw [List.take_append_drop]
  have frontLength : front.length = before le rows x := by
    rw [sortFront.perm.length_eq, ← List.countP_eq_length_filter]
    rfl
  have within : k ≤ rest.length := by
    rw [upto_eq order, split] at high
    simp only [List.length_append, List.length_cons] at high
    simp only [k, rest, List.length_append]
    omega
  have place : (front ++ rest.take k).length = i := by
    rw [List.length_append, List.length_take_of_le within, frontLength]
    simp only [k]
    omega
  have shape : front ++ middle ++ back = (front ++ rest.take k) ++ x :: (rest.drop k ++ back) := by
    simp [middle]
  refine ⟨front ++ middle ++ back, sortOf_parts order sortFront shuffled sortBack, ?_, ?_⟩
  · rw [shape, List.length_append, place, List.length_cons]
    omega
  · simp only [shape]
    rw [List.getElem_append_right (Nat.le_of_eq place)]
    simp [place]

/-- Ties that cross the end of a page let one sort show a row there that another sort shows again
on the next page. -/
theorem exists_repetition (order : Preference le) (distinct : rows.Nodup) (positive : 0 < size)
    (misfit : ¬ TiesFit le rows size) :
    ∃ sorts : ℕ → List α, (∀ p, SortOf le rows (sorts p)) ∧
      ¬ ((List.range ((rows.length + size - 1) / size)).map fun p =>
        page size p (sorts p)).flatten.Perm rows := by
  simp only [TiesFit, not_forall] at misfit
  obtain ⟨x, member, apart⟩ := misfit
  let q := before le rows x / size
  have start := Nat.div_add_mod (before le rows x) size
  have offset := Nat.mod_lt (before le rows x) positive
  have some : before le rows x < upto le rows x := by
    obtain ⟨sorted, sort⟩ := exists_sort order rows
    obtain ⟨i, inside, rfl⟩ := List.mem_iff_getElem.mp (sort.perm.symm.subset member)
    have placed := sort.position order inside
    omega
  have later : q + 1 ≤ (upto le rows x - 1) / size := by
    have weak : q ≤ (upto le rows x - 1) / size := Nat.div_le_div_right (by omega)
    omega
  have boundary : (q + 1) * size ≤ upto le rows x - 1 :=
    (Nat.le_div_iff_mul_le positive).mp later
  have line : (q + 1) * size = q * size + size := Nat.add_one_mul q size
  have next : (q + 1 + 1) * size = (q + 1) * size + size := Nat.add_one_mul (q + 1) size
  have base : size * (before le rows x / size) = q * size := Nat.mul_comm _ _
  obtain ⟨early, sortEarly, insideEarly, atEarly⟩ :=
    exists_sort_at order member (i := (q + 1) * size - 1) (by omega) (by omega)
  obtain ⟨late, sortLate, insideLate, atLate⟩ :=
    exists_sort_at order member (i := (q + 1) * size) (by omega) (by omega)
  refine ⟨fun p => if p = q then early else late, ?_, ?_⟩
  · intro p
    dsimp only
    split
    · exact sortEarly
    · exact sortLate
  · intro perm
    have pages := length_le_pages rows positive
    have count : q + 1 < (rows.length + size - 1) / size := by
      have room := sortLate.perm.length_eq ▸ insideLate
      exact Nat.lt_of_mul_lt_mul_right (Nat.lt_of_lt_of_le room pages)
    have first : x ∈ page size q early :=
      mem_page.mpr ⟨_, insideEarly, by omega, by omega, atEarly⟩
    have second : x ∈ page size (q + 1) late :=
      mem_page.mpr ⟨_, insideLate, Nat.le_refl _, by omega, atLate⟩
    have apart := (List.nodup_flatten.mp (perm.nodup_iff.mpr distinct)).2
    rw [List.pairwise_map, List.pairwise_iff_getElem] at apart
    have disjoint := apart q (q + 1) (by simp; omega) (by simpa using count) (by omega)
    simp only [List.getElem_range, if_true, if_neg (Nat.succ_ne_self q)] at disjoint
    exact disjoint first second

end Pages
