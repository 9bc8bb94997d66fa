import Mathlib.Data.List.Sort

/-!
# Stable sorting

The stable sort of a list by a total preorder is the one sorted list in which the elements that are
tied with one another stand in the order they had (`SameTies.unique`). Insertion sort is stable, so
it commutes with taking elements out (`insertionSort_filter`), and one more element at the end of
the list goes behind all that are not greater (`insertionSort_concat`).
-/

universe u

namespace StableSort

variable {α : Type u} (r : α → α → Prop) [DecidableRel r]

/-- The elements tied with `c`, in their order. -/
def ties (c : α) (l : List α) : List α := l.filter (fun a => r a c ∧ r c a)

/-- Tied elements stand in the same order in both lists. -/
def SameTies (l l' : List α) : Prop := ∀ c, ties r c l = ties r c l'

theorem ties_append (c : α) (l l' : List α) : ties r c (l ++ l') = ties r c l ++ ties r c l' :=
  List.filter_append ..

theorem ties_filter (p : α → Bool) (c : α) (l : List α) : ties r c (l.filter p) = (ties r c l).filter p := by
  unfold ties
  rw [List.filter_filter, List.filter_filter]
  exact List.filter_congr fun a _ => Bool.and_comm _ _

variable {r}

theorem SameTies.filter {l l' : List α} (same : SameTies r l l') (p : α → Bool) :
    SameTies r (l.filter p) (l'.filter p) := fun c => by
  rw [ties_filter, ties_filter, same c]

theorem SameTies.mem [Std.Refl r] {l l' : List α} (same : SameTies r l l') {a : α} (member : a ∈ l) :
    a ∈ l' := by
  have tied : a ∈ ties r a l :=
    List.mem_filter.mpr ⟨member, decide_eq_true ⟨Std.Refl.refl a, Std.Refl.refl a⟩⟩
  rw [same a] at tied
  exact List.mem_of_mem_filter tied

theorem SameTies.symm {l l' : List α} (same : SameTies r l l') : SameTies r l' l := fun c => (same c).symm

variable [Std.Total r]

/-- Two sorted lists in which tied elements stand in the same order are one list. -/
theorem SameTies.unique {l l' : List α} (same : SameTies r l l') (sorted : l.Pairwise r)
    (sorted' : l'.Pairwise r) : l = l' := by
  have refl : Std.Refl r := ⟨fun a => (Std.Total.total a a).elim id id⟩
  induction l generalizing l' with
  | nil =>
    cases l' with
    | nil => rfl
    | cons b l' => cases same.symm.mem (List.mem_cons_self ..)
  | cons a l ih =>
    cases l' with
    | nil => cases same.mem (List.mem_cons_self ..)
    | cons b l' =>
      obtain ⟨least, tail⟩ := List.pairwise_cons.mp sorted
      obtain ⟨least', tail'⟩ := List.pairwise_cons.mp sorted'
      -- each head is among the elements of the other list, so the two are tied
      have below : r b a := by
        rcases List.mem_cons.mp (same.mem (List.mem_cons_self ..)) with here | later
        · exact here ▸ refl.refl a
        · exact least' a later
      have above : r a b := by
        rcases List.mem_cons.mp (same.symm.mem (List.mem_cons_self ..)) with here | later
        · exact here ▸ refl.refl b
        · exact least b later
      have heads := same a
      simp only [ties, List.filter_cons, below, above, refl.refl a, and_self, decide_true, if_true] at heads
      obtain ⟨rfl, -⟩ := List.cons.inj heads
      refine congrArg _ (ih (fun c => ?_) tail tail')
      have rest := same c
      unfold ties at rest ⊢
      by_cases tied : r a c ∧ r c a
      · simp only [List.filter_cons, tied, and_self, decide_true, if_true] at rest
        exact (List.cons.inj rest).2
      · simpa only [List.filter_cons, tied, decide_false, Bool.false_eq_true, if_false] using rest

variable [IsTrans α r]

omit [Std.Total r] in
theorem orderedInsert_ties (a : α) (l : List α) : SameTies r (l.orderedInsert r a) (a :: l) := by
  intro c
  induction l with
  | nil => rfl
  | cons b l ih =>
    by_cases before : r a b
    · rw [List.orderedInsert_cons_of_le r l before]
    · rw [List.orderedInsert_of_not_le r l before]
      -- the two that change places are not tied
      have apart : ¬ ((r a c ∧ r c a) ∧ r b c ∧ r c b) :=
        fun both => before (IsTrans.trans a c b both.1.1 both.2.2)
      unfold ties at ih ⊢
      rw [List.filter_cons, ih]
      by_cases first : r a c ∧ r c a
      · have second : ¬ (r b c ∧ r c b) := fun second => apart ⟨first, second⟩
        simp only [List.filter_cons, first, second, and_self, decide_true, decide_false, if_true,
          Bool.false_eq_true, if_false]
      · simp only [List.filter_cons, first, decide_false, Bool.false_eq_true, if_false]

omit [Std.Total r] in
/-- Insertion sort keeps tied elements in their order. -/
theorem insertionSort_ties (l : List α) : SameTies r (l.insertionSort r) l := by
  induction l with
  | nil => exact fun _ => rfl
  | cons a l ih =>
    intro c
    rw [List.insertionSort_cons, orderedInsert_ties]
    unfold ties
    rw [List.filter_cons, List.filter_cons]
    split
    · exact congrArg _ (ih c)
    · exact ih c

/-- A sorted list with the tied elements in their order is the stable sort. -/
theorem insertionSort_eq {l l' : List α} (same : SameTies r l' l) (sorted : l'.Pairwise r) :
    l.insertionSort r = l' :=
  SameTies.unique (fun c => (insertionSort_ties l c).trans (same c).symm)
    (List.pairwise_insertionSort r l) sorted

theorem insertionSort_filter (p : α → Bool) (l : List α) :
    (l.filter p).insertionSort r = (l.insertionSort r).filter p :=
  insertionSort_eq ((insertionSort_ties l).filter p)
    ((List.pairwise_insertionSort r l).sublist List.filter_sublist)

/-- An element that joins at the end goes behind all that are not greater. -/
theorem insertionSort_concat {l before after : List α} {a : α}
    (sorted : l.insertionSort r = before ++ after) (early : ∀ x ∈ before, r x a)
    (late : ∀ x ∈ after, ¬ r x a) : (l ++ [a]).insertionSort r = before ++ a :: after := by
  have pairs := List.pairwise_insertionSort r l
  rw [sorted] at pairs
  obtain ⟨first, second, across⟩ := List.pairwise_append.mp pairs
  refine insertionSort_eq (fun c => ?_) (List.pairwise_append.mpr
    ⟨first, List.pairwise_cons.mpr ⟨fun x member => ?_, second⟩, fun x inBefore y member => ?_⟩)
  · have whole := insertionSort_ties (r := r) l c
    rw [sorted, ties_append] at whole
    rw [ties_append, ties_append, ← whole, List.append_assoc]
    congr 1
    -- nothing after the place is tied with the element
    by_cases tied : r a c ∧ r c a
    · have none' : ties r c after = [] := by
        apply List.filter_eq_nil_iff.mpr
        intro x member both
        apply late x member
        exact IsTrans.trans x c a (of_decide_eq_true both).1 tied.2
      simp only [ties] at none'
      simp only [ties, List.filter_cons, none', tied, and_self, decide_true, if_true, List.filter_nil,
        List.nil_append]
    · simp only [ties, List.filter_cons, tied, decide_false, Bool.false_eq_true, if_false,
        List.filter_nil, List.append_nil]
  · exact (Std.Total.total a x).resolve_right (late x member)
  · rcases List.mem_cons.mp member with rfl | inAfter
    · exact early x inBefore
    · exact across x inBefore y inAfter

end StableSort
