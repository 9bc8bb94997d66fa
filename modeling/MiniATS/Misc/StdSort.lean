import Mathlib.Data.List.Sort

/-!
# `std::sort`

C++ promises of `std::sort` that it permutes its input and that, when the comparator is a
strict weak order, no later element of the result precedes an earlier one. Equal elements
may come out in any order. `StdSort` carries these two facts with the function, so that a
statement about every `StdSort` is a statement about every outcome the standard allows.
-/

universe u

/-- A strict weak order: asymmetric, and incomparability is an equivalence. -/
def IsStrictWeak {α : Type u} (lt : α → α → Bool) : Prop :=
  (∀ a b, lt a b = true → lt b a = false) ∧
    (∀ a b c, lt b a = false → lt c b = false → lt c a = false)

/-- A function that does what C++ promises of `std::sort`. -/
structure StdSort (α : Type u) where
  sort : (α → α → Bool) → List α → List α
  perm : ∀ lt l, (sort lt l).Perm l
  sorted : ∀ lt l, IsStrictWeak lt → (sort lt l).Pairwise (fun a b => lt b a = false)

namespace StdSort

variable {α : Type u}

theorem mem_sort (std : StdSort α) (lt : α → α → Bool) {l : List α} {a : α} :
    a ∈ std.sort lt l ↔ a ∈ l :=
  (std.perm lt l).mem_iff

theorem sort_pairwise (std : StdSort α) {lt : α → α → Bool} (weak : IsStrictWeak lt)
    (l : List α) : (std.sort lt l).Pairwise (fun a b => lt b a = false) :=
  std.sorted lt l weak

/-- One outcome the standard allows: insertion sort, which keeps equal elements in order. -/
def insertion (α : Type u) : StdSort α where
  sort lt l := l.insertionSort (fun a b => lt b a = false)
  perm lt l := List.perm_insertionSort _ l
  sorted lt l weak := by
    have : Std.Total (fun a b : α => lt b a = false) := ⟨fun a b => by
      cases ab : lt a b with
      | false => exact Or.inr rfl
      | true => exact Or.inl (weak.1 a b ab)⟩
    have : IsTrans α (fun a b : α => lt b a = false) := ⟨weak.2⟩
    exact List.pairwise_insertionSort _ l

/-- Another one: the same on the reversed list, so that equal elements come out the other way
round. -/
def backwards (α : Type u) : StdSort α where
  sort lt l := (insertion α).sort lt l.reverse
  perm lt l := ((insertion α).perm lt l.reverse).trans (List.reverse_perm l)
  sorted lt l weak := (insertion α).sorted lt l.reverse weak

end StdSort

/-- Comparing by a key of a linear order is a strict weak order. -/
theorem isStrictWeak_key {α : Type u} {β : Type*} [LinearOrder β] (key : α → β) :
    IsStrictWeak (fun a b => decide (key a < key b)) := by
  constructor
  · intro a b before
    simp only [decide_eq_true_eq, decide_eq_false_iff_not, not_lt] at before ⊢
    exact le_of_lt before
  · intro a b c first second
    simp only [decide_eq_false_iff_not, not_lt] at first second ⊢
    exact le_trans first second
