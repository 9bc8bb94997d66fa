import Mathlib.Data.List.Forall2
import Mathlib.Data.List.Nodup
import Mathlib.Data.Prod.Basic
import Mathlib.Algebra.BigOperators.Group.List.Basic
import Mathlib.Algebra.GroupWithZero.Nat

/-!
# Facts about lists

Membership through a pointwise relation, a run of elements with a property in front of another
element, the best value of a list, and lists some of whose elements are overwritten
in place: `putAll l cells` writes every cell's value at its index, as a program does that
holds pointers into a container. When the cells have distinct indices and stood for the
elements at those indices before, the list is a permutation of the old values and the rest,
and becomes the same permutation of the new values and the rest (`putAll_perm`).
-/

namespace ListFacts

variable {α β : Type*}

theorem forall₂_mem_right {R : α → β → Prop} {l : List α} {l' : List β}
    (related : List.Forall₂ R l l') {b : β} (member : b ∈ l') : ∃ a ∈ l, R a b := by
  induction related with
  | nil => simp at member
  | @cons a b' l l' head _ ih =>
    rcases List.mem_cons.mp member with rfl | member
    · exact ⟨a, by simp, head⟩
    · obtain ⟨a', inList, rel⟩ := ih member
      exact ⟨a', by simp [inList], rel⟩

theorem forall₂_mem_left {R : α → β → Prop} {l : List α} {l' : List β}
    (related : List.Forall₂ R l l') {a : α} (member : a ∈ l) : ∃ b ∈ l', R a b := by
  induction related with
  | nil => simp at member
  | @cons a' b l l' head _ ih =>
    rcases List.mem_cons.mp member with rfl | member
    · exact ⟨b, by simp, head⟩
    · obtain ⟨b', inList, rel⟩ := ih member
      exact ⟨b', by simp [inList], rel⟩

/-- A run of elements with a property is what `takeWhile` takes when none follows. -/
theorem takeWhile_run {p : α → Bool} {run : List α} (rest : List α) (all : ∀ a ∈ run, p a = true)
    (stops : ∀ a ∈ rest.head?, p a = false) :
    (run ++ rest).takeWhile p = run ∧ (run ++ rest).dropWhile p = rest := by
  rw [List.takeWhile_append_of_pos all, List.dropWhile_append_of_pos all]
  cases rest with
  | nil => exact ⟨List.append_nil _, rfl⟩
  | cons a rest =>
    have stop : ¬ p a = true := by simp [stops a rfl]
    rw [List.takeWhile_cons_of_neg stop, List.dropWhile_cons_of_neg stop, List.append_nil]
    exact ⟨rfl, rfl⟩

/-- A list is cut at its first element with a property. -/
theorem takeWhile_first {p : α → Bool} {l : List α} (some' : l.any p = true) :
    ∃ a after, p a = true ∧ l = l.takeWhile (fun a => !p a) ++ a :: after := by
  induction l with
  | nil => cases some'
  | cons b l ih =>
    cases is : p b with
    | true => exact ⟨b, l, is, by simp [is]⟩
    | false =>
      obtain ⟨a, after, holds, cut⟩ := ih (by simpa [is] using some')
      refine ⟨a, after, holds, ?_⟩
      rw [List.takeWhile_cons_of_pos (by simp [is]), List.cons_append, ← cut]

theorem forall₂_trans {R : α → α → Prop} {l₁ l₂ l₃ : List α} (first : List.Forall₂ R l₁ l₂)
    (second : List.Forall₂ R l₂ l₃) (trans : ∀ {a b c}, R a b → R b c → R a c) :
    List.Forall₂ R l₁ l₃ := by
  induction first generalizing l₃ with
  | nil => simpa using second
  | cons head _ ih =>
    cases second with
    | cons head' tail' => exact .cons (trans head head') (ih tail')

theorem forall₂_map_eq {γ : Type*} {R : α → β → Prop} {f : α → γ} {g : β → γ}
    (same : ∀ a b, R a b → f a = g b) {l : List α} {l' : List β}
    (related : List.Forall₂ R l l') : l.map f = l'.map g := by
  induction related with
  | nil => rfl
  | cons head _ ih => simp [same _ _ head, ih]

/-- How many elements have a property, as a sum. -/
theorem sum_indicator (p : α → Bool) (l : List α) :
    (l.map (fun a => if p a then 1 else 0)).sum = l.countP p := by
  induction l with
  | nil => rfl
  | cons a l ih => rw [List.map_cons, List.sum_cons, ih, List.countP_cons, Nat.add_comm]

/-- A fold that keeps the better of two values ends with one of them, and none is better. -/
theorem foldl_best {r : β → β → Prop} [DecidableRel r] (asymm : ∀ a b, r a b → ¬ r b a)
    (negTrans : ∀ a b c, ¬ r a b → ¬ r b c → ¬ r a c) (f : α → β) (l : List α) (first : β) :
    let best := l.foldl (fun m x => if r m (f x) then f x else m) first
    ¬ r best first ∧ (∀ x ∈ l, ¬ r best (f x)) ∧ (best = first ∨ ∃ x ∈ l, best = f x) := by
  induction l generalizing first with
  | nil => exact ⟨fun self => asymm _ _ self self, by simp, Or.inl rfl⟩
  | cons x l ih =>
    dsimp only [List.foldl_cons]
    by_cases better : r first (f x)
    · rw [if_pos better]
      obtain ⟨start, rest, found⟩ := ih (f x)
      refine ⟨negTrans _ _ _ start (asymm _ _ better), List.forall_mem_cons.mpr ⟨start, rest⟩,
        Or.inr ?_⟩
      rcases found with same | ⟨y, member, same⟩
      · exact ⟨x, List.mem_cons_self, same⟩
      · exact ⟨y, List.mem_cons_of_mem _ member, same⟩
    · rw [if_neg better]
      obtain ⟨start, rest, found⟩ := ih first
      refine ⟨start, List.forall_mem_cons.mpr ⟨negTrans _ _ _ start better, rest⟩, ?_⟩
      rcases found with same | ⟨y, member, same⟩
      · exact Or.inl same
      · exact Or.inr ⟨y, List.mem_cons_of_mem _ member, same⟩

/-- Write every cell's value at its index. -/
def putAll (l : List α) (cells : List (Nat × α)) : List α :=
  cells.foldl (fun l cell => l.set cell.1 cell.2) l

@[simp] theorem putAll_nil (l : List α) : putAll l [] = l := rfl

theorem putAll_cons (l : List α) (cell : Nat × α) (cells : List (Nat × α)) :
    putAll l (cell :: cells) = putAll (l.set cell.1 cell.2) cells := rfl

@[simp] theorem length_putAll (l : List α) (cells : List (Nat × α)) :
    (putAll l cells).length = l.length := by
  induction cells generalizing l with
  | nil => rfl
  | cons cell cells ih => simp [putAll_cons, ih]

theorem getElem?_putAll_of_notMem {cells : List (Nat × α)} {i : Nat}
    (missing : i ∉ cells.map Prod.fst) (l : List α) : (putAll l cells)[i]? = l[i]? := by
  induction cells generalizing l with
  | nil => rfl
  | cons cell cells ih =>
    simp only [List.map_cons, List.mem_cons, not_or] at missing
    rw [putAll_cons, ih missing.2, List.getElem?_set_ne (Ne.symm missing.1)]

theorem getElem?_putAll_of_mem {cells : List (Nat × α)} (distinct : (cells.map Prod.fst).Nodup)
    {cell : Nat × α} (member : cell ∈ cells) {l : List α} (bound : cell.1 < l.length) :
    (putAll l cells)[cell.1]? = some cell.2 := by
  induction cells generalizing l with
  | nil => simp at member
  | cons head cells ih =>
    obtain ⟨fresh, distinct'⟩ := List.nodup_cons.mp distinct
    rw [putAll_cons]
    rcases List.mem_cons.mp member with rfl | member
    · rw [getElem?_putAll_of_notMem fresh, List.getElem?_set_self bound]
    · exact ih distinct' member (by simpa using bound)

/-- Cells that hold what is already there change nothing. -/
theorem putAll_of_stand {l : List α} {cells : List (Nat × α)}
    (stand : ∀ cell ∈ cells, l[cell.1]? = some cell.2) : putAll l cells = l := by
  induction cells with
  | nil => rfl
  | cons cell cells ih =>
    obtain ⟨bound, here⟩ := List.getElem?_eq_some_iff.mp (stand cell (by simp))
    rw [putAll_cons, ← here, List.set_getElem_self]
    exact ih fun cell' member => stand cell' (by simp [member])

/-- The elements that no cell overwrites. -/
def untouched (l : List α) (indices : List Nat) : List α :=
  (l.zipIdx.filter (fun entry => entry.2 ∉ indices)).map Prod.fst

private theorem zipIdx_filter_perm (l : List α) {cells : List (Nat × α)}
    (distinct : (cells.map Prod.fst).Nodup)
    (stand : ∀ cell ∈ cells, l[cell.1]? = some cell.2) :
    (l.zipIdx.filter (fun entry => entry.2 ∈ cells.map Prod.fst)).Perm (cells.map Prod.swap) := by
  have nodupIdx : (l.zipIdx.map Prod.snd).Nodup := by
    rw [List.zipIdx_map_snd]
    exact List.nodup_range'
  have distinctCells : cells.Nodup := List.Nodup.of_map Prod.fst distinct
  refine (List.perm_ext_iff_of_nodup
    ((List.Nodup.of_map Prod.snd nodupIdx).sublist List.filter_sublist)
    (distinctCells.map Prod.swap_injective)).mpr ?_
  rintro ⟨x, i⟩
  simp only [List.mem_filter, List.mem_zipIdx_iff_getElem?, decide_eq_true_eq, List.mem_map]
  constructor
  · rintro ⟨at_i, ⟨⟨j, y⟩, member, rfl⟩⟩
    have := stand _ member
    simp only [at_i, Option.some.injEq] at this
    exact ⟨(j, y), member, by simp [this]⟩
  · rintro ⟨⟨j, y⟩, member, swapped⟩
    obtain ⟨rfl, rfl⟩ := Prod.mk.inj swapped
    exact ⟨stand _ member, ⟨_, member, rfl⟩⟩

/-- A list with distinct cells standing for some of its elements is those elements and the
untouched ones. -/
theorem perm_cells (l : List α) {cells : List (Nat × α)} (distinct : (cells.map Prod.fst).Nodup)
    (stand : ∀ cell ∈ cells, l[cell.1]? = some cell.2) :
    l.Perm (cells.map Prod.snd ++ untouched l (cells.map Prod.fst)) := by
  have split := List.filter_append_perm (fun entry => entry.2 ∈ cells.map Prod.fst) l.zipIdx
  have whole := (split.symm.map Prod.fst)
  rw [List.zipIdx_map_fst, List.map_append] at whole
  refine whole.trans (List.Perm.append ?_ ?_)
  · have := (zipIdx_filter_perm l distinct stand).map Prod.fst
    simpa [List.map_map, Function.comp_def] using this
  · simp [untouched]

theorem untouched_putAll (l : List α) (cells : List (Nat × α)) :
    untouched (putAll l cells) (cells.map Prod.fst) = untouched l (cells.map Prod.fst) := by
  have pointwise : ∀ i, i ∉ cells.map Prod.fst → (putAll l cells)[i]? = l[i]? :=
    fun i missing => getElem?_putAll_of_notMem missing l
  unfold untouched
  have same : ∀ (k l' : List α) (n : Nat), k.length = l'.length →
      (∀ i, i + n ∉ cells.map Prod.fst → k[i]? = l'[i]?) →
      ((k.zipIdx n).filter (fun entry => entry.2 ∉ cells.map Prod.fst)).map Prod.fst =
        ((l'.zipIdx n).filter (fun entry => entry.2 ∉ cells.map Prod.fst)).map Prod.fst := by
    intro k
    induction k with
    | nil =>
      intro l' n lengths _
      obtain rfl := List.length_eq_zero_iff.mp lengths.symm
      rfl
    | cons x k ih =>
      intro l' n lengths agree
      cases l' with
      | nil => simp at lengths
      | cons y l' =>
        have tail := ih l' (n + 1) (by simpa using lengths) (fun i missing => by
          simpa using agree (i + 1) (by rwa [Nat.add_right_comm, Nat.add_assoc]))
        by_cases missing : n ∉ cells.map Prod.fst
        · have head : x = y := by simpa using agree 0 (by simpa using missing)
          simp only [List.zipIdx_cons, List.filter_cons, missing, not_false_eq_true, decide_true,
            if_true, List.map_cons, head, tail]
        · simp only [List.zipIdx_cons, List.filter_cons, missing, decide_false, Bool.false_eq_true,
            if_false, tail]
  exact same _ _ 0 (length_putAll l cells) (fun i missing => pointwise i (by simpa using missing))

/-- Writing distinct cells replaces the elements they stood for and keeps the others. -/
theorem putAll_perm (l : List α) {cells : List (Nat × α)} (distinct : (cells.map Prod.fst).Nodup)
    (bounds : ∀ cell ∈ cells, cell.1 < l.length) :
    (putAll l cells).Perm (cells.map Prod.snd ++ untouched l (cells.map Prod.fst)) := by
  have := perm_cells (putAll l cells) distinct
    (fun cell member => getElem?_putAll_of_mem distinct member (bounds cell member))
  rwa [untouched_putAll] at this

/-- Cells that are related to the elements they stood for make related lists. -/
theorem forall₂_putAll {R : α → α → Prop} (refl : ∀ a, R a a) (l : List α)
    {cells : List (Nat × α)} (distinct : (cells.map Prod.fst).Nodup)
    (stand : ∀ cell ∈ cells, ∃ a, l[cell.1]? = some a ∧ R a cell.2) :
    List.Forall₂ R l (putAll l cells) := by
  refine List.forall₂_iff_get.mpr ⟨(length_putAll l cells).symm, ?_⟩
  intro i bound bound'
  have old : l[i]? = some (l.get ⟨i, bound⟩) := by simp
  have new : (putAll l cells)[i]? = some ((putAll l cells).get ⟨i, bound'⟩) := by simp
  by_cases written : i ∈ cells.map Prod.fst
  · obtain ⟨cell, member, rfl⟩ := List.mem_map.mp written
    obtain ⟨a, at_i, related⟩ := stand cell member
    rw [getElem?_putAll_of_mem distinct member bound] at new
    rw [old] at at_i
    rw [← Option.some.inj new, Option.some.inj at_i]
    exact related
  · rw [getElem?_putAll_of_notMem written, old] at new
    rw [← Option.some.inj new]
    exact refl _

section Pairs

variable {l l' : List α} {x y : α}

/-- Two elements of a list stand one before the other. -/
theorem pair_of_mem (hx : x ∈ l) (hy : y ∈ l) (different : x ≠ y) :
    [x, y].Sublist l ∨ [y, x].Sublist l := by
  obtain ⟨before, after, rfl⟩ := List.append_of_mem hx
  rcases List.mem_append.mp hy with first | later
  · right
    exact (List.singleton_sublist.mpr first).append (List.singleton_sublist.mpr (by simp))
  · left
    have inAfter : y ∈ after := (List.mem_cons.mp later).resolve_left (Ne.symm different)
    exact ((List.singleton_sublist.mpr inAfter).cons_cons x).trans (List.sublist_append_right _ _)

/-- Without repetitions they stand so in one order only. -/
theorem not_pair_of_pair (distinct : l.Nodup) (order : [x, y].Sublist l) : ¬ [y, x].Sublist l := by
  induction l with
  | nil => cases order
  | cons a l ih =>
    obtain ⟨fresh, distinct'⟩ := List.nodup_cons.mp distinct
    intro reverse
    have tail : ∀ {u v : α}, [u, v].Sublist (a :: l) → [u, v].Sublist l ∨ u = a ∧ v ∈ l := by
      intro u v order
      cases order with
      | cons _ order => exact Or.inl order
      | cons_cons _ order => exact Or.inr ⟨rfl, List.singleton_sublist.mp order⟩
    rcases tail order with inner | ⟨rfl, inTail⟩ <;> rcases tail reverse with inner' | ⟨rfl, inTail'⟩
    · exact ih distinct' inner inner'
    · exact fresh (inner.subset (List.mem_cons_of_mem _ (List.mem_singleton_self _)))
    · exact fresh (inner'.subset (List.mem_cons_of_mem _ (List.mem_singleton_self _)))
    · exact fresh inTail

/-- A sublist without repetitions keeps the order of the elements it has. -/
theorem pair_of_sublist (distinct : l.Nodup) (within : l'.Sublist l) (hx : x ∈ l') (hy : y ∈ l')
    (order : [x, y].Sublist l) : [x, y].Sublist l' := by
  have different : x ≠ y := by
    rintro rfl
    exact not_pair_of_pair distinct order order
  apply (pair_of_mem hx hy different).resolve_right
  intro reverse
  exact not_pair_of_pair distinct order (reverse.trans within)

/-- A sublist is what a filter leaves when the filter holds of exactly its elements. -/
theorem eq_filter_of_sublist {holds : α → Bool} (distinct : l.Nodup) (within : l'.Sublist l)
    (exact' : ∀ x ∈ l, holds x ↔ x ∈ l') : l' = l.filter holds := by
  have kept : l'.filter holds = l' :=
    List.filter_eq_self.mpr fun x member => (exact' x (within.subset member)).mpr member
  have sub : l'.Sublist (l.filter holds) := kept ▸ within.filter holds
  refine sub.eq_of_length_le (List.Subperm.length_le ?_)
  apply List.subperm_of_subset (List.Nodup.filter _ distinct)
  intro x member
  obtain ⟨inList, met⟩ := List.mem_filter.mp member
  exact (exact' x inList).mp met

end Pairs

/-- Lists that agree on the elements of every key, up to order, agree up to order. -/
theorem map_perm_of_filters {κ γ : Type*} [DecidableEq κ] {f : α → γ} (key : γ → κ) {l l' : List α}
    (same : ∀ k, ((l'.filter fun x => key (f x) = k).map f).Perm
      ((l.filter fun x => key (f x) = k).map f)) : (l'.map f).Perm (l.map f) := by
  classical
  have filtered : ∀ (l : List α) (y : γ),
      (l.map f).count y = ((l.filter fun x => key (f x) = key y).map f).count y := by
    intro l y
    rw [List.count_eq_countP, List.count_eq_countP, List.countP_map, List.countP_map, List.countP_filter]
    apply List.countP_congr
    intro x _
    simp only [Function.comp_apply, beq_iff_eq, Bool.and_eq_true, decide_eq_true_eq]
    exact ⟨fun is => ⟨is, congrArg key is⟩, And.left⟩
  apply List.perm_iff_count.mpr
  intro y
  rw [filtered l', filtered l]
  exact (same (key y)).count_eq y

/-- Of two elements of a list one comes before the other. -/
theorem pair_sublist {l : List α} {a b : α} (different : a ≠ b) (inList : a ∈ l) (inList' : b ∈ l) :
    [a, b].Sublist l ∨ [b, a].Sublist l := by
  induction l with
  | nil => cases inList
  | cons c l ih =>
    rcases List.mem_cons.mp inList with rfl | later <;> rcases List.mem_cons.mp inList' with rfl | later'
    · exact absurd rfl different
    · exact Or.inl (List.Sublist.cons_cons a (List.singleton_sublist.mpr later'))
    · exact Or.inr (List.Sublist.cons_cons b (List.singleton_sublist.mpr later))
    · exact (ih later later').imp (List.Sublist.cons c) (List.Sublist.cons c)

end ListFacts
