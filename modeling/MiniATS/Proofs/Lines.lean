import MiniATS.Cxx.Str
import MiniATS.Misc.Segments

/-!
# What `std::getline` reads

`getlines` on text that is put together from delimited pieces, and what the fields of a text
say about it.
-/

namespace MiniATS

namespace Str

variable {delim : UInt8}

@[simp] theorem getlines_nil (delim : UInt8) : getlines delim [] = [] := by
  unfold getlines
  rw [List.splitOn_nil]
  rfl

/-- The delimiter after the first piece ends its fields. -/
theorem getlines_append_cons (delim : UInt8) (piece rest : Str) :
    getlines delim (piece ++ delim :: rest) = piece.splitOn delim ++ getlines delim rest := by
  have nonempty := List.splitOn_ne_nil delim rest
  unfold getlines
  rw [List.splitOn_append_cons_self, List.getLast?_append_of_ne_nil _ nonempty,
    List.dropLast_append_of_ne_nil nonempty]
  split <;> rfl

theorem getlines_concat_delim (delim : UInt8) (text : Str) :
    getlines delim (text ++ [delim]) = text.splitOn delim := by
  rw [getlines_append_cons, getlines_nil, List.append_nil]

/-- A text that does not end in a delimiter does not end in an empty field. -/
theorem getlines_concat (before : Str) {x : UInt8} (item : x ≠ delim) :
    getlines delim (before ++ [x]) = (before ++ [x]).splitOn delim := by
  by_cases within : delim ∈ before
  · obtain ⟨tail, front, reversed, last⟩ :=
      List.eq_append_cons_of_mem (List.mem_reverse.mpr within)
    have cut : before ++ [x] = front.reverse ++ delim :: (tail.reverse ++ [x]) := by
      have straight := congrArg List.reverse reversed
      rw [List.reverse_reverse] at straight
      rw [straight]
      simp
    have clean : delim ∉ tail.reverse ++ [x] := by
      simp [last, item.symm]
    rw [cut, getlines_append_cons, List.splitOn_append_cons_self]
    unfold getlines
    rw [List.splitOn_eq_singleton clean, if_neg (by simp)]
  · have clean : delim ∉ before ++ [x] := by simp [within, item.symm]
    unfold getlines
    rw [List.splitOn_eq_singleton clean, if_neg (by simp)]

theorem splitOn_injective {text text' : Str} (same : text.splitOn delim = text'.splitOn delim) :
    text = text' := by
  have joined := congrArg (List.intercalate [delim]) same
  rwa [List.intercalate_splitOn, List.intercalate_splitOn] at joined

theorem infix_intercalate (separator : Str) {pieces : List Str} {piece : Str} (member : piece ∈ pieces) :
    piece <:+: separator.intercalate pieces := by
  induction pieces with
  | nil => exact absurd member List.not_mem_nil
  | cons first pieces ih =>
    by_cases last : pieces = []
    · subst last
      obtain rfl := List.mem_singleton.mp member
      rw [List.intercalate_singleton]
    · rw [List.intercalate_cons_of_ne_nil last]
      rcases List.mem_cons.mp member with rfl | later
      · rw [List.append_assoc]
        exact (List.prefix_append _ _).isInfix
      · exact (ih later).trans (List.suffix_append _ _).isInfix

theorem mem_splitOn_of_mem_getlines {text piece : Str} (member : piece ∈ getlines delim text) :
    piece ∈ text.splitOn delim := by
  unfold getlines at member
  split at member
  · exact List.mem_of_mem_dropLast member
  · exact member

/-- What `std::getline` reads is part of the text. -/
theorem infix_of_mem_getlines {text piece : Str} (member : piece ∈ getlines delim text) :
    piece <:+: text := by
  have within := infix_intercalate [delim] (mem_splitOn_of_mem_getlines member)
  rwa [List.intercalate_splitOn] at within

theorem free_of_mem_splitOn {text piece : Str} (member : piece ∈ text.splitOn delim) : delim ∉ piece := by
  induction length : text.length using Nat.strong_induction_on generalizing text with
  | _ n ih =>
    by_cases within : delim ∈ text
    · obtain ⟨field, rest, rfl, free⟩ := List.eq_append_cons_of_mem within
      rw [List.splitOn_append_cons_self_of_not_mem free] at member
      rcases List.mem_cons.mp member with rfl | later
      · exact free
      · refine ih rest.length ?_ later rfl
        rw [← length, List.length_append, List.length_cons]
        omega
    · rw [List.splitOn_eq_singleton within] at member
      rwa [List.mem_singleton.mp member]

/-- What `std::getline` reads is free of the delimiter. -/
theorem free_of_mem_getlines {text piece : Str} (member : piece ∈ getlines delim text) : delim ∉ piece :=
  free_of_mem_splitOn (mem_splitOn_of_mem_getlines member)

theorem getlines_eq_nil_iff {text : Str} : getlines delim text = [] ↔ text = [] := by
  refine ⟨fun none => ?_, fun empty => by rw [empty, getlines_nil]⟩
  rcases List.eq_nil_or_concat' text with empty | ⟨before, x, rfl⟩
  · exact empty
  by_cases item : x = delim
  · rw [item, getlines_concat_delim] at none
    exact absurd none (List.splitOn_ne_nil _ _)
  · rw [getlines_concat before item] at none
    exact absurd none (List.splitOn_ne_nil _ _)

/-- The fields of a text determine it but for a delimiter at its end. -/
theorem trails_of_getlines {text text' : Str} (same : getlines delim text = getlines delim text')
    (filled : text ≠ []) (filled' : text' ≠ []) : Segments.Trails delim text text' := by
  obtain ⟨before, x, rfl⟩ := (List.eq_nil_or_concat' text).resolve_left filled
  obtain ⟨before', y, rfl⟩ := (List.eq_nil_or_concat' text').resolve_left filled'
  have trail : ∀ {before before' : Str} {z : UInt8}, z ≠ delim → before = before' ++ [z] →
      Segments.Trails delim (before ++ [delim]) (before' ++ [z]) := by
    rintro before before' z item rfl
    rw [List.append_assoc]
    exact .more before' item
  by_cases first : x = delim <;> by_cases second : y = delim
  · rw [first, second, getlines_concat_delim, getlines_concat_delim] at same
    rw [first, second, splitOn_injective same]
    exact .same _
  · rw [first, getlines_concat_delim, getlines_concat before' second] at same
    rw [first]
    exact trail second (splitOn_injective same)
  · rw [second, getlines_concat_delim, getlines_concat before first] at same
    rw [second]
    exact (trail first (splitOn_injective same).symm).symm
  · rw [getlines_concat before first, getlines_concat before' second] at same
    rw [splitOn_injective same]
    exact .same _

end Str

end MiniATS
