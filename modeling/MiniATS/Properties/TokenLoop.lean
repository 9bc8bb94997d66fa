import MiniATS.Proofs.Tokens

/-!
# `extractTokens` and its reference

The loop of `extractTokens` works with positions that a `signed int` holds, `npos` among them as
`-1`. On every text that an `int` can count it ends, never asks `substr` for a position outside, and
what it returns is what `fields` says without positions.
-/

namespace MiniATS

namespace CSVHandler

open Str

variable {separator : UInt8} {tokens : List Str}

/-- The fields of tokens joined with the separator. -/
theorem fields_intercalate (proper : Proper separator tokens) :
    fields separator ([separator].intercalate tokens) = tokens := by
  by_cases some' : tokens = []
  · subst some'
    rfl
  · apply (fields_eq_iff some').mpr
    refine ⟨proper, 0, [], ?_, Or.inl rfl⟩
    rw [List.replicate_zero, List.nil_append, List.append_nil]

/-- On every text shorter than `2 ^ 31` the loop of `extractTokens` ends without an exception, and
the tokens are the fields of the text up to the first empty one, behind the leading separators. So no
token is empty or has a separator in it, and tokens joined with the separator are given back. -/
theorem extractTokens_reference (separator : UInt8) :
    (∀ s : Str, s.length < 2 ^ 31 →
      (∃ rounds, rounds ≤ s.length + 1 ∧ LoopEnds s separator rounds
        (toInt (findFirstNotOf s separator 0)) [] (.ok (fields separator s))) ∧
      extractTokens s separator = .ok (fields separator s) ∧
      ∀ token ∈ fields separator s, token ≠ [] ∧ separator ∉ token) ∧
    ∀ tokens : List Str, (∀ token ∈ tokens, token ≠ [] ∧ separator ∉ token) →
      ([separator].intercalate tokens).length < 2 ^ 31 →
      extractTokens ([separator].intercalate tokens) separator = .ok tokens := by
  constructor
  · intro s short
    have narrow : Narrow separator s := narrow_of_length short
    exact ⟨extractTokens_ends narrow, extractTokens_eq narrow, fields_proper separator s⟩
  · intro tokens proper short
    rw [extractTokens_eq (narrow_of_length short), fields_intercalate proper]

/-- Leading separators are passed over, and nothing behind an empty field is read; two tokens are
given back. -/
theorem extractTokens_reference_product :
    extractTokens (str "//BTC/USD//x") 47 = .ok [str "BTC", str "USD"] ∧
      extractTokens (str "BTC/USD") 47 = .ok [str "BTC", str "USD"] := by
  obtain ⟨split, joined⟩ := extractTokens_reference 47
  constructor
  · rw [(split (str "//BTC/USD//x") (by decide +kernel)).2.1]
    decide +kernel
  · exact joined [str "BTC", str "USD"] (by decide +kernel) (by decide +kernel)

end CSVHandler

end MiniATS
