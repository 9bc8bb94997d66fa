import Mathlib.Data.List.TakeWhile
import MiniATS.Cxx.Number
import MiniATS.Misc.ListFacts

/-!
# Numeric prefixes

`std::stod` and `std::stoi` look at nothing behind the numeral that their argument begins with: a text
is that numeral and what `stodEnd` or `stoiEnd` leaves, the numeral alone is converted in its entirety
and gives the same value (`strtod_numeral`, `stoi_numeral`).
-/

namespace MiniATS

open ListFacts

namespace Str

section Pieces

variable {s t : Str} {p : UInt8 → Bool}

/-- What is left begins with a character that was not passed. -/
theorem head_dropWhile (p : UInt8 → Bool) (s : Str) : ∀ c ∈ (s.dropWhile p).head?, p c = false := by
  intro c is
  have stops := List.head?_dropWhile_not p s
  rw [Option.mem_def.mp is] at stops
  exact stops

/-- The sign of a text is a sign of every text that goes on in the same way. -/
theorem takeSign_split (s : Str) : ∃ sign, s = sign ++ (takeSign s).2 ∧
    ∀ t, t.head? = (takeSign s).2.head? → takeSign (sign ++ t) = ((takeSign s).1, t) := by
  unfold takeSign
  split
  · exact ⟨[45], rfl, fun _ _ => rfl⟩
  · exact ⟨[43], rfl, fun _ _ => rfl⟩
  · rename_i minus plus
    refine ⟨[], rfl, fun t same => ?_⟩
    rw [List.nil_append]
    cases t with
    | nil => rfl
    | cons c t =>
      split
      · rename_i is
        obtain ⟨rfl, rfl⟩ := List.cons.inj is
        obtain ⟨rest, rfl⟩ : ∃ rest, s = 45 :: rest := List.head?_eq_some_iff.mp same.symm
        exact absurd rfl (minus rest)
      · rename_i is
        obtain ⟨rfl, rfl⟩ := List.cons.inj is
        obtain ⟨rest, rfl⟩ : ∃ rest, s = 43 :: rest := List.head?_eq_some_iff.mp same.symm
        exact absurd rfl (plus rest)
      · rfl

end Pieces

section Floats

variable {digit : UInt8 → Bool} {lower upper : UInt8}

/-- An exponent and what is left behind it. -/
theorem exponent_split (lower upper : UInt8) (s : Str) : ∃ mark, s = mark ++ exponentEnd lower upper s ∧
    takeExponent lower upper mark = takeExponent lower upper s ∧ exponentEnd lower upper mark = [] ∧
    ∀ c ∈ mark.head?, c = lower ∨ c = upper := by
  cases s with
  | nil => exact ⟨[], rfl, rfl, rfl, fun _ none' => nomatch none'⟩
  | cons c s =>
    by_cases isMark : c = lower ∨ c = upper
    · obtain ⟨sign, split, same⟩ := takeSign_split s
      by_cases empty : (takeSign s).2.takeWhile isDigit = []
      · refine ⟨[], ?_, ?_, rfl, fun _ none' => nomatch none'⟩
        · simp [exponentEnd, isMark, empty]
        · simp [takeExponent, isMark, empty, digitsValue]
      · have alone := same ((takeSign s).2.takeWhile isDigit) (by
          conv_rhs => rw [← List.takeWhile_append_dropWhile (p := isDigit) (l := (takeSign s).2)]
          rw [List.head?_append_of_ne_nil _ empty])
        have all : ∀ c ∈ (takeSign s).2.takeWhile isDigit, isDigit c = true := fun c member =>
          List.mem_takeWhile_imp member
        have run := takeWhile_run [] all (fun _ none' => nomatch none')
        rw [List.append_nil] at run
        refine ⟨c :: (sign ++ (takeSign s).2.takeWhile isDigit), ?_, ?_, ?_, ?_⟩
        · have rest : exponentEnd lower upper (c :: s) = (takeSign s).2.dropWhile isDigit := by
            simp [exponentEnd, isMark, empty]
          rw [rest, List.cons_append, List.append_assoc, List.takeWhile_append_dropWhile, ← split]
        · simp only [takeExponent, isMark, if_true, alone, run.1]
        · simp only [exponentEnd, isMark, if_true, alone, run.1, run.2]
          simp [empty]
        · intro d is
          obtain rfl := Option.some.inj is
          exact isMark
    · refine ⟨[], ?_, ?_, rfl, fun _ none' => nomatch none'⟩
      · simp [exponentEnd, isMark]
      · simp [takeExponent, isMark]

private theorem parseFloat_plain {base radix perDigit : Nat} {s : Str}
    (plain : ∀ t, s.dropWhile digit ≠ 46 :: t) : parseFloat base radix digit lower upper perDigit s =
      if (s.takeWhile digit).isEmpty then none
      else some (scale (digitsValue base (s.takeWhile digit)) radix
        (takeExponent lower upper (s.dropWhile digit) - perDigit * 0)) := by
  unfold parseFloat
  split
  rename_i fraction rest pair
  split at pair
  · exact absurd ‹_› (plain _)
  · obtain ⟨rfl, rfl⟩ := Prod.mk.inj pair
    simp

private theorem floatEnd_plain {s : Str} (plain : ∀ t, s.dropWhile digit ≠ 46 :: t) :
    floatEnd digit lower upper s =
      if (s.takeWhile digit).isEmpty then none else some (exponentEnd lower upper (s.dropWhile digit)) := by
  unfold floatEnd
  split
  rename_i fraction rest pair
  split at pair
  · exact absurd ‹_› (plain _)
  · obtain ⟨rfl, rfl⟩ := Prod.mk.inj pair
    simp

/-- The numeral that `parseFloat` reads and what is left behind it. -/
theorem parseFloat_split (base radix perDigit : Nat) (point : digit 46 = false)
    (notLower : digit lower = false) (notUpper : digit upper = false) (apart : lower ≠ 46)
    (apart' : upper ≠ 46) {s rest : Str} (left : floatEnd digit lower upper s = some rest) :
    ∃ numeral, s = numeral ++ rest ∧ numeral ≠ [] ∧
      parseFloat base radix digit lower upper perDigit numeral =
        parseFloat base radix digit lower upper perDigit s ∧
      floatEnd digit lower upper numeral = some [] := by
  have all : ∀ l : Str, ∀ c ∈ l.takeWhile digit, digit c = true := fun l c member =>
    List.mem_takeWhile_imp member
  have marks : ∀ {mark : Str}, (∀ c ∈ mark.head?, c = lower ∨ c = upper) →
      (∀ c ∈ mark.head?, digit c = false) ∧ ∀ t, mark ≠ 46 :: t := by
    intro mark isMark
    constructor
    · intro c is
      rcases isMark c is with rfl | rfl
      · exact notLower
      · exact notUpper
    · rintro t rfl
      rcases isMark 46 rfl with is | is
      · exact apart is.symm
      · exact apart' is.symm
  have whole := List.takeWhile_append_dropWhile (p := digit) (l := s)
  by_cases pointed : ∃ t, s.dropWhile digit = 46 :: t
  · obtain ⟨t, behind⟩ := pointed
    have fraction := List.takeWhile_append_dropWhile (p := digit) (l := t)
    obtain ⟨mark, split, value, ended, isMark⟩ := exponent_split lower upper (t.dropWhile digit)
    simp only [floatEnd, behind] at left
    split at left
    · cases left
    · rename_i filled
      obtain rfl := Option.some.inj left
      have inner := takeWhile_run mark (all t) (marks isMark).1
      have outer := takeWhile_run (46 :: (t.takeWhile digit ++ mark)) (all s) (by
        intro c is
        obtain rfl := Option.some.inj is
        exact point)
      refine ⟨s.takeWhile digit ++ 46 :: (t.takeWhile digit ++ mark), ?_, by simp, ?_, ?_⟩
      · rw [List.append_assoc, List.cons_append, List.append_assoc, ← split, fraction, ← behind, whole]
      · simp only [parseFloat, outer, inner, behind, value]
      · simp only [floatEnd, outer, inner, ended]
        rw [if_neg filled]
  · have plain : ∀ t, s.dropWhile digit ≠ 46 :: t := fun t is => pointed ⟨t, is⟩
    obtain ⟨mark, split, value, ended, isMark⟩ := exponent_split lower upper (s.dropWhile digit)
    have outer := takeWhile_run mark (all s) (marks isMark).1
    have plain' : ∀ t, (s.takeWhile digit ++ mark).dropWhile digit ≠ 46 :: t := by
      rw [outer.2]
      exact (marks isMark).2
    rw [floatEnd_plain plain] at left
    split at left
    · cases left
    · rename_i filled
      obtain rfl := Option.some.inj left
      refine ⟨s.takeWhile digit ++ mark, ?_, ?_, ?_, ?_⟩
      · rw [List.append_assoc, ← split, whole]
      · intro empty
        simp [(List.append_eq_nil_iff.mp empty).1] at filled
      · rw [parseFloat_plain plain, parseFloat_plain plain', outer.1, outer.2, value]
      · rw [floatEnd_plain plain', outer.1, outer.2, ended, if_neg filled]

end Floats

section Numerals

variable {s rest : Str}

theorem floatEnd_isSome (base radix perDigit : Nat) (digit : UInt8 → Bool) (lower upper : UInt8) (s : Str) :
    (floatEnd digit lower upper s).isSome =
      (parseFloat base radix digit lower upper perDigit s).isSome := by
  unfold floatEnd parseFloat
  dsimp only
  split
  · split <;> rfl
  · split <;> rfl

/-- There is something left exactly when there is a number. -/
theorem unsignedEnd_isSome (s : Str) : (unsignedEnd s).isSome = (parseUnsigned s).isSome := by
  have decimal := floatEnd_isSome 10 10 1 isDigit 101 69 s
  unfold unsignedEnd parseUnsigned
  split
  · rename_i x t
    have hex := floatEnd_isSome 16 2 4 isHexDigit 112 80 t
    split
    · rw [Option.isSome_or, Option.isSome_or, hex, decimal]
    · exact decimal
  · exact decimal

/-- Behind a `0` the mark of a hexadecimal number ends a decimal one. -/
private theorem floatEnd_mark {x : UInt8} (mark : x = 120 ∨ x = 88) (s : Str) :
    floatEnd isDigit 101 69 (48 :: x :: s) = some (x :: s) := by
  rcases mark with rfl | rfl <;> rfl

/-- A number that is not hexadecimal. -/
private theorem decimal_of_not_hex
    (decimal : ∀ x t, s = 48 :: x :: t → x = 120 ∨ x = 88 → floatEnd isHexDigit 112 80 t = none) :
    unsignedEnd s = floatEnd isDigit 101 69 s ∧
      parseUnsigned s = parseFloat 10 10 isDigit 101 69 1 s := by
  unfold unsignedEnd parseUnsigned
  split
  · rename_i x t
    by_cases mark : x = 120 ∨ x = 88
    · have none' := decimal x t rfl mark
      have none'' : parseFloat 16 2 isHexDigit 112 80 4 t = none := by
        have same := floatEnd_isSome 16 2 4 isHexDigit 112 80 t
        rw [none'] at same
        exact Option.not_isSome_iff_eq_none.mp (by rw [← same]; decide)
      rw [if_pos mark, if_pos mark, none', none'']
      exact ⟨rfl, rfl⟩
    · rw [if_neg mark, if_neg mark]
      exact ⟨rfl, rfl⟩
  · exact ⟨rfl, rfl⟩

/-- A number in base ten or, behind `0x`, in base sixteen. -/
theorem parseUnsigned_split (left : unsignedEnd s = some rest) : ∃ numeral, s = numeral ++ rest ∧
    numeral ≠ [] ∧ parseUnsigned numeral = parseUnsigned s ∧ unsignedEnd numeral = some [] := by
  by_cases hex : ∃ x t, s = 48 :: x :: t ∧ (x = 120 ∨ x = 88) ∧ (floatEnd isHexDigit 112 80 t).isSome
  · obtain ⟨x, t, rfl, mark, some'⟩ := hex
    obtain ⟨rest', ended⟩ := Option.isSome_iff_exists.mp some'
    have same : rest' = rest := by
      simpa [unsignedEnd, mark, ended] using left
    subst same
    obtain ⟨numeral, split, -, value, whole⟩ := parseFloat_split 16 2 4 (by decide) (by decide)
      (by decide) (by decide) (by decide) ended
    have number : (parseFloat 16 2 isHexDigit 112 80 4 t).isSome := by
      rw [← floatEnd_isSome 16 2 4 isHexDigit 112 80 t, ended]
      rfl
    obtain ⟨q, read⟩ := Option.isSome_iff_exists.mp number
    rw [read] at value
    refine ⟨48 :: x :: numeral, by rw [split]; rfl, by simp, ?_, ?_⟩
    · simp only [parseUnsigned, mark, if_true, value, read, Option.some_or]
    · simp only [unsignedEnd, mark, if_true, whole, Option.some_or]
  · have decimal := decimal_of_not_hex (s := s) fun x t is mark =>
      Option.not_isSome_iff_eq_none.mp fun some' => hex ⟨x, t, is, mark, some'⟩
    rw [decimal.1] at left
    obtain ⟨numeral, split, filled, value, whole⟩ := parseFloat_split 10 10 1 (by decide) (by decide)
      (by decide) (by decide) (by decide) left
    have decimal' := decimal_of_not_hex (s := numeral) fun x t is mark => by
      rw [is, floatEnd_mark mark] at whole
      cases whole
    refine ⟨numeral, split, filled, ?_, ?_⟩
    · rw [decimal.2, decimal'.2, value]
    · rw [decimal'.1, whole]

/-- A word at the beginning of a part is one at the beginning of the whole. -/
private theorem take_append_eq {n : Nat} {part after word : Str} (long : word.length = n)
    (is : (part.take n).map toUpperByte = word) : ((part ++ after).take n).map toUpperByte = word := by
  have enough : n ≤ part.length := by
    have := congrArg List.length is
    rw [List.length_map, List.length_take, long] at this
    omega
  rw [List.take_append_of_le_length enough, is]

/-- What stands behind `nan` in its brackets. -/
private theorem nan_split (s : Str) : ∃ brackets, s = brackets ++ nanEnd s ∧ nanEnd brackets = [] := by
  unfold nanEnd
  split
  · rename_i t
    split
    · rename_i after closed
      refine ⟨40 :: (t.takeWhile isNanChar ++ [41]), ?_, ?_⟩
      · rw [List.cons_append, List.append_assoc, List.singleton_append, ← closed,
          List.takeWhile_append_dropWhile]
      · have all : ∀ c ∈ t.takeWhile isNanChar, isNanChar c = true :=
          fun c member => List.mem_takeWhile_imp member
        have run := (takeWhile_run [41] all (fun c is => by
          obtain rfl := Option.some.inj is
          decide)).2
        simp only [run]
    · exact ⟨[], rfl, rfl⟩
  · exact ⟨[], rfl, rfl⟩

/-- The value of what stands behind the sign. -/
def unsignedValue (negative : Bool) (t : Str) : Option Numeral :=
  if (t.take 3).map toUpperByte = str "INF" then some (.infinity negative)
  else if (t.take 3).map toUpperByte = str "NAN" then some .nan
  else (parseUnsigned t).map (.finite negative)

/-- What is left behind it. -/
def unsignedValueEnd (t : Str) : Option Str :=
  if (t.take 3).map toUpperByte = str "INF" then some (infinityEnd t)
  else if (t.take 3).map toUpperByte = str "NAN" then some (nanEnd (t.drop 3))
  else unsignedEnd t

private theorem infinity_split (t : Str) (inf : (t.take 3).map toUpperByte = str "INF") :
    ∃ numeral, t = numeral ++ infinityEnd t ∧ numeral ≠ [] ∧
      (numeral.take 3).map toUpperByte = str "INF" ∧ infinityEnd numeral = [] := by
  have some' : ∀ {l : Str}, (l.take 3).map toUpperByte = str "INF" → l ≠ [] := by
    rintro l is rfl
    cases is
  by_cases long : (t.take 8).map toUpperByte = str "INFINITY"
  · have inf' : ((t.take 8).take 3).map toUpperByte = str "INF" := by
      rw [List.take_take]
      exact inf
    refine ⟨t.take 8, ?_, some' inf', inf', ?_⟩
    · rw [infinityEnd, if_pos long, List.take_append_drop]
    · rw [infinityEnd, List.take_take, Nat.min_self, if_pos long, List.drop_take, Nat.sub_self, List.take_zero]
  · have inf' : ((t.take 3).take 3).map toUpperByte = str "INF" := by
      rw [List.take_take]
      exact inf
    refine ⟨t.take 3, ?_, some' inf', inf', ?_⟩
    · rw [infinityEnd, if_neg long, List.take_append_drop]
    · rw [infinityEnd, if_neg, List.drop_take, Nat.sub_self, List.take_zero]
      rw [List.take_take, show min 8 3 = 3 from rfl, inf]
      decide

/-- The numeral behind the sign, and what is left. -/
theorem unsignedValue_split (negative : Bool) {t : Str} (left : unsignedValueEnd t = some rest) :
    ∃ numeral, t = numeral ++ rest ∧ numeral ≠ [] ∧
      unsignedValue negative numeral = unsignedValue negative t ∧ unsignedValueEnd numeral = some [] := by
  unfold unsignedValueEnd at left
  by_cases inf : (t.take 3).map toUpperByte = str "INF"
  · rw [if_pos inf] at left
    obtain rfl := Option.some.inj left
    obtain ⟨numeral, split, filled, inf', whole⟩ := infinity_split t inf
    refine ⟨numeral, split, filled, ?_, ?_⟩
    · rw [unsignedValue, unsignedValue, if_pos inf, if_pos inf']
    · rw [unsignedValueEnd, if_pos inf', whole]
  · rw [if_neg inf] at left
    by_cases nan : (t.take 3).map toUpperByte = str "NAN"
    · rw [if_pos nan] at left
      obtain rfl := Option.some.inj left
      obtain ⟨brackets, split, whole⟩ := nan_split (t.drop 3)
      have three : (t.take 3).length = 3 := by
        have := congrArg List.length nan
        rwa [List.length_map] at this
      have front : (t.take 3 ++ brackets).take 3 = t.take 3 := by
        rw [List.take_append_of_le_length three.ge, List.take_take, Nat.min_self]
      refine ⟨t.take 3 ++ brackets, ?_, ?_, ?_, ?_⟩
      · rw [List.append_assoc, ← split, List.take_append_drop]
      · intro empty
        rw [(List.append_eq_nil_iff.mp empty).1] at three
        cases three
      · rw [unsignedValue, unsignedValue, front, if_neg inf, if_pos nan, if_neg inf, if_pos nan]
      · rw [unsignedValueEnd, front, if_neg inf, if_pos nan, List.drop_append_of_le_length three.ge,
          List.drop_take, Nat.sub_self, List.take_zero, List.nil_append, whole]
    · rw [if_neg nan] at left
      obtain ⟨numeral, rfl, filled, value, whole⟩ := parseUnsigned_split left
      have inf' : ¬ (numeral.take 3).map toUpperByte = str "INF" := fun is => inf (take_append_eq rfl is)
      have nan' : ¬ (numeral.take 3).map toUpperByte = str "NAN" := fun is => nan (take_append_eq rfl is)
      refine ⟨numeral, rfl, filled, ?_, ?_⟩
      · rw [unsignedValue, unsignedValue, if_neg inf, if_neg nan, if_neg inf', if_neg nan', value]
      · rw [unsignedValueEnd, if_neg inf', if_neg nan', whole]

theorem strtod_eq (s : Str) : strtod s =
    unsignedValue (takeSign (s.dropWhile isSpace)).1 (takeSign (s.dropWhile isSpace)).2 := rfl

/-- There is nothing left exactly when there is no numeric prefix. -/
theorem stodEnd_isSome (s : Str) : (stodEnd s).isSome = (strtod s).isSome := by
  unfold stodEnd strtod
  dsimp only
  split
  · rfl
  · split
    · rfl
    · rw [Option.isSome_map, unsignedEnd_isSome]

/-- The spaces and the sign in front of a numeral. -/
private theorem front_split (s : Str) : ∃ front, s = front ++ (takeSign (s.dropWhile isSpace)).2 ∧
    ∀ numeral, numeral ≠ [] → numeral <+: (takeSign (s.dropWhile isSpace)).2 →
      takeSign ((front ++ numeral).dropWhile isSpace) = ((takeSign (s.dropWhile isSpace)).1, numeral) := by
  obtain ⟨sign, split, same⟩ := takeSign_split (s.dropWhile isSpace)
  refine ⟨s.takeWhile isSpace ++ sign, ?_, fun numeral filled ⟨after, whole⟩ => ?_⟩
  · rw [List.append_assoc, ← split, List.takeWhile_append_dropWhile]
  · have head : numeral.head? = (takeSign (s.dropWhile isSpace)).2.head? := by
      rw [← whole, List.head?_append_of_ne_nil _ filled]
    have stops : ∀ c ∈ (sign ++ numeral).head?, isSpace c = false := by
      intro c is
      apply head_dropWhile isSpace s
      rw [split]
      cases sign with
      | nil => rwa [List.nil_append, ← head]
      | cons d sign => exact is
    rw [List.append_assoc, (takeWhile_run _ (fun c member => List.mem_takeWhile_imp member) stops).2,
      same numeral head]

/-- `std::strtod` gives the value of the numeral in front of what it leaves. -/
theorem strtod_numeral (left : stodEnd s = some rest) : ∃ numeral, s = numeral ++ rest ∧
    IsNumeral numeral ∧ strtod numeral = strtod s := by
  obtain ⟨front, whole, same⟩ := front_split s
  obtain ⟨numeral, split, filled, value, ended⟩ := unsignedValue_split
    (takeSign (s.dropWhile isSpace)).1 left
  have read := same numeral filled ⟨rest, split.symm⟩
  refine ⟨front ++ numeral, ?_, ?_, ?_⟩
  · rw [List.append_assoc, ← split]
    exact whole
  · unfold IsNumeral
    rw [stodEnd, read]
    exact ended
  · rw [strtod_eq, strtod_eq, read, value]

/-- `std::stoi` gives the value of the numeral in front of what it leaves. -/
theorem stoi_numeral (left : stoiEnd s = some rest) : ∃ numeral, s = numeral ++ rest ∧
    IsInteger numeral ∧ stoi numeral = stoi s := by
  obtain ⟨front, whole, same⟩ := front_split s
  have run := List.takeWhile_append_dropWhile (p := isDigit) (l := (takeSign (s.dropWhile isSpace)).2)
  unfold stoiEnd at left
  dsimp only at left
  split at left
  · cases left
  · rename_i filled
    obtain rfl := Option.some.inj left
    have read := same _ (by simpa using filled) ⟨_, run⟩
    have all : ∀ c ∈ (takeSign (s.dropWhile isSpace)).2.takeWhile isDigit, isDigit c = true :=
      fun c member => List.mem_takeWhile_imp member
    have digits := takeWhile_run [] all (fun _ none' => nomatch none')
    rw [List.append_nil] at digits
    refine ⟨front ++ (takeSign (s.dropWhile isSpace)).2.takeWhile isDigit, ?_, ?_, ?_⟩
    · rw [List.append_assoc, run]
      exact whole
    · unfold IsInteger stoiEnd
      dsimp only
      rw [read, digits.1, digits.2, if_neg filled]
    · unfold stoi
      dsimp only
      rw [read, digits.1]

/-- `std::stoi` throws when there is no numeric prefix, and also when the number is too large. -/
theorem stoiEnd_isSome {n : Int} (read : stoi s = some n) : (stoiEnd s).isSome := by
  unfold stoiEnd
  dsimp only
  split
  · rename_i empty
    unfold stoi at read
    dsimp only at read
    rw [if_pos (Or.inl empty)] at read
    cases read
  · rfl

end Numerals

end Str

end MiniATS
