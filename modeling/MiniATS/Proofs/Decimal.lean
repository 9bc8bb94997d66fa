import MiniATS.Cxx.Number
import MiniATS.Misc.ListFacts
import Mathlib.Algebra.Order.Field.Power
import Mathlib.Data.List.DropRight
import Mathlib.Tactic.FieldSimp
import Mathlib.Tactic.IntervalCases
import Mathlib.Tactic.Linarith
import Mathlib.Tactic.Ring

/-!
# What a printed number reads as

`operator<<` of a `double` and `std::stod`, on exact values: the text of a number reads as the
number rounded to six significant digits (`stodExact_ostreamExact`), and that is the number itself
exactly when it has no more of them.
-/

namespace MiniATS

namespace Str

section Digits

/-- A text made of digits. -/
def Digits (s : Str) : Prop := ∀ c ∈ s, isDigit c = true

theorem Digits.append {s t : Str} (left : Digits s) (right : Digits t) : Digits (s ++ t) :=
  fun c member => (List.mem_append.mp member).elim (left c) (right c)

theorem digitsValue_append (base : Nat) (s t : Str) :
    digitsValue base (s ++ t) = digitsValue base s * base ^ t.length + digitsValue base t := by
  have general : ∀ (t : Str) (n : Nat), t.foldl (fun n c => n * base + digitValue c) n =
      n * base ^ t.length + t.foldl (fun n c => n * base + digitValue c) 0 := by
    intro t
    induction t with
    | nil => intro n; simp
    | cons c t ih =>
      intro n
      rw [List.foldl_cons, List.foldl_cons, ih, ih (0 * base + digitValue c), List.length_cons,
        Nat.pow_succ]
      ring
  unfold digitsValue
  rw [List.foldl_append]
  exact general t _

private theorem digit_byte {d : Nat} (small : d < 10) :
    isDigit (Nat.digitChar d).toNat.toUInt8 = true ∧
      digitValue (Nat.digitChar d).toNat.toUInt8 = d := by
  interval_cases d <;> decide

theorem ofNat_eq_if (n : Nat) :
    ofNat n = if n < 10 then [(Nat.digitChar n).toNat.toUInt8]
      else ofNat (n / 10) ++ [(Nat.digitChar (n % 10)).toNat.toUInt8] := by
  unfold ofNat
  rw [Nat.toDigits_eq_if (by decide)]
  split
  · rfl
  · rw [List.map_append]
    rfl

theorem digits_ofNat (n : Nat) : Digits (ofNat n) := by
  induction n using Nat.strong_induction_on with
  | _ n ih =>
    rw [ofNat_eq_if]
    split
    · rename_i small
      intro c member
      obtain rfl := List.mem_singleton.mp member
      exact (digit_byte small).1
    · apply (ih (n / 10) (by omega)).append
      intro c member
      obtain rfl := List.mem_singleton.mp member
      exact (digit_byte (Nat.mod_lt n (by decide))).1

theorem digitsValue_ofNat (n : Nat) : digitsValue 10 (ofNat n) = n := by
  induction n using Nat.strong_induction_on with
  | _ n ih =>
    rw [ofNat_eq_if]
    split
    · rename_i small
      exact (Nat.zero_add _).trans (digit_byte small).2
    · have last : digitsValue 10 [(Nat.digitChar (n % 10)).toNat.toUInt8] = n % 10 :=
        (Nat.zero_add _).trans (digit_byte (Nat.mod_lt n (by decide))).2
      rw [digitsValue_append, ih (n / 10) (by omega), last, List.length_singleton]
      omega

theorem length_ofNat_le_iff {n k : Nat} (pos : 0 < k) : (ofNat n).length ≤ k ↔ n < 10 ^ k := by
  unfold ofNat
  rw [List.length_map]
  exact Nat.length_toDigits_le_iff (by decide) pos

theorem ofNat_ne_nil (n : Nat) : ofNat n ≠ [] := by
  simp [ofNat]

theorem digits_concat (n : Nat) : ∃ before x, ofNat n = before ++ [x] ∧ isDigit x = true := by
  obtain ⟨before, x, whole⟩ := (List.eq_nil_or_concat' (ofNat n)).resolve_left (ofNat_ne_nil n)
  refine ⟨before, x, whole, digits_ofNat n x ?_⟩
  rw [whole]
  simp

theorem ne_of_isDigit {x y : UInt8} (digit : isDigit x = true) (other : isDigit y = false) : x ≠ y := by
  rintro rfl
  rw [digit] at other
  cases other

theorem free_of_digits {s : Str} (digits : Digits s) {x : UInt8} (other : isDigit x = false) : x ∉ s :=
  fun member => ne_of_isDigit (digits x member) other rfl

/-- `std::stoi` reads a printed number back when it fits a signed `int`, and throws otherwise. -/
theorem stoi_ofNat (n : Nat) : stoi (ofNat n) = if n < 2 ^ 31 then some (n : Int) else none := by
  have digits := digits_ofNat n
  obtain ⟨c, rest, whole⟩ := List.exists_cons_of_ne_nil (ofNat_ne_nil n)
  have first : isDigit c = true := digits c (by rw [whole]; exact List.mem_cons_self)
  have spaces : (ofNat n).dropWhile isSpace = ofNat n := by
    rw [whole]
    apply List.dropWhile_cons_of_neg
    unfold isDigit at first
    unfold isSpace
    grind
  have sign : takeSign (ofNat n) = (false, ofNat n) := by
    rw [whole]
    unfold takeSign
    split
    · rename_i same
      obtain ⟨rfl, -⟩ := List.cons.inj same
      exact absurd first (by decide)
    · rename_i same
      obtain ⟨rfl, -⟩ := List.cons.inj same
      exact absurd first (by decide)
    · rfl
  have all : (ofNat n).takeWhile isDigit = ofNat n := List.takeWhile_eq_self_iff.mpr digits
  unfold stoi
  rw [spaces, sign]
  simp only [all, digitsValue_ofNat, Bool.false_eq_true, if_false]
  by_cases small : n < 2 ^ 31
  · rw [if_neg, if_pos small]
    simp only [List.isEmpty_iff, ofNat_ne_nil, false_or, not_or]
    omega
  · rw [if_pos, if_neg small]
    omega

/-- The digits of a positive number say between which powers of ten it lies. -/
theorem pow_le_of_length_ofNat {n : Nat} (pos : 0 < n) :
    10 ^ ((ofNat n).length - 1) ≤ n ∧ n < 10 ^ (ofNat n).length := by
  have long : 0 < (ofNat n).length := List.length_pos_iff.mpr (ofNat_ne_nil n)
  refine ⟨?_, (length_ofNat_le_iff long).mp (Nat.le_refl _)⟩
  rcases Nat.eq_zero_or_pos ((ofNat n).length - 1) with one | more
  · rw [one]
    exact pos
  · by_contra less
    have short := (length_ofNat_le_iff more).mpr (Nat.lt_of_not_le less)
    omega

private theorem digits_zeros (k : Nat) : Digits (List.replicate k 48) := by
  intro c member
  rw [List.eq_of_mem_replicate member]
  rfl

theorem digitsValue_zeros (k : Nat) : digitsValue 10 (List.replicate k 48) = 0 := by
  induction k with
  | zero => rfl
  | succ k ih =>
    rw [List.replicate_succ', digitsValue_append, ih]
    rfl

theorem digits_padded (width n : Nat) : Digits (padded width n) :=
  (digits_zeros _).append (digits_ofNat n)

theorem digitsValue_padded (width n : Nat) : digitsValue 10 (padded width n) = n := by
  unfold padded
  rw [digitsValue_append, digitsValue_zeros, digitsValue_ofNat, Nat.zero_mul, Nat.zero_add]

theorem length_padded {width n : Nat} (pos : 0 < width) (fits : n < 10 ^ width) :
    (padded width n).length = width := by
  have short := (length_ofNat_le_iff pos).mpr fits
  unfold padded
  rw [List.length_append, List.length_replicate]
  omega

end Digits

section Reading

/-- Digits with a point before the last ones, without it when there are none. -/
def pointed (whole fraction : Str) : Str :=
  if fraction = [] then whole else whole ++ 46 :: fraction

/-- What may follow the digits of a number: nothing or an exponent. -/
def Tail (tail : Str) : Prop := tail = [] ∨ ∃ rest, tail = 101 :: rest

theorem parseFloat_pointed {whole fraction tail : Str} (some' : whole ≠ []) (digits : Digits whole)
    (digits' : Digits fraction) (end' : Tail tail) :
    parseFloat 10 10 isDigit 101 69 1 (pointed whole fraction ++ tail) =
      some (scale (digitsValue 10 (whole ++ fraction)) 10
        (takeExponent 101 69 tail - fraction.length)) := by
  have stops : ∀ c ∈ tail.head?, isDigit c = false := by
    rcases end' with rfl | ⟨rest, rfl⟩
    · exact fun _ none => by cases none
    · intro c is
      obtain rfl := Option.some.inj is
      rfl
  have filled : whole.isEmpty = false := by simpa using some'
  unfold parseFloat pointed
  by_cases empty : fraction = []
  · rw [if_pos empty]
    obtain ⟨taken, left⟩ := ListFacts.takeWhile_run tail digits stops
    rw [taken, left]
    rcases end' with rfl | ⟨rest, rfl⟩
    · simp [filled, empty]
    · simp [filled, empty]
  · rw [if_neg empty, List.append_assoc, List.cons_append]
    obtain ⟨taken, left⟩ := ListFacts.takeWhile_run (46 :: (fraction ++ tail)) digits
      (fun c is => by obtain rfl := Option.some.inj is; rfl)
    obtain ⟨taken', left'⟩ := ListFacts.takeWhile_run tail digits' stops
    rw [taken, left]
    simp [taken', left', filled]

/-- A text that starts with a digit is read as a decimal number, without a sign. -/
private theorem stodExact_of_digit {c : UInt8} {s : Str} (digit : isDigit c = true)
    (second : ∀ x ∈ s.head?, x ≠ 120 ∧ x ≠ 88) {q : ℚ}
    (parsed : parseFloat 10 10 isDigit 101 69 1 (c :: s) = some q) :
    stodExact (c :: s) = some q ∧ stodExact (45 :: c :: s) = some (-q) := by
  have range : 48 ≤ c.toNat ∧ c.toNat ≤ 57 := by
    unfold isDigit at digit
    simpa [UInt8.le_iff_toNat_le] using digit
  have unsigned : parseUnsigned (c :: s) = some q := by
    unfold parseUnsigned
    split
    · rename_i x rest is
      obtain ⟨rfl, rfl⟩ := List.cons.inj is
      have neither := second x rfl
      rw [if_neg (by simp [neither])]
      exact parsed
    · exact parsed
  have noSpace : isSpace c = false := by
    unfold isSpace
    simp only [Bool.or_eq_false_iff, Bool.and_eq_false_iff, beq_eq_false_iff_ne, decide_eq_false_iff_not]
    refine ⟨fun is => ?_, Or.inr fun le => ?_⟩
    · rw [is] at range
      simp at range
    · rw [UInt8.le_iff_toNat_le] at le
      simp at le
      omega
  have noSign : takeSign (c :: s) = (false, c :: s) := by
    unfold takeSign
    split
    · rename_i is
      rw [(List.cons.inj is).1] at range
      simp at range
    · rename_i is
      rw [(List.cons.inj is).1] at range
      simp at range
    · rfl
  have upper : toUpperByte c = c := by
    unfold toUpperByte
    apply if_neg
    intro both
    have low := UInt8.le_iff_toNat_le.mp both.1
    simp at low
    omega
  have noWord : ∀ word : Str, (∀ x ∈ word.head?, isDigit x = false) → word ≠ [] →
      ((c :: s).take 3).map toUpperByte ≠ word := by
    rintro word letter filled rfl
    have wrong := letter (toUpperByte c) rfl
    rw [upper, digit] at wrong
    cases wrong
  have notInf := noWord (str "INF") (by decide +kernel) (by decide)
  have notNan := noWord (str "NAN") (by decide +kernel) (by decide)
  constructor
  · unfold stodExact strtod
    rw [List.dropWhile_cons_of_neg (by simp [noSpace]), noSign]
    dsimp only
    rw [if_neg notInf, if_neg notNan, unsigned]
    rfl
  · unfold stodExact strtod
    rw [List.dropWhile_cons_of_neg (by decide)]
    simp only [takeSign]
    rw [if_neg notInf, if_neg notNan, unsigned]
    rfl

theorem scale_eq (m base : Nat) (e : Int) : scale m base e = (m : ℚ) * (base : ℚ) ^ e := by
  unfold scale
  split
  · rename_i nonneg
    obtain ⟨k, rfl⟩ := Int.eq_ofNat_of_zero_le nonneg
    simp
  · rename_i negative
    obtain ⟨k, below⟩ := Int.eq_ofNat_of_zero_le (Int.neg_nonneg.mpr (Int.le_of_lt (Int.not_le.mp negative)))
    obtain rfl : e = -(k : Int) := by omega
    simp [div_eq_mul_inv]

/-- What digits, a fraction and an exponent are read as. -/
theorem stodExact_pointed {whole fraction tail : Str} (some' : whole ≠ []) (digits : Digits whole)
    (digits' : Digits fraction) (end' : Tail tail) :
    let q := (digitsValue 10 (whole ++ fraction) : ℚ) *
      10 ^ (takeExponent 101 69 tail - fraction.length)
    stodExact (pointed whole fraction ++ tail) = some q ∧
      stodExact (45 :: (pointed whole fraction ++ tail)) = some (-q) := by
  obtain ⟨c, rest, rfl⟩ := List.exists_cons_of_ne_nil some'
  have parsed := parseFloat_pointed some' digits digits' end'
  rw [scale_eq] at parsed
  have shape : ∃ after, pointed (c :: rest) fraction ++ tail = c :: (rest ++ after) ∧
      ∀ x ∈ after.head?, x = 46 ∨ x = 101 := by
    have ending : ∀ x ∈ tail.head?, x = 46 ∨ x = 101 := by
      rcases end' with rfl | ⟨others, rfl⟩
      · exact fun x none => by cases none
      · exact fun x is => Or.inr (Option.some.inj is).symm
    unfold pointed
    split
    · exact ⟨tail, rfl, ending⟩
    · exact ⟨46 :: fraction ++ tail, by simp, fun x is => Or.inl (Option.some.inj is).symm⟩
  obtain ⟨after, cut, marks⟩ := shape
  rw [cut] at parsed ⊢
  refine stodExact_of_digit (digits c List.mem_cons_self) (fun x is => ?_) (by exact_mod_cast parsed)
  have cases' : isDigit x = true ∨ x = 46 ∨ x = 101 := by
    cases rest with
    | nil => exact Or.inr (marks x is)
    | cons d rest =>
      obtain rfl := Option.some.inj is
      exact Or.inl (digits d (by simp))
  rcases cases' with digit | rfl | rfl
  · constructor
    · rintro rfl
      exact absurd digit (by decide)
    · rintro rfl
      exact absurd digit (by decide)
  · decide
  · decide

end Reading

section Trimming

private theorem rdropWhile_append_cons {s t : Str} {x : UInt8} {drop : UInt8 → Bool}
    (kept : drop x = false) : (s ++ x :: t).rdropWhile drop = s ++ x :: t.rdropWhile drop := by
  induction t using List.reverseRecOn with
  | nil => exact List.rdropWhile_concat_neg _ _ _ (by simp [kept])
  | append_singleton t y ih =>
    have cut : s ++ x :: (t ++ [y]) = (s ++ x :: t) ++ [y] := by simp
    rw [cut]
    by_cases drops : drop y = true
    · rw [List.rdropWhile_concat_pos _ _ _ drops, List.rdropWhile_concat_pos _ _ _ drops, ih]
    · rw [List.rdropWhile_concat_neg _ _ _ drops, List.rdropWhile_concat_neg _ _ _ drops, cut]

theorem Digits.no_point {s : Str} (digits : Digits s) : (46 : UInt8) ∉ s :=
  fun member => absurd (digits 46 member) (by decide)

theorem trimZeros_digits {s : Str} (digits : Digits s) : trimZeros s = s :=
  if_neg digits.no_point

theorem trimZeros_pointed (whole : Str) {fraction : Str} (digits : Digits fraction) :
    trimZeros (whole ++ 46 :: fraction) = pointed whole (fraction.rdropWhile (· == 48)) := by
  unfold trimZeros
  rw [if_pos (by simp)]
  have trimmed : ((whole ++ 46 :: fraction).reverse.dropWhile (· == 48)).reverse =
      whole ++ 46 :: fraction.rdropWhile (· == 48) := rdropWhile_append_cons (by decide)
  dsimp only
  rw [trimmed]
  unfold pointed
  rcases List.eq_nil_or_concat' (fraction.rdropWhile (· == 48)) with none | ⟨kept, d, some'⟩
  · rw [none, if_pos rfl, List.getLast?_concat, if_pos rfl, List.dropLast_concat]
  · have member : d ∈ fraction.rdropWhile (· == 48) := by simp [some']
    have digit : isDigit d = true := digits d ((List.rdropWhile_prefix _ _).subset member)
    have last : (whole ++ 46 :: (kept ++ [d])).getLast? = some d := by
      rw [← List.cons_append, ← List.append_assoc, List.getLast?_concat]
    rw [some', last, if_neg, if_neg (by simp)]
    intro point
    rw [Option.some.inj point] at digit
    exact absurd digit (by decide)

/-- Zeros at the end of a fraction do not count. -/
theorem digitsValue_trimmed (whole fraction : Str) :
    (digitsValue 10 (whole ++ fraction.rdropWhile (· == 48)) : ℚ) *
        10 ^ (-((fraction.rdropWhile (· == 48)).length : ℤ)) =
      digitsValue 10 (whole ++ fraction) * 10 ^ (-(fraction.length : ℤ)) := by
  have zeros : fraction.rtakeWhile (· == 48) =
      List.replicate (fraction.rtakeWhile (· == 48)).length 48 :=
    List.eq_replicate_of_mem fun c member => by simpa using List.mem_rtakeWhile_imp member
  have cut : fraction = fraction.rdropWhile (· == 48) ++
      List.replicate (fraction.rtakeWhile (· == 48)).length 48 := by
    rw [← zeros]
    exact List.rdropWhile_append_rtakeWhile.symm
  generalize fraction.rdropWhile (· == 48) = kept at cut
  generalize (fraction.rtakeWhile (· == 48)).length = k at cut
  rw [cut, ← List.append_assoc, digitsValue_append 10 (whole ++ kept), digitsValue_zeros,
    List.length_append, List.length_replicate]
  push_cast
  rw [add_zero, neg_add, zpow_add₀ (by norm_num), zpow_neg _ (k : ℤ)]
  field_simp
  simp

end Trimming

section Rounding

private theorem num_toNat {q : ℚ} (nonneg : 0 ≤ q) : (q.num.toNat : ℚ) = q * q.den := by
  have whole : ((q.num.toNat : Int) : ℚ) = q.num := by
    rw [Int.toNat_of_nonneg (Rat.num_nonneg.mpr nonneg)]
  rw [Rat.mul_den_eq_num]
  exact_mod_cast whole

private theorem le_iff_num {q : ℚ} (nonneg : 0 ≤ q) (n : Nat) :
    (n : ℚ) ≤ q ↔ n * q.den ≤ q.num.toNat := by
  have den : (0 : ℚ) < q.den := by exact_mod_cast q.den_pos
  rw [← mul_le_mul_iff_of_pos_right den, ← num_toNat nonneg]
  exact_mod_cast Iff.rfl

private theorem num_le_iff {q : ℚ} (nonneg : 0 ≤ q) (n : Nat) :
    q ≤ (n : ℚ) ↔ q.num.toNat ≤ n * q.den := by
  have den : (0 : ℚ) < q.den := by exact_mod_cast q.den_pos
  rw [← mul_le_mul_iff_of_pos_right den, ← num_toNat nonneg]
  exact_mod_cast Iff.rfl

theorem le_roundHalfEven {q : ℚ} (nonneg : 0 ≤ q) {n : Nat} (le : (n : ℚ) ≤ q) :
    n ≤ roundHalfEven q := by
  have floor := (Nat.le_div_iff_mul_le q.den_pos).mpr ((le_iff_num nonneg n).mp le)
  unfold roundHalfEven
  dsimp only
  split
  · omega
  · exact floor

theorem roundHalfEven_le {q : ℚ} (nonneg : 0 ≤ q) {n : Nat} (le : q ≤ n) :
    roundHalfEven q ≤ n := by
  have bound := (num_le_iff nonneg n).mp le
  have floor : q.num.toNat / q.den ≤ n := Nat.div_le_of_le_mul (by rw [Nat.mul_comm]; exact bound)
  unfold roundHalfEven
  dsimp only
  split
  · rename_i up
    rcases Nat.lt_or_eq_of_le floor with less | equal
    · exact less
    · have cut := Nat.div_add_mod q.num.toNat q.den
      rw [equal, Nat.mul_comm] at cut
      have den := q.den_pos
      omega
  · exact floor

theorem roundHalfEven_natCast (n : Nat) : roundHalfEven (n : ℚ) = n :=
  Nat.le_antisymm (roundHalfEven_le (Nat.cast_nonneg n) (le_refl (n : ℚ)))
    (le_roundHalfEven (Nat.cast_nonneg n) (le_refl (n : ℚ)))

/-- The decimal exponent of a positive number. -/
theorem exponent10_spec {q : ℚ} (pos : 0 < q) :
    (10 : ℚ) ^ exponent10 q ≤ q ∧ q < 10 ^ (exponent10 q + 1) := by
  have nonneg := le_of_lt pos
  have numPos : 0 < q.num.toNat := by
    have := Rat.num_pos.mpr pos
    omega
  unfold exponent10
  dsimp only
  split
  · rename_i large
    obtain ⟨low, high⟩ := pow_le_of_length_ofNat (n := q.num.toNat / q.den) large
    have long : 0 < (ofNat (q.num.toNat / q.den)).length := List.length_pos_iff.mpr (ofNat_ne_nil _)
    generalize (ofNat (q.num.toNat / q.den)).length = k at low high long
    obtain ⟨j, rfl⟩ : ∃ j, k = j + 1 := ⟨k - 1, by omega⟩
    have below := (le_iff_num nonneg (10 ^ j)).mpr ((Nat.le_div_iff_mul_le q.den_pos).mp low)
    have above : ¬((10 ^ (j + 1) : Nat) : ℚ) ≤ q := by
      rw [le_iff_num nonneg, ← Nat.le_div_iff_mul_le q.den_pos]
      exact Nat.not_le.mpr high
    refine ⟨?_, ?_⟩
    · have exponent : ((j + 1 : Nat) : Int) - 1 = (j : Int) := by omega
      rw [exponent, zpow_natCast]
      exact_mod_cast below
    · have exponent : ((j + 1 : Nat) : Int) - 1 + 1 = ((j + 1 : Nat) : Int) := by omega
      rw [exponent, zpow_natCast]
      exact_mod_cast lt_of_not_ge above
  · rename_i small
    have below : q.num.toNat < q.den := by
      by_contra large
      exact small ((Nat.one_le_div_iff q.den_pos).mpr (Nat.not_lt.mp large))
    have exact' := num_toNat nonneg
    have denPos : (0 : ℚ) < q.den := by exact_mod_cast q.den_pos
    generalize q.num.toNat = x at numPos below exact'
    generalize q.den = d at below exact' denPos
    -- the inverse, rounded up
    have low := Nat.mul_div_le (d + x - 1) x
    have high := Nat.lt_mul_div_succ (d + x - 1) numPos
    have two : 2 ≤ (d + x - 1) / x := (Nat.le_div_iff_mul_le numPos).mpr (by omega)
    generalize (d + x - 1) / x = inverse at low high two
    obtain ⟨m, rfl⟩ : ∃ m, inverse = m + 1 := ⟨inverse - 1, by omega⟩
    rw [if_neg (by omega), Nat.add_sub_cancel]
    obtain ⟨lowPow, highPow⟩ := pow_le_of_length_ofNat (n := m) (by omega)
    have long : 0 < (ofNat m).length := List.length_pos_iff.mpr (ofNat_ne_nil m)
    generalize (ofNat m).length = k at lowPow highPow long
    obtain ⟨j, rfl⟩ : ∃ j, k = j + 1 := ⟨k - 1, by omega⟩
    have atMost : d ≤ x * 10 ^ (j + 1) := by
      have step : x * (m + 1) ≤ x * 10 ^ (j + 1) := Nat.mul_le_mul_left x highPow
      rw [Nat.mul_add] at high
      omega
    have under : x * 10 ^ j < d := by
      have step : x * 10 ^ j ≤ x * m := Nat.mul_le_mul_left x (by simpa using lowPow)
      rw [Nat.mul_add] at low
      omega
    have atMost' : (d : ℚ) ≤ x * 10 ^ (j + 1) := by exact_mod_cast atMost
    have under' : (x : ℚ) * 10 ^ j < d := by exact_mod_cast under
    have tens : ∀ i : Nat, (0 : ℚ) < 10 ^ i := fun i => by positivity
    refine ⟨?_, ?_⟩
    · rw [zpow_neg, zpow_natCast, inv_le_iff_one_le_mul₀ (tens _)]
      refine le_of_mul_le_mul_right ?_ denPos
      rw [one_mul, mul_right_comm, ← exact']
      exact atMost'
    · have exponent : -((j + 1 : Nat) : Int) + 1 = -(j : Int) := by omega
      rw [exponent, zpow_neg, zpow_natCast, lt_inv_comm₀ pos (tens _), ← one_div,
        lt_div_iff₀ pos]
      refine lt_of_mul_lt_mul_right ?_ (le_of_lt denPos)
      rw [one_mul, mul_assoc, ← exact', mul_comm]
      exact under'

end Rounding

section Printing

/-- The bytes of a printed number. -/
def Printed (s : Str) : Prop := s ≠ [] ∧ ∀ c ∈ s, isDigit c = true ∨ c ∈ [43, 45, 46, 101]

private theorem printed_of_digits {s : Str} (filled : s ≠ []) (digits : Digits s) : Printed s :=
  ⟨filled, fun c member => Or.inl (digits c member)⟩

/-- A number with its text and that of its negation. -/
private structure PrintsAs (s : Str) (q : ℚ) : Prop where
  read : stodExact s = some q
  readNeg : stodExact (45 :: s) = some (-q)
  printed : Printed s

private theorem printsAs_pointed {whole : Str} (fraction tail : Str) (some' : whole ≠ [])
    (digits : Digits whole) (digits' : Digits fraction) (end' : Tail tail)
    (marks : ∀ c ∈ tail, isDigit c = true ∨ c ∈ [43, 45, 46, 101]) :
    PrintsAs (pointed whole (fraction.rdropWhile (· == 48)) ++ tail)
      (digitsValue 10 (whole ++ fraction) * 10 ^ (-(fraction.length : ℤ)) *
        10 ^ takeExponent 101 69 tail) := by
  have kept : Digits (fraction.rdropWhile (· == 48)) :=
    fun c member => digits' c ((List.rdropWhile_prefix _ _).subset member)
  obtain ⟨read, readNeg⟩ := stodExact_pointed some' digits kept end'
  have value : (digitsValue 10 (whole ++ fraction.rdropWhile (· == 48)) : ℚ) *
      10 ^ (takeExponent 101 69 tail - (fraction.rdropWhile (· == 48)).length) =
      digitsValue 10 (whole ++ fraction) * 10 ^ (-(fraction.length : ℤ)) *
        10 ^ takeExponent 101 69 tail := by
    rw [← digitsValue_trimmed, sub_eq_neg_add, zpow_add₀ (by norm_num), mul_assoc]
  rw [value] at read readNeg
  refine ⟨read, readNeg, ?_, fun c member => ?_⟩
  · unfold pointed
    split
    · simp [some']
    · simp
  · rcases List.mem_append.mp member with member | member
    · unfold pointed at member
      split at member
      · exact Or.inl (digits c member)
      · rcases List.mem_append.mp member with member | member
        · exact Or.inl (digits c member)
        · rcases List.mem_cons.mp member with rfl | member
          · exact Or.inr (by decide)
          · exact Or.inl (kept c member)
    · exact marks c member

private theorem takeExponent_padded (negative : Bool) (n : Nat) :
    takeExponent 101 69 (101 :: (if negative then 45 else 43) :: padded 2 n) =
      if negative then -(n : Int) else n := by
  have digits := (ListFacts.takeWhile_run [] (digits_padded 2 n) (fun _ none => by cases none)).1
  rw [List.append_nil] at digits
  cases negative with
  | false => simp [takeExponent, takeSign, digits, digitsValue_padded]
  | true => simp [takeExponent, takeSign, digits, digitsValue_padded]

/-- The text of six significant digits and an exponent. -/
private def sixDigits (mantissa : Nat) (e : Int) : Str :=
  if -4 ≤ e ∧ e < 6 then trimZeros (fixed (5 - e).toNat (scale mantissa 10 (e - 5)))
  else
    trimZeros (ofNat (mantissa / 10 ^ 5) ++ [46] ++ padded 5 (mantissa % 10 ^ 5)) ++ [101] ++
      (if e < 0 then [45] else [43]) ++ padded 2 e.natAbs

private theorem printsAs_sixDigits (mantissa : Nat) (e : Int) :
    PrintsAs (sixDigits mantissa e) (mantissa * 10 ^ (e - 5)) := by
  unfold sixDigits
  split
  · rename_i range
    obtain ⟨d, exponent⟩ : ∃ d : Nat, 5 - e = d := ⟨(5 - e).toNat, by omega⟩
    have scaled : scale mantissa 10 (e - 5) * ((10 ^ d : Nat) : ℚ) = (mantissa : ℚ) := by
      rw [scale_eq, show e - 5 = -(d : Int) by omega, zpow_neg, zpow_natCast]
      push_cast
      field_simp
    have rounded : fixed d (scale mantissa 10 (e - 5)) =
        if d = 0 then ofNat (mantissa / 10 ^ d)
        else ofNat (mantissa / 10 ^ d) ++ [46] ++ padded d (mantissa % 10 ^ d) := by
      unfold fixed
      rw [scaled, roundHalfEven_natCast]
    rw [exponent, Int.toNat_natCast, rounded, show e - 5 = -(d : Int) by omega]
    split
    · rename_i zero
      have whole := printsAs_pointed [] [] (ofNat_ne_nil (mantissa / 10 ^ d))
        (digits_ofNat _) (fun c member => absurd member List.not_mem_nil)
        (Or.inl rfl) (fun c member => absurd member List.not_mem_nil)
      rw [trimZeros_digits (digits_ofNat _)]
      simpa [pointed, takeExponent, digitsValue_ofNat, zero] using whole
    · rename_i positive
      have fraction := printsAs_pointed (padded d (mantissa % 10 ^ d)) []
        (ofNat_ne_nil (mantissa / 10 ^ d)) (digits_ofNat _) (digits_padded d _) (Or.inl rfl)
        (fun c member => absurd member List.not_mem_nil)
      have length := length_padded (Nat.pos_of_ne_zero positive)
        (Nat.mod_lt mantissa (Nat.pow_pos (n := d) (by decide : 0 < 10)))
      rw [List.append_nil, digitsValue_append, digitsValue_ofNat, digitsValue_padded, length,
        Nat.mul_comm, Nat.div_add_mod] at fraction
      rw [List.append_assoc, List.singleton_append, trimZeros_pointed _ (digits_padded _ _)]
      simpa [takeExponent] using fraction
  · have length : (padded 5 (mantissa % 10 ^ 5)).length = 5 :=
      length_padded (by decide) (Nat.mod_lt mantissa (by decide))
    have mark := takeExponent_padded (decide (e < 0)) e.natAbs
    have shape : trimZeros (ofNat (mantissa / 10 ^ 5) ++ [46] ++ padded 5 (mantissa % 10 ^ 5)) ++
        [101] ++ (if e < 0 then [45] else [43]) ++ padded 2 e.natAbs =
        pointed (ofNat (mantissa / 10 ^ 5)) ((padded 5 (mantissa % 10 ^ 5)).rdropWhile (· == 48)) ++
          101 :: (if decide (e < 0) then 45 else 43) :: padded 2 e.natAbs := by
      rw [List.append_assoc (ofNat _), List.singleton_append, trimZeros_pointed _ (digits_padded _ _)]
      by_cases negative : e < 0
      · simp [negative]
      · simp [negative]
    have printed := printsAs_pointed (padded 5 (mantissa % 10 ^ 5))
      (101 :: (if decide (e < 0) then 45 else 43) :: padded 2 e.natAbs)
      (ofNat_ne_nil (mantissa / 10 ^ 5)) (digits_ofNat _) (digits_padded 5 _) (Or.inr ⟨_, rfl⟩) (fun c member => ?_)
    · rw [shape]
      rw [mark, digitsValue_append, digitsValue_ofNat, digitsValue_padded, length,
        Nat.mul_comm, Nat.div_add_mod, mul_assoc, ← zpow_add₀ (by norm_num)] at printed
      have exponent : -((5 : Nat) : Int) + (if decide (e < 0) then -(e.natAbs : Int) else e.natAbs) =
          e - 5 := by
        by_cases negative : e < 0
        · rw [if_pos (decide_eq_true negative)]
          omega
        · rw [if_neg (by simpa using negative)]
          omega
      rw [exponent] at printed
      exact printed
    · rcases List.mem_cons.mp member with rfl | member
      · exact Or.inr (by decide)
      rcases List.mem_cons.mp member with rfl | member
      · exact Or.inr (by split <;> decide)
      · exact Or.inl (digits_padded _ _ c member)

/-- The number rounded to six significant digits, what `operator<<` prints of it. -/
def roundSix (q : ℚ) : ℚ :=
  if q = 0 then 0
  else if q < 0 then -(roundHalfEven (-q * 10 ^ (5 - exponent10 (-q))) * 10 ^ (exponent10 (-q) - 5))
  else roundHalfEven (q * 10 ^ (5 - exponent10 q)) * 10 ^ (exponent10 q - 5)

private theorem printsAs_positive (q : ℚ) :
    PrintsAs (ostreamPositive q)
      (roundHalfEven (q * 10 ^ (5 - exponent10 q)) * 10 ^ (exponent10 q - 5)) := by
  have shift : q * scale 1 10 (5 - exponent10 q) = q * 10 ^ (5 - exponent10 q) := by
    rw [scale_eq]
    push_cast
    rw [one_mul]
  unfold ostreamPositive
  dsimp only
  rw [shift]
  generalize roundHalfEven (q * 10 ^ (5 - exponent10 q)) = mantissa
  by_cases full : mantissa = 10 ^ 6
  · rw [if_pos full]
    -- one more digit than six: the next power of ten
    have prints := printsAs_sixDigits (10 ^ 5) (exponent10 q + 1)
    have same : ((10 ^ 5 : Nat) : ℚ) * 10 ^ (exponent10 q + 1 - 5) =
        (mantissa : ℚ) * 10 ^ (exponent10 q - 5) := by
      rw [full, show exponent10 q + 1 - 5 = (exponent10 q - 5) + 1 by ring,
        zpow_add_one₀ (by norm_num)]
      push_cast
      ring
    rw [same] at prints
    exact prints
  · rw [if_neg full]
    exact printsAs_sixDigits mantissa (exponent10 q)

theorem stodExact_ostreamExact (q : ℚ) : stodExact (ostreamExact q) = some (roundSix q) := by
  unfold ostreamExact roundSix
  split
  · decide +kernel
  split
  · exact (printsAs_positive (-q)).readNeg
  · exact (printsAs_positive q).read

theorem printed_ostreamExact (q : ℚ) : Printed (ostreamExact q) := by
  unfold ostreamExact
  split
  · exact printed_of_digits (by simp) fun c member => by rw [List.mem_singleton.mp member]; rfl
  split
  · refine ⟨by simp, fun c member => ?_⟩
    rcases List.mem_cons.mp member with rfl | member
    · exact Or.inr (by decide)
    · exact (printsAs_positive (-q)).printed.2 c member
  · exact (printsAs_positive q).printed

end Printing

section Significant

/-- A number with at most six significant decimal digits. -/
def SixDigits (q : ℚ) : Prop := ∃ (m : ℤ) (e : ℤ), |m| < 10 ^ 6 ∧ q = m * 10 ^ e

private theorem SixDigits.neg {q : ℚ} (six : SixDigits q) : SixDigits (-q) := by
  obtain ⟨m, e, few, rfl⟩ := six
  exact ⟨-m, e, by rwa [abs_neg], by push_cast; ring⟩

/-- The mantissa of a positive number has six digits or is the next power of ten. -/
private theorem mantissa_bounds {q : ℚ} (pos : 0 < q) :
    10 ^ 5 ≤ roundHalfEven (q * 10 ^ (5 - exponent10 q)) ∧
      roundHalfEven (q * 10 ^ (5 - exponent10 q)) ≤ 10 ^ 6 := by
  obtain ⟨low, high⟩ := exponent10_spec pos
  have tens : (0 : ℚ) < 10 ^ (5 - exponent10 q) := by positivity
  have nonneg : 0 ≤ q * 10 ^ (5 - exponent10 q) := le_of_lt (mul_pos pos tens)
  constructor
  · apply le_roundHalfEven nonneg
    have scaled := mul_le_mul_of_nonneg_right low (le_of_lt tens)
    rw [← zpow_add₀ (by norm_num), show exponent10 q + (5 - exponent10 q) = (5 : ℕ) by push_cast; ring,
      zpow_natCast] at scaled
    exact_mod_cast scaled
  · apply roundHalfEven_le nonneg
    have scaled := mul_le_mul_of_nonneg_right (le_of_lt high) (le_of_lt tens)
    rw [← zpow_add₀ (by norm_num),
      show exponent10 q + 1 + (5 - exponent10 q) = (6 : ℕ) by push_cast; ring, zpow_natCast] at scaled
    exact_mod_cast scaled

private theorem sixDigits_positive {q : ℚ} (pos : 0 < q) :
    SixDigits (roundHalfEven (q * 10 ^ (5 - exponent10 q)) * 10 ^ (exponent10 q - 5)) := by
  obtain ⟨low, high⟩ := mantissa_bounds pos
  generalize roundHalfEven (q * 10 ^ (5 - exponent10 q)) = mantissa at low high
  rcases Nat.lt_or_eq_of_le high with less | full
  · exact ⟨mantissa, exponent10 q - 5, by rw [abs_of_nonneg (by positivity)]; exact_mod_cast less,
      by push_cast; ring⟩
  · refine ⟨1, exponent10 q + 1, by norm_num, ?_⟩
    rw [full, show exponent10 q + 1 = (exponent10 q - 5) + (6 : ℕ) by push_cast; ring,
      zpow_add₀ (by norm_num), zpow_natCast]
    push_cast
    ring

private theorem roundHalfEven_positive {q : ℚ} (pos : 0 < q) (six : SixDigits q) :
    roundHalfEven (q * 10 ^ (5 - exponent10 q)) * (10 : ℚ) ^ (exponent10 q - 5) = q := by
  obtain ⟨m, e, few, rfl⟩ := six
  have tens : (0 : ℚ) < 10 ^ e := by positivity
  have mPos : 0 < m := by
    by_contra notPos
    have nonpos : (m : ℚ) ≤ 0 := by exact_mod_cast not_lt.mp notPos
    nlinarith
  obtain ⟨low, high⟩ := exponent10_spec pos
  generalize exponent10 ((m : ℚ) * 10 ^ e) = t at low high
  -- at most six digits: the exponent is at most five above `e`
  have close : t ≤ e + 5 := by
    by_contra far
    rw [abs_of_pos mPos] at few
    have less : (m : ℚ) * 10 ^ e < 10 ^ (6 : ℤ) * 10 ^ e :=
      mul_lt_mul_of_pos_right (by exact_mod_cast few) tens
    rw [← zpow_add₀ (by norm_num)] at less
    have order := (zpow_lt_zpow_iff_right₀ (by norm_num : (1 : ℚ) < 10)).mp
      (lt_of_le_of_lt low less)
    omega
  obtain ⟨k, gap⟩ : ∃ k : ℕ, e + (5 - t) = k := ⟨(e + (5 - t)).toNat, by omega⟩
  obtain ⟨n, rfl⟩ : ∃ n : ℕ, m = n := ⟨m.toNat, by omega⟩
  have whole : ((n : ℤ) : ℚ) * 10 ^ e * 10 ^ (5 - t) = ((n * 10 ^ k : ℕ) : ℚ) := by
    rw [mul_assoc, ← zpow_add₀ (by norm_num), gap, zpow_natCast]
    push_cast
    ring
  rw [whole, roundHalfEven_natCast, ← whole, mul_assoc, ← zpow_add₀ (by norm_num)]
  simp

theorem sixDigits_roundSix (q : ℚ) : SixDigits (roundSix q) := by
  unfold roundSix
  split
  · exact ⟨0, 0, by norm_num, by simp⟩
  rename_i nonzero
  split
  · rename_i negative
    exact (sixDigits_positive (neg_pos.mpr negative)).neg
  · rename_i notNegative
    exact sixDigits_positive (lt_of_le_of_ne (not_lt.mp notNegative) (Ne.symm nonzero))

/-- Rounding keeps exactly the numbers with at most six significant digits. -/
theorem roundSix_eq_iff (q : ℚ) : roundSix q = q ↔ SixDigits q := by
  constructor
  · intro kept
    rw [← kept]
    exact sixDigits_roundSix q
  · intro six
    unfold roundSix
    split
    · rename_i zero
      exact zero.symm
    rename_i nonzero
    split
    · rename_i negative
      rw [roundHalfEven_positive (neg_pos.mpr negative) six.neg, neg_neg]
    · rename_i notNegative
      exact roundHalfEven_positive (lt_of_le_of_ne (not_lt.mp notNegative) (Ne.symm nonzero)) six

instance (q : ℚ) : Decidable (SixDigits q) := decidable_of_iff _ (roundSix_eq_iff q)

private theorem exponent10_eq {q : ℚ} {e : ℤ} (pos : 0 < q) (low : (10 : ℚ) ^ e ≤ q)
    (high : q < 10 ^ (e + 1)) : exponent10 q = e := by
  obtain ⟨low', high'⟩ := exponent10_spec pos
  have first := (zpow_lt_zpow_iff_right₀ (by norm_num : (1 : ℚ) < 10)).mp (low.trans_lt high')
  have second := (zpow_lt_zpow_iff_right₀ (by norm_num : (1 : ℚ) < 10)).mp (low'.trans_lt high)
  omega

/-- A mantissa of six digits is found again. -/
private theorem mantissa_eq {m : ℕ} (e : ℤ) (low : 10 ^ 5 ≤ m) (high : m < 10 ^ 6) :
    exponent10 ((m : ℚ) * 10 ^ (e - 5)) = e ∧
      roundHalfEven ((m : ℚ) * 10 ^ (e - 5) * 10 ^ (5 - e)) = m := by
  have tens : (0 : ℚ) < 10 ^ (e - 5) := by positivity
  have some' : (0 : ℚ) < m := by exact_mod_cast (by omega : 0 < m)
  constructor
  · apply exponent10_eq (mul_pos some' tens)
    · rw [show e = (5 : ℕ) + (e - 5) by push_cast; ring, zpow_add₀ (by norm_num), zpow_natCast,
        show ((5 : ℕ) : ℤ) + (e - 5) - 5 = e - 5 by push_cast; ring]
      exact mul_le_mul_of_nonneg_right (by exact_mod_cast low) tens.le
    · rw [show e + 1 = (6 : ℕ) + (e - 5) by push_cast; ring, zpow_add₀ (by norm_num), zpow_natCast]
      exact mul_lt_mul_of_pos_right (by exact_mod_cast high) tens
  · rw [mul_assoc, ← zpow_add₀ (by norm_num), show e - 5 + (5 - e) = 0 by ring, zpow_zero, mul_one]
    exact roundHalfEven_natCast m

private theorem ostreamPositive_rounded {q : ℚ} (pos : 0 < q) :
    ostreamPositive (roundHalfEven (q * 10 ^ (5 - exponent10 q)) * 10 ^ (exponent10 q - 5)) =
      ostreamPositive q := by
  have shift : ∀ (r : ℚ) (e : ℤ), r * scale 1 10 (5 - e) = r * 10 ^ (5 - e) := by
    intro r e
    rw [scale_eq]
    push_cast
    rw [one_mul]
  obtain ⟨low, high⟩ := mantissa_bounds pos
  unfold ostreamPositive
  simp only [shift]
  generalize roundHalfEven (q * 10 ^ (5 - exponent10 q)) = mantissa at low high
  rcases Nat.lt_or_eq_of_le high with less | full
  · obtain ⟨exponent, found⟩ := mantissa_eq (exponent10 q) low less
    rw [exponent, found]
  · have same : (mantissa : ℚ) * 10 ^ (exponent10 q - 5) =
        ((10 ^ 5 : ℕ) : ℚ) * 10 ^ (exponent10 q + 1 - 5) := by
      rw [full, show exponent10 q + 1 - 5 = (exponent10 q - 5) + 1 by ring,
        zpow_add_one₀ (by norm_num)]
      push_cast
      ring
    obtain ⟨exponent, found⟩ := mantissa_eq (m := 10 ^ 5) (exponent10 q + 1) le_rfl (by norm_num)
    have fewer : ¬ (10 ^ 5 : ℕ) = 10 ^ 6 := by norm_num
    rw [same, exponent, found, full, if_neg fewer, if_pos (Eq.refl (10 ^ 6 : ℕ))]

/-- What is printed of a rounded number is what is printed of the number. -/
theorem ostreamExact_roundSix (q : ℚ) : ostreamExact (roundSix q) = ostreamExact q := by
  have positive : ∀ {r : ℚ}, 0 < r →
      0 < (roundHalfEven (r * 10 ^ (5 - exponent10 r)) : ℚ) * 10 ^ (exponent10 r - 5) := by
    intro r pos
    have some' : 0 < roundHalfEven (r * 10 ^ (5 - exponent10 r)) := by
      have := (mantissa_bounds pos).1
      omega
    have cast : (0 : ℚ) < roundHalfEven (r * 10 ^ (5 - exponent10 r)) := by exact_mod_cast some'
    positivity
  unfold roundSix
  split
  · rename_i zero
    rw [zero]
  rename_i nonzero
  split
  · rename_i negative
    have pos := neg_pos.mpr negative
    have rounded := positive pos
    unfold ostreamExact
    rw [if_neg (neg_ne_zero.mpr rounded.ne'), if_pos (neg_neg_of_pos rounded), neg_neg,
      ostreamPositive_rounded pos, if_neg nonzero, if_pos negative]
  · rename_i notNegative
    have pos := lt_of_le_of_ne (not_lt.mp notNegative) (Ne.symm nonzero)
    have rounded := positive pos
    unfold ostreamExact
    rw [if_neg rounded.ne', if_neg (not_lt_of_gt rounded), ostreamPositive_rounded pos,
      if_neg nonzero, if_neg notNegative]

end Significant

end Str

end MiniATS
