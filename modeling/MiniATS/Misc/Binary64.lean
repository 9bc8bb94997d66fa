import Mathlib

/-!
# The order of binary64

What can be relied on of `<`, `≤`, `==` and `-` of `Float`: any two numbers other than NaN compare,
NaN compares with nothing, and of two positive numbers the larger less the smaller is positive,
since the difference is a multiple of the least positive number.
-/

namespace Float.Model

namespace UnpackedFloat

section Comparison

/-- Where a number stands in the order: its sign, exponent and mantissa; `none` for NaN. -/
def key : UnpackedFloat → Option (ℤ ×ₗ ℤ ×ₗ ℤ)
  | .notANumber => none
  | .infinity sign => some (toLex (sign.apply 2, toLex (0, 0)))
  | .zero _ => some (toLex (0, toLex (0, 0)))
  | .finite sign mantissa exponent _ =>
    some (toLex (sign.apply 1, toLex (sign.apply exponent, sign.apply mantissa)))

theorem compare_signs : compare Sign.negative Sign.positive = .lt ∧
    compare Sign.positive Sign.negative = .gt ∧ ∀ s : Sign, compare s s = .eq :=
  ⟨rfl, rfl, by rintro (_ | _) <;> rfl⟩

theorem compare_lt_iff (x y : UnpackedFloat) :
    x.compare y = some .lt ↔ ∃ a ∈ x.key, ∃ b ∈ y.key, a < b := by
  rcases x with (_ | _) | _ | _ | ⟨_ | _, m, e, _⟩ <;> rcases y with (_ | _) | _ | _ | ⟨_ | _, m', e', _⟩ <;>
    simp [UnpackedFloat.compare, key, Sign.apply, Prod.Lex.toLex_lt_toLex, compare_signs,
      Ordering.then_eq_lt, Ordering.then_eq_gt, compare_lt_iff_lt, compare_gt_iff_gt]

theorem compare_eq_iff (x y : UnpackedFloat) :
    x.compare y = some .eq ↔ ∃ a ∈ x.key, a ∈ y.key := by
  rcases x with (_ | _) | _ | _ | ⟨_ | _, m, e, _⟩ <;> rcases y with (_ | _) | _ | _ | ⟨_ | _, m', e', _⟩ <;>
    simp [UnpackedFloat.compare, key, Sign.apply, compare_signs, Ordering.then_eq_eq]
  all_goals omega

end Comparison

section Rounding

/-- A mantissa and an exponent in range, the mantissa with 53 digits above the least exponent. -/
structure Canonical (m : Nat) (e : Int) : Prop where
  low : -1074 ≤ e
  small : m < 2 ^ 53
  full : 2 ^ 52 ≤ m ∨ e = -1074

theorem shift_mantissa (m : ExtendedMantissa) (k : Nat) : (m >>> k).mantissa = m.mantissa / 2 ^ k := by
  induction k with
  | zero => simp [HShiftRight.hShiftRight, Nat.repeat]
  | succ k ih =>
    change (m >>> k).mantissa / 2 = _
    rw [ih, Nat.div_div_eq_div_mul, Nat.pow_succ]

theorem le_roundedMantissa (m : ExtendedMantissa) : m.mantissa ≤ m.roundedMantissa := by
  rcases m with ⟨m, _ | _, _ | _⟩ <;>
    simp [ExtendedMantissa.roundedMantissa, ExtendedMantissa.accuracy, Accuracy.roundToNearestEven]

/-- A shift to the exponent of the format keeps the leading digit. -/
theorem shiftToTargetExponent_pos {m : Nat} {e : Int} (positive : 0 < m) (low : -1074 ≤ e) :
    let r := shiftToTargetExponent Format.binary64 m e .exact
    0 < r.1.mantissa ∧ r.1.mantissa < 2 ^ 53 ∧ -1074 ≤ r.2 := by
  have target : Format.binary64.targetExponent (totalExponent m e) = max (m.log2 + e - 52) (-1074) := by
    simp only [Format.targetExponent, totalExponent, Format.mantissaBits, Format.minExponent]
    omega
  have leading := Nat.log2_self_le (Nat.pos_iff_ne_zero.mp positive)
  have following := Nat.lt_log2_self (n := m)
  simp only [shiftToTargetExponent, shiftToExponent, shift_mantissa, target,
    ExtendedMantissa.ofMantissaAndAccuracy]
  generalize amount : (max ((m.log2 : Int) + e - 52) (-1074) - e).toNat = k
  refine ⟨Nat.div_pos ((Nat.pow_le_pow_right (by decide) ?_).trans leading) (Nat.two_pow_pos k), ?_, ?_⟩
  · omega
  · rw [Nat.div_lt_iff_lt_mul (Nat.two_pow_pos k), ← Nat.pow_add]
    exact following.trans_le (Nat.pow_le_pow_right (by decide) (by omega))
  · omega

/-- A positive number that is a multiple of the least one is not rounded to zero. -/
theorem roundWithAccuracy_pos {m : Nat} {e : Int} (positive : 0 < m) (low : -1074 ≤ e) (sign : Sign) :
    ∃ m' e' filled, roundWithAccuracy Format.binary64 sign m e .exact = .finite sign m' e' filled ∧
      m' < 2 ^ 53 ∧ -1074 ≤ e' := by
  obtain ⟨kept, -, low'⟩ := shiftToTargetExponent_pos positive low
  have rounded := kept.trans_le (le_roundedMantissa _)
  obtain ⟨kept', small', low''⟩ := shiftToTargetExponent_pos rounded low'
  refine ⟨_, _, kept', ?_, small', low''⟩
  unfold roundWithAccuracy
  exact dif_neg (Nat.pos_iff_ne_zero.mp kept')

/-- A positive number that is a multiple of the least one is not rounded to zero, whatever its exponent. -/
theorem round_pos {m : Nat} {e : Int} (positive : 0 < m) (low : -1074 ≤ e) (sign : Sign) :
    ∃ m' e' filled, round Format.binary64 sign m e = .finite sign m' e' filled ∧
      m' < 2 ^ 53 ∧ -1074 ≤ e' := by
  unfold round decreaseExponent
  have target : -1074 ≤ Format.binary64.targetExponent (totalExponent m e) := by
    simp only [Format.targetExponent, Format.mantissaBits, Format.minExponent]
    omega
  refine roundWithAccuracy_pos ?_ (by omega) sign
  rw [Nat.shiftLeft_eq]
  exact Nat.mul_pos positive (Nat.two_pow_pos _)

end Rounding

section Packing

theorem sign_of_packComponents {sign exponent mantissa} :
    unpackSign (packComponents Format.binary64 sign exponent mantissa) = sign.toBitVec := by
  ext i below
  obtain rfl : i = 0 := by omega
  have bit : (packComponents Format.binary64 sign exponent mantissa).getLsbD 63 = sign.toBitVec.getLsbD 0 := by
    unfold packComponents
    rw [BitVec.getLsbD_append, BitVec.getLsbD_append]
    rfl
  simpa [unpackSign] using bit

/-- What is packed with a positive sign, and is neither zero nor NaN, is positive. -/
theorem unpack_packComponents_pos {exponent : BitVec 11} {mantissa : BitVec 52}
    (number : exponent = -1#11 → mantissa = 0#52) (filled : exponent = 0#11 → mantissa ≠ 0#52) :
    ∃ a ∈ (unpack Format.binary64 (packComponents Format.binary64 .positive exponent mantissa)).key,
      toLex (0, toLex (0, 0)) < a := by
  unfold unpack
  simp only [unpackExponent_packComponents, unpackMantissa_packComponents, sign_of_packComponents]
  split
  · rename_i top
    rw [if_pos (number top)]
    exact ⟨_, rfl, by decide⟩
  · split
    · rename_i bottom
      rw [dif_neg (filled bottom)]
      exact ⟨_, rfl, Prod.Lex.toLex_lt_toLex.mpr (Or.inl Int.one_pos)⟩
    · exact ⟨_, rfl, Prod.Lex.toLex_lt_toLex.mpr (Or.inl Int.one_pos)⟩

theorem pack_pos {m : Nat} {e : Int} (filled : 0 < m) (small : m < 2 ^ 53) (low : -1074 ≤ e) :
    ∃ a ∈ (Model.pack (.finite .positive m e filled)).unpack.key, toLex (0, toLex (0, 0)) < a := by
  change ∃ a ∈ (unpack Format.binary64 (pack Format.binary64 (.finite .positive m e filled))).key, _
  have following := Nat.lt_log2_self (n := m)
  unfold pack
  dsimp only
  split
  · exact unpack_packComponents_pos (fun _ => rfl) (fun is => absurd is (by decide))
  rename_i fits
  simp only [Format.exponentBias] at fits ⊢
  split
  · rename_i normal
    refine unpack_packComponents_pos (fun top => ?_) (fun bottom => ?_)
    · have := congrArg BitVec.toNat top
      simp at this
      omega
    · have := congrArg BitVec.toNat bottom
      simp at this
      omega
  · rename_i subnormal
    refine unpack_packComponents_pos (fun top => absurd top (by decide)) (fun _ zero => ?_)
    have divides := congrArg BitVec.toNat zero
    simp only [BitVec.toNat_ofNat] at divides
    have below : m.log2 < 52 := by
      have := (Nat.log2_lt (Nat.pos_iff_ne_zero.mp filled)).mpr small
      have : m.log2 + 1 ≠ 53 := subnormal
      omega
    rw [Nat.mod_eq_of_lt ((Nat.log2_lt (Nat.pos_iff_ne_zero.mp filled)).mp below)] at divides
    exact absurd divides (Nat.pos_iff_ne_zero.mp filled)

/-- The significand of an unpacked number is in range. -/
theorem unpack_canonical {x : Model} {sign : Sign} {m : Nat} {e : Int} {filled : 0 < m}
    (is : x.unpack = .finite sign m e filled) : Canonical m e := by
  change unpack Format.binary64 x.toBits.toBitVec = _ at is
  unfold unpack at is
  dsimp only at is
  split at is
  · split at is <;> cases is
  split at is
  · rename_i bottom
    split at is
    · cases is
    · injection is with _ mantissa exponent
      rw [bottom] at exponent
      subst mantissa exponent
      exact ⟨by decide, (BitVec.isLt _).trans (by decide), Or.inr (by decide)⟩
  · rename_i bottom
    injection is with _ mantissa exponent
    subst mantissa exponent
    have lifted := Nat.pos_of_ne_zero fun zero => bottom (BitVec.eq_of_toNat_eq zero)
    refine ⟨?_, BitVec.isLt _, Or.inl ?_⟩
    · simp only [Format.exponentBias]
      omega
    · rw [BitVec.toNat_append, Nat.shiftLeft_eq]
      exact le_trans (by decide) Nat.left_le_or

end Packing

section Difference

variable {x y : Model} {a b : ℤ ×ₗ ℤ ×ₗ ℤ}

/-- The larger of two positive numbers less the smaller. -/
theorem sub_pos (keyed : x.unpack.key = some a) (keyed' : y.unpack.key = some b)
    (positive : toLex (0, toLex (0, 0)) < b) (less : b < a) :
    ∃ c ∈ (x - y).unpack.key, toLex (0, toLex (0, 0)) < c := by
  change ∃ c ∈ (Model.pack (sub Format.binary64 x.unpack y.unpack)).unpack.key, _
  rcases left : x.unpack with (_ | _) | _ | _ | ⟨_ | _, m, e, filled⟩ <;>
    rcases right : y.unpack with (_ | _) | _ | _ | ⟨_ | _, m', e', filled'⟩ <;>
    rw [left] at keyed <;> rw [right] at keyed' <;> simp [key, Sign.apply] at keyed keyed' <;>
    subst keyed keyed' <;> simp [Prod.Lex.toLex_lt_toLex] at positive less
  · exact unpack_packComponents_pos (fun _ => rfl) (fun is => absurd is (by decide))
  · have canonical := unpack_canonical left
    have canonical' := unpack_canonical right
    have order : e' ≤ e := by omega
    have more : m' < m <<< (e - e').toNat := by
      rw [Nat.shiftLeft_eq]
      rcases less with above | ⟨rfl, more⟩
      · -- the exponent of the larger one is not the least, so it has all digits
        have full := canonical.full.resolve_right (by have := canonical'.low; omega)
        have double : 2 ≤ 2 ^ (e - e').toNat := Nat.le_self_pow (by omega) 2
        calc m' < 2 ^ 52 * 2 := canonical'.small
          _ ≤ m * 2 ^ (e - e').toNat := Nat.mul_le_mul full double
      · simpa using more
    have difference : sub Format.binary64 (.finite .positive m e filled) (.finite .positive m' e' filled') =
        round Format.binary64 .positive (m <<< (e - e').toNat - m') e' := by
      simp only [sub, decreaseExponent, min_eq_right order, Sign.apply, normalize, Int.sub_self,
        Int.toNat_zero, Nat.shiftLeft_zero]
      rw [compare_gt_iff_gt.mpr (show ((m <<< (e - e').toNat : Nat) : Int) - m' > 0 by omega)]
      dsimp only
      congr 1
      omega
    obtain ⟨m'', e'', filled'', rounded, small, low⟩ :=
      round_pos (Nat.sub_pos_of_lt more) canonical'.low .positive
    rw [difference, rounded]
    exact pack_pos filled'' small low

end Difference

end UnpackedFloat

end Float.Model

namespace Float

variable {x y : Float}

/-- Where a number stands in the order; `none` for NaN. -/
def key (x : Float) : Option (ℤ ×ₗ ℤ ×ₗ ℤ) := x.toModel.unpack.key

theorem key_zero : (0 : Float).key = some (toLex (0, toLex (0, 0))) := by decide +kernel

theorem compare_lt_iff : x < y ↔ x.toModel.unpack.compare y.toModel.unpack = some .lt :=
  decide_eq_true_iff.trans beq_iff_eq

theorem lt_iff : x < y ↔ ∃ a ∈ x.key, ∃ b ∈ y.key, a < b := by
  rw [compare_lt_iff]
  exact Model.UnpackedFloat.compare_lt_iff _ _

theorem compare_eq_iff : (x == y) = true ↔ x.toModel.unpack.compare y.toModel.unpack = some .eq := by
  change (x.toModel.unpack.compare y.toModel.unpack == some .eq) = true ↔ _
  exact beq_iff_eq

theorem beq_iff : (x == y) = true ↔ ∃ a ∈ x.key, a ∈ y.key := by
  rw [compare_eq_iff]
  exact Model.UnpackedFloat.compare_eq_iff _ _

theorem le_iff_lt_or_beq : x ≤ y ↔ x < y ∨ (x == y) = true := by
  have le : x ≤ y ↔ (x.toModel.unpack.compare y.toModel.unpack).any (·.isLE) = true := decide_eq_true_iff
  rw [le, compare_lt_iff, compare_eq_iff]
  rcases x.toModel.unpack.compare y.toModel.unpack with _ | (_ | _ | _) <;> decide

theorem le_iff : x ≤ y ↔ ∃ a ∈ x.key, ∃ b ∈ y.key, a ≤ b := by
  rw [le_iff_lt_or_beq, lt_iff, beq_iff]
  constructor
  · rintro (⟨a, keyed, b, keyed', less⟩ | ⟨a, keyed, keyed'⟩)
    · exact ⟨a, keyed, b, keyed', less.le⟩
    · exact ⟨a, keyed, a, keyed', le_rfl⟩
  · rintro ⟨a, keyed, b, keyed', most⟩
    rcases most.lt_or_eq with less | rfl
    · exact Or.inl ⟨a, keyed, b, keyed', less⟩
    · exact Or.inr ⟨a, keyed, keyed'⟩

/-- Of two positive numbers the larger less the smaller is positive: nothing underflows. -/
theorem sub_pos (positive : 0 < y) (less : y < x) : 0 < x - y := by
  obtain ⟨zero, is, b, smaller, above⟩ := lt_iff.mp positive
  obtain ⟨b', smaller', a, larger, more⟩ := lt_iff.mp less
  rw [key_zero] at is
  obtain rfl := Option.some.inj is
  obtain rfl := Option.some.inj (smaller.symm.trans smaller')
  obtain ⟨c, rest, positive'⟩ := Model.UnpackedFloat.sub_pos larger smaller above more
  exact lt_iff.mpr ⟨_, key_zero, c, rest, positive'⟩

end Float
