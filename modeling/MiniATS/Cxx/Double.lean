import MiniATS.Cxx.Number

/-!
# `double`

A `double` is a `Float`: binary64 with its roundings, infinities, signed zeros and NaN (of which
there is one, without a sign). Here are its exact value, the `double` that a numeral is rounded to,
and from these `std::stod`, `operator<<` and `std::to_string`.

`std::stod` throws `std::out_of_range` where `std::strtod` sets `ERANGE`: when the value overflows,
and when it is smaller than every normal `double` and cannot be kept exactly.
-/

namespace MiniATS

instance instZeroFloat : Zero Float := ⟨0⟩

namespace Str

open Float.Model

section Values

/-- Whether the sign bit is set. -/
def signBit (x : Float) : Bool :=
  match x.toModel.unpack with
  | .infinity .negative | .zero .negative | .finite .negative .. => true
  | _ => false

/-- The exact magnitude of a finite `double`. -/
def magnitude (x : Float) : ℚ :=
  match x.toModel.unpack with
  | .finite _ mantissa exponent _ => scale mantissa 2 exponent
  | _ => 0

end Values

section Rounding

/-- The sign of a `double`. -/
def signOf (negative : Bool) : UnpackedFloat.Sign := if negative then .negative else .positive

/-- The `double` nearest to a number, ties to even. -/
def nearest (negative : Bool) (q : ℚ) : Float :=
  .ofModel (pack (if filled : 0 < q.num.natAbs then
      UnpackedFloat.div Format.binary64 (.finite (signOf negative) q.num.natAbs 0 filled)
        (.finite .positive q.den 0 q.den_pos)
    else .zero (signOf negative)))

/-- Below the normal numbers after rounding to 53 binary digits: less than `2^-1022 - 2^-1076`. -/
def isTiny (q : ℚ) : Bool := q < scale (2 ^ 54 - 1) 2 (-1076)

/-- The `double` of a numeral; `none` when it is out of range. -/
def Numeral.toDouble : Numeral → Option Float
  | .finite negative q =>
    let x := nearest negative q
    if x.isInf || (isTiny q && magnitude x != q) then none else some x
  | .infinity negative => some (.ofModel (pack (.infinity (signOf negative))))
  | .nan => some (.ofModel (pack .notANumber))

/-- `std::stod`; `none` when it throws. -/
def stod (s : Str) : Option Float := (strtod s).bind Numeral.toDouble

end Rounding

/-- The text of a `double` in a format given for finite magnitudes. -/
def ofFloat (format : ℚ → Str) (x : Float) : Str :=
  (if signBit x then [45] else []) ++
    if x.isNaN then str "nan" else if x.isInf then str "inf" else format (magnitude x)

/-- `operator<<` of a `double`. -/
def ostream : Float → Str := ofFloat ostreamExact

/-- `std::to_string` of a `double`. -/
def toString : Float → Str := ofFloat toStringExact

example : (stod (str "0.1")).map Float.toBits = some 0x3fb999999999999a ∧
    stod (str "1e400") = none ∧ stod (str "1e-400") = none ∧
    (stod (str "2.2250738585072014e-308")).map ostream = some (str "2.22507e-308") ∧
    stod (str "2.22507e-308") = none ∧ (stod (str "-0x1p-1074")).map ostream = some (str "-4.94066e-324") ∧
    (stod (str "-0")).map ostream = some (str "-0") := by
  decide +kernel

end Str

end MiniATS
