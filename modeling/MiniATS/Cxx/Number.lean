import MiniATS.Cxx.Str
import Mathlib.Algebra.Order.Ring.Rat

/-!
# Numbers and their texts

The texts that `std::stod` and `std::stoi` read and that `operator<<` and `std::to_string` write,
with their exact values: the claims about exact arithmetic read the model at `ℚ`, with
`stodExact`, `ostreamExact` and `toStringExact`. What becomes of a value that is kept as a `double`
is in `MiniATS.Cxx.Double`.

`std::stod` and `std::stoi` convert the longest numeric prefix of their argument and throw
when there is none (`stoi` also when the value is not an `int`); `stodEnd` and `stoiEnd` are what is
left of the argument behind that prefix; `operator<<` on a `double`
is the default format with six significant digits, `std::to_string` is `%f`.
-/

namespace MiniATS

namespace Str

def isSpace (c : UInt8) : Bool := c == 32 || (9 ≤ c && c ≤ 13)

def isDigit (c : UInt8) : Bool := 48 ≤ c && c ≤ 57

def isHexDigit (c : UInt8) : Bool := isDigit c || (97 ≤ c && c ≤ 102) || (65 ≤ c && c ≤ 70)

def digitValue (c : UInt8) : Nat :=
  if isDigit c then c.toNat - 48 else if 97 ≤ c then c.toNat - 87 else c.toNat - 55

/-- The number a list of digits stands for. -/
def digitsValue (base : Nat) (digits : Str) : Nat :=
  digits.foldl (fun n c => n * base + digitValue c) 0

/-- An optional sign and the rest. -/
def takeSign : Str → Bool × Str
  | 45 :: rest => (true, rest)
  | 43 :: rest => (false, rest)
  | s => (false, s)

/-- An exponent after one of the two given marks, `0` when no well-formed one follows. -/
def takeExponent (lower upper : UInt8) : Str → Int
  | c :: rest =>
    if c = lower ∨ c = upper then
      let (negative, digits) := takeSign rest
      let n : Int := digitsValue 10 (digits.takeWhile isDigit)
      if negative then -n else n
    else 0
  | [] => 0

/-- `m * base ^ e`. -/
def scale (m : Nat) (base : Nat) (e : Int) : ℚ :=
  if 0 ≤ e then (m : ℚ) * ((base ^ e.toNat : Nat) : ℚ) else (m : ℚ) / ((base ^ (-e).toNat : Nat) : ℚ)

/-- Digits, an optional fraction and an optional exponent; `none` without a digit. -/
def parseFloat (base radix : Nat) (digit : UInt8 → Bool) (lower upper : UInt8) (perDigit : Nat)
    (s : Str) : Option ℚ :=
  let whole := s.takeWhile digit
  let (fraction, rest) := match s.dropWhile digit with
    | 46 :: t => (t.takeWhile digit, t.dropWhile digit)
    | t => ([], t)
  if whole.isEmpty && fraction.isEmpty then none
  else some (scale (digitsValue base (whole ++ fraction)) radix
    (takeExponent lower upper rest - perDigit * fraction.length))

/-- A hexadecimal number is written after `0x`; when no digit follows, `0` is what is read. -/
def parseUnsigned (s : Str) : Option ℚ :=
  let decimal := parseFloat 10 10 isDigit 101 69 1 s
  match s with
  | 48 :: x :: rest =>
    if x = 120 ∨ x = 88 then (parseFloat 16 2 isHexDigit 112 80 4 rest).or decimal else decimal
  | _ => decimal

/-- A sign and a magnitude, or not a number. -/
inductive Numeral
  | finite (negative : Bool) (q : ℚ)
  | infinity (negative : Bool)
  | nan
  deriving DecidableEq

/-- What `std::strtod` reads, before it is rounded; `none` without a numeric prefix. -/
def strtod (s : Str) : Option Numeral :=
  let (negative, t) := takeSign (s.dropWhile isSpace)
  if (t.take 3).map toUpperByte = str "INF" then some (.infinity negative)
  else if (t.take 3).map toUpperByte = str "NAN" then some .nan
  else (parseUnsigned t).map (.finite negative)

/-- The number of a numeral, without rounding. -/
def Numeral.exact : Numeral → Option ℚ
  | .finite negative q => some (if negative then -q else q)
  | _ => none

/-- `std::stod` for texts of finite numbers, in exact arithmetic. -/
def stodExact (s : Str) : Option ℚ := (strtod s).bind Numeral.exact

/-- `std::stoi`; `none` when it throws. -/
def stoi (s : Str) : Option Int :=
  let (negative, t) := takeSign (s.dropWhile isSpace)
  let digits := t.takeWhile isDigit
  let n : Int := if negative then -(digitsValue 10 digits : Int) else digitsValue 10 digits
  if digits.isEmpty ∨ n < -2 ^ 31 ∨ 2 ^ 31 ≤ n then none else some n

section Ends

/-- What is left behind an optional exponent. -/
def exponentEnd (lower upper : UInt8) : Str → Str
  | c :: rest =>
    if c = lower ∨ c = upper then
      let t := (takeSign rest).2
      if (t.takeWhile isDigit).isEmpty then c :: rest else t.dropWhile isDigit
    else c :: rest
  | [] => []

/-- What `parseFloat` leaves of a text. -/
def floatEnd (digit : UInt8 → Bool) (lower upper : UInt8) (s : Str) : Option Str :=
  let whole := s.takeWhile digit
  let (fraction, rest) := match s.dropWhile digit with
    | 46 :: t => (t.takeWhile digit, t.dropWhile digit)
    | t => ([], t)
  if whole.isEmpty && fraction.isEmpty then none else some (exponentEnd lower upper rest)

/-- What `parseUnsigned` leaves of a text. -/
def unsignedEnd (s : Str) : Option Str :=
  let decimal := floatEnd isDigit 101 69 s
  match s with
  | 48 :: x :: rest =>
    if x = 120 ∨ x = 88 then (floatEnd isHexDigit 112 80 rest).or decimal else decimal
  | _ => decimal

/-- What is left behind `inf` or `infinity`. -/
def infinityEnd (s : Str) : Str :=
  if (s.take 8).map toUpperByte = str "INFINITY" then s.drop 8 else s.drop 3

/-- The characters between the brackets behind `nan`. -/
def isNanChar (c : UInt8) : Bool := isDigit c || c == 95 || (65 ≤ c && c ≤ 90) || (97 ≤ c && c ≤ 122)

/-- What is left behind the brackets that may follow `nan`. -/
def nanEnd : Str → Str
  | 40 :: rest =>
    match rest.dropWhile isNanChar with
    | 41 :: after => after
    | _ => 40 :: rest
  | s => s

/-- What the conversion of `std::stod` leaves of a text; `none` when it has no numeric prefix. -/
def stodEnd (s : Str) : Option Str :=
  let t := (takeSign (s.dropWhile isSpace)).2
  if (t.take 3).map toUpperByte = str "INF" then some (infinityEnd t)
  else if (t.take 3).map toUpperByte = str "NAN" then some (nanEnd (t.drop 3))
  else unsignedEnd t

/-- What the conversion of `std::stoi` leaves of a text. -/
def stoiEnd (s : Str) : Option Str :=
  let t := (takeSign (s.dropWhile isSpace)).2
  if (t.takeWhile isDigit).isEmpty then none else some (t.dropWhile isDigit)

/-- A text that `std::stod` converts in its entirety. -/
def IsNumeral (s : Str) : Prop := stodEnd s = some []

/-- A text that `std::stoi` converts in its entirety. -/
def IsInteger (s : Str) : Prop := stoiEnd s = some []

instance (s : Str) : Decidable (IsNumeral s) := inferInstanceAs (Decidable (stodEnd s = some []))
instance (s : Str) : Decidable (IsInteger s) := inferInstanceAs (Decidable (stoiEnd s = some []))

end Ends

/-- The nearest integer, ties to even. -/
def roundHalfEven (q : ℚ) : Nat :=
  let floor := q.num.toNat / q.den
  let twice := 2 * (q.num.toNat % q.den)
  if q.den < twice ∨ (q.den = twice ∧ floor % 2 = 1) then floor + 1 else floor

/-- Decimal digits, at least `width` of them. -/
def padded (width n : Nat) : Str :=
  List.replicate (width - (ofNat n).length) 48 ++ ofNat n

/-- The fixed notation of a non-negative number with the given number of decimals. -/
def fixed (decimals : Nat) (q : ℚ) : Str :=
  let n := roundHalfEven (q * ((10 ^ decimals : Nat) : ℚ))
  let whole := ofNat (n / 10 ^ decimals)
  if decimals = 0 then whole else whole ++ [46] ++ padded decimals (n % 10 ^ decimals)

/-- `std::to_string` of a finite `double`. -/
def toStringExact (q : ℚ) : Str :=
  if q < 0 then 45 :: fixed 6 (-q) else fixed 6 q

/-- The decimal exponent of a positive number: the `e` with `10 ^ e ≤ q < 10 ^ (e + 1)`. -/
def exponent10 (q : ℚ) : Int :=
  let whole := q.num.toNat / q.den
  if 1 ≤ whole then (ofNat whole).length - 1
  else
    let inverse := (q.den + q.num.toNat - 1) / q.num.toNat
    if inverse ≤ 1 then 0 else -((ofNat (inverse - 1)).length : Int)

/-- Remove the zeros at the end of a fraction, and the point if nothing is left of it. -/
def trimZeros (s : Str) : Str :=
  if 46 ∈ s then
    let t := (s.reverse.dropWhile (· == 48)).reverse
    if t.getLast? = some 46 then t.dropLast else t
  else s

/-- `operator<<` of a positive finite `double`: six significant digits, no trailing zeros. -/
def ostreamPositive (q : ℚ) : Str :=
  let e := exponent10 q
  let mantissa := roundHalfEven (q * scale 1 10 (5 - e))
  let (mantissa, e) := if mantissa = 10 ^ 6 then (10 ^ 5, e + 1) else (mantissa, e)
  if -4 ≤ e ∧ e < 6 then trimZeros (fixed (5 - e).toNat (scale mantissa 10 (e - 5)))
  else
    trimZeros (ofNat (mantissa / 10 ^ 5) ++ [46] ++ padded 5 (mantissa % 10 ^ 5)) ++ [101] ++
      (if e < 0 then [45] else [43]) ++ padded 2 e.natAbs

/-- `operator<<` of a finite `double`. -/
def ostreamExact (q : ℚ) : Str :=
  if q = 0 then [48] else if q < 0 then 45 :: ostreamPositive (-q) else ostreamPositive q

end Str

end MiniATS
