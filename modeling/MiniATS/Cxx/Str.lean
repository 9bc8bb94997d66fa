import Mathlib.Data.List.Basic
import Mathlib.Data.UInt

/-!
# Byte strings

`std::string` as the server uses it: a sequence of bytes. Positions are `size_t`, with
`npos` for "not found"; `CSVHandler::extractTokens` keeps positions in `signed int`
variables, so the two conversions are here as well. The search functions and `substr` have
the meaning the standard gives them.
-/

namespace MiniATS

/-- A `std::string`. -/
abbrev Str := List UInt8

/-- The bytes of an ASCII literal. -/
def str (s : String) : Str := s.toList.map (fun c => c.toNat.toUInt8)

/-- What the server throws, with the text that `what()` gives. -/
inductive Exn
  | exception
  | invalidArgument (what : Str)
  | outOfRange (what : Str)
  | runtimeError (what : Str)
  deriving DecidableEq, Repr

namespace Str

/-- `std::string::npos`. -/
def npos : Nat := 2 ^ 64 - 1

/-- The conversion of a `size_t` to a `signed int`. -/
def toInt (n : Nat) : Int := (BitVec.ofNat 32 n).toInt

/-- The conversion of a `signed int` to a `size_t`. -/
def toSizeT (i : Int) : Nat := (i % 2 ^ 64).toNat

/-- `find_first_of` for one character. -/
def findFirstOf (s : Str) (c : UInt8) (pos : Nat) : Nat :=
  match (s.drop pos).findIdx? (· == c) with
  | some i => pos + i
  | none => npos

/-- `find_first_not_of` for one character. -/
def findFirstNotOf (s : Str) (c : UInt8) (pos : Nat) : Nat :=
  match (s.drop pos).findIdx? (· != c) with
  | some i => pos + i
  | none => npos

/-- `substr`, which throws when the position is past the end. -/
def substr (s : Str) (pos count : Nat) : Except Exn Str :=
  if s.length < pos then .error (.outOfRange (str "basic_string::substr"))
  else .ok ((s.drop pos).take count)

/-- `std::toupper` of one byte in the "C" locale. -/
def toUpperByte (c : UInt8) : UInt8 := if 97 ≤ c ∧ c ≤ 122 then c - 32 else c

/-- `std::transform` with `std::toupper`. -/
def toUpper (s : Str) : Str := s.map toUpperByte

/-- What repeated `std::getline` with a delimiter reads: the fields between the delimiters,
without a last empty one. -/
def getlines (delim : UInt8) (s : Str) : List Str :=
  if (s.splitOn delim).getLast? = some [] then (s.splitOn delim).dropLast else s.splitOn delim

/-- Remove the line ends at the end of a message. -/
def stripLineEnds (s : Str) : Str := (s.reverse.dropWhile (fun c => c == 10 || c == 13)).reverse

/-- The decimal digits of a number. -/
def ofNat (n : Nat) : Str := (Nat.toDigits 10 n).map (fun c => c.toNat.toUInt8)

end Str

end MiniATS
