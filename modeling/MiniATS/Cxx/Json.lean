import MiniATS.Cxx.Str
import MiniATS.Misc.KeyedMap
import Mathlib.Data.List.Lex
import Mathlib.Data.List.Sort

/-!
# `nlohmann::json`

The values that the program stores, how containers become values and are read back, and what the
files rely on of the text of a value (`nlohmann/json.hpp`): it reads back as the value, except that a
number that is not finite is printed as null and that a string that is not UTF-8 is refused.
-/

namespace MiniATS

/-- A value. The members of an object stand in the order of their keys. -/
inductive Json (R : Type)
  | null
  | number (x : R)
  | unsigned (n : Nat)
  | string (s : Str)
  | array (items : List (Json R))
  | object (members : List (Str × Json R))

namespace Json

variable {R α : Type}

/-- Whether a byte continues a character. -/
def isTail (b : UInt8) : Bool := 128 ≤ b && b ≤ 191

/-- Whether a string is UTF-8. -/
def isUtf8 : Str → Bool
  | [] => true
  | b :: rest =>
    if b ≤ 127 then isUtf8 rest
    else if 194 ≤ b && b ≤ 223 then
      match rest with
      | c :: rest => isTail c && isUtf8 rest
      | _ => false
    else if 224 ≤ b && b ≤ 239 then
      match rest with
      | c :: d :: rest =>
        (if b = 224 then 160 else 128) ≤ c && c ≤ (if b = 237 then 159 else 191) && isTail d &&
          isUtf8 rest
      | _ => false
    else if 240 ≤ b && b ≤ 244 then
      match rest with
      | c :: d :: e :: rest =>
        (if b = 240 then 144 else 128) ≤ c && c ≤ (if b = 244 then 143 else 191) && isTail d &&
          isTail e && isUtf8 rest
      | _ => false
    else false

section Trees

mutual

/-- The strings and the keys of a value. -/
def strings : Json R → List Str
  | .string s => [s]
  | .array items => itemStrings items
  | .object members => memberStrings members
  | _ => []

def itemStrings : List (Json R) → List Str
  | [] => []
  | v :: items => v.strings ++ itemStrings items

def memberStrings : List (Str × Json R) → List Str
  | [] => []
  | (key, v) :: members => key :: v.strings ++ memberStrings members

end

mutual

/-- The value whose numbers that are not finite are null. -/
def finitely (isFinite : R → Bool) : Json R → Json R
  | .number x => if isFinite x then .number x else .null
  | .array items => .array (finiteItems isFinite items)
  | .object members => .object (finiteMembers isFinite members)
  | v => v

def finiteItems (isFinite : R → Bool) : List (Json R) → List (Json R)
  | [] => []
  | v :: items => v.finitely isFinite :: finiteItems isFinite items

def finiteMembers (isFinite : R → Bool) : List (Str × Json R) → List (Str × Json R)
  | [] => []
  | (key, v) :: members => (key, v.finitely isFinite) :: finiteMembers isFinite members

end

mutual

/-- The keys of every object ascend. -/
def Ordered : Json R → Prop
  | .array items => OrderedItems items
  | .object members => (members.map Prod.fst).Pairwise (· < ·) ∧ OrderedMembers members
  | _ => True

def OrderedItems : List (Json R) → Prop
  | [] => True
  | v :: items => v.Ordered ∧ OrderedItems items

def OrderedMembers : List (Str × Json R) → Prop
  | [] => True
  | (_, v) :: members => v.Ordered ∧ OrderedMembers members

end

theorem itemStrings_eq (items : List (Json R)) : itemStrings items = items.flatMap strings := by
  induction items with
  | nil => rw [itemStrings, List.flatMap_nil]
  | cons v items ih => rw [itemStrings, ih, List.flatMap_cons]

theorem memberStrings_eq (members : List (Str × Json R)) :
    memberStrings members = members.flatMap fun m => m.1 :: m.2.strings := by
  induction members with
  | nil => rw [memberStrings, List.flatMap_nil]
  | cons m members ih => rw [memberStrings, ih, List.flatMap_cons]

theorem finiteItems_eq (isFinite : R → Bool) (items : List (Json R)) :
    finiteItems isFinite items = items.map (finitely isFinite) := by
  induction items with
  | nil => rw [finiteItems, List.map_nil]
  | cons v items ih => rw [finiteItems, ih, List.map_cons]

theorem finiteMembers_eq (isFinite : R → Bool) (members : List (Str × Json R)) :
    finiteMembers isFinite members = members.map fun m => (m.1, m.2.finitely isFinite) := by
  induction members with
  | nil => rw [finiteMembers, List.map_nil]
  | cons m members ih => rw [finiteMembers, ih, List.map_cons]

theorem orderedItems_iff (items : List (Json R)) : OrderedItems items ↔ ∀ v ∈ items, v.Ordered := by
  induction items with
  | nil => simp [OrderedItems]
  | cons v items ih => rw [OrderedItems, ih, List.forall_mem_cons]

theorem orderedMembers_iff (members : List (Str × Json R)) :
    OrderedMembers members ↔ ∀ m ∈ members, m.2.Ordered := by
  induction members with
  | nil => simp [OrderedMembers]
  | cons m members ih => rw [OrderedMembers, ih, List.forall_mem_cons]

end Trees

/-- What `nlohmann::json` throws. -/
def typeError : Exn := .exception

/-- `at(key)` (also behind `contains`). -/
def member (v : Json R) (key : Str) : Option (Json R) :=
  match v with
  | .object members => (members.find? fun m => m.1 = key).map Prod.snd
  | _ => none

def at' (v : Json R) (key : Str) : Except Exn (Json R) :=
  match v.member key with
  | some w => .ok w
  | none => .error typeError

/-- `get_to` of a `std::string`. -/
def asString : Json R → Except Exn Str
  | .string s => .ok s
  | _ => .error typeError

/-- The array of a `std::list` or a `std::vector`. -/
def ofList (f : α → Json R) (l : List α) : Json R := .array (l.map f)

/-- `get_to` of a `std::list` or a `std::vector`. -/
def asList (read : Json R → Except Exn α) : Json R → Except Exn (List α)
  | .array items => items.mapM read
  | _ => .error typeError

/-- The object of a `std::unordered_map`. -/
def ofMap (f : α → Json R) (m : KeyedMap Str α) : Json R :=
  .object ((m.entries.map fun e => (e.1, f e.2)).insertionSort fun a b => a.1 ≤ b.1)

/-- `get_to` of a `std::unordered_map`: of two members with one key the first stays. -/
def asMap (read : Json R → Except Exn α) : Json R → Except Exn (KeyedMap Str α)
  | .object members => do
    let values ← members.mapM fun m => (read m.2).map fun x => (m.1, x)
    return values.foldr (fun p m => m.insert p.1 p.2) ∅
  | _ => .error typeError

end Json

/-- What the files take of `nlohmann::json` and of the number type: the texts of values, reading them,
and the conversions between the two kinds of numbers. -/
structure JsonText (R Text : Type) where
  isFinite : R → Bool
  ofUnsigned : Nat → R
  toUnsigned : R → Nat
  dump : Json R → Except Exn Text
  parse : Text → Except Exn (Json R)
  empty : Text

namespace JsonText

variable {R Text : Type} (json : JsonText R Text)

/-- `get_to` of a `double`. -/
def asNumber : Json R → Except Exn R
  | .number x => .ok x
  | .unsigned n => .ok (json.ofUnsigned n)
  | _ => .error Json.typeError

/-- `get_to` of a `size_t`. -/
def asUnsigned : Json R → Except Exn Nat
  | .number x => .ok (json.toUnsigned x)
  | .unsigned n => .ok n
  | _ => .error Json.typeError

/-- What is relied on of the texts: `dump` throws on a string that is not UTF-8 and prints a number
that is not finite as null, and what it prints is read back; the empty file is refused. -/
structure Lossless : Prop where
  printed : ∀ v : Json R, v.Ordered → (∀ s ∈ v.strings, Json.isUtf8 s) →
    ∃ text, json.dump v = .ok text ∧ json.parse text = .ok (v.finitely json.isFinite)
  refused : ∀ v : Json R, (∃ s ∈ v.strings, Json.isUtf8 s = false) → ∃ e, json.dump v = .error e
  parse_empty : ∃ e, json.parse json.empty = .error e

/-- What is in the file after `outFile << v.dump(4)`, which has been truncated before. -/
def written (v : Json R) : Text :=
  match json.dump v with
  | .ok text => text
  | .error _ => json.empty

end JsonText

section Documents

variable {R : Type}

/-- Files that hold the values that their texts stand for. -/
def documents (isFinite : R → Bool) (ofUnsigned : Nat → R) (toUnsigned : R → Nat) :
    JsonText R (Option (Json R)) where
  isFinite := isFinite
  ofUnsigned := ofUnsigned
  toUnsigned := toUnsigned
  dump v := if v.strings.all Json.isUtf8 then .ok (some (v.finitely isFinite)) else .error .exception
  parse text := match text with
    | some v => .ok v
    | none => .error .exception
  empty := none

theorem documents_lossless (isFinite : R → Bool) (ofUnsigned : Nat → R) (toUnsigned : R → Nat) :
    (documents isFinite ofUnsigned toUnsigned).Lossless where
  printed v _ valid := ⟨_, if_pos (by simpa using valid), rfl⟩
  refused v := by
    rintro ⟨s, member, invalid⟩
    refine ⟨.exception, if_neg fun valid => ?_⟩
    have := List.all_eq_true.mp valid s member
    rw [invalid] at this
    cases this
  parse_empty := ⟨_, rfl⟩

end Documents

end MiniATS
