import MiniATS.Proofs.Decimal
import MiniATS.Proofs.Lines
import MiniATS.Proofs.ReadEntries

/-!
# The file that `entriesToCSV` writes

Nothing is escaped in the file, so a line is read back as the fields it was written from when they
are free of commas and line breaks; the numbers are, whatever their values. An entry comes back with
the values that its printed price and amount read as, and not at all when `std::stod` throws on one.
-/

namespace MiniATS

open Str CSVHandler OrderBookEntry

variable {R : Type}

/-- A text that is one field of one line of a file. -/
def Str.Plain (s : Str) : Prop := s ≠ [] ∧ 44 ∉ s ∧ 10 ∉ s

instance (s : Str) : Decidable s.Plain := inferInstanceAs (Decidable (_ ∧ _))

section Numbers

/-- Every number is printed as one field, and the text of `x` reads as `value x`. -/
structure Env.Prints (env : Env R) (value : R → R) : Prop where
  reads : ∀ x, env.stod (env.ostream x) = some (value x)
  plain : ∀ x, (env.ostream x).Plain

theorem Str.Printed.plain {s : Str} (printed : s.Printed) : s.Plain := by
  obtain ⟨filled, bytes⟩ := printed
  refine ⟨filled, fun comma => ?_, fun lineBreak => ?_⟩
  · exact absurd (bytes 44 comma) (by decide)
  · exact absurd (bytes 10 lineBreak) (by decide)

theorem exactEnv_prints : exactEnv.Prints roundSix where
  reads := stodExact_ostreamExact
  plain := fun x => (printed_ostreamExact x).plain

theorem doubleEnv_plain (x : Float) : Plain (doubleEnv.ostream x) := by
  change Plain ((if signBit x then [45] else []) ++
    if x.isNaN then str "nan" else if x.isInf then str "inf" else ostreamExact (magnitude x))
  have sign : ∀ {s : Str}, s.Plain → Plain ((if signBit x then [45] else []) ++ s) := by
    rintro s ⟨filled, comma, lineBreak⟩
    split
    · exact ⟨by simp, by simpa using comma, by simpa using lineBreak⟩
    · exact ⟨filled, comma, lineBreak⟩
  apply sign
  split
  · decide +kernel
  split
  · decide +kernel
  · exact (printed_ostreamExact _).plain

end Numbers

namespace OrderBookEntry

/-- The fields of an entry that a file has. -/
def stored (o : OrderBookEntry R) : Str × Str × OrderBookType × R × R :=
  (o.timestamp, o.product, o.orderType, o.price, o.amount)

/-- The timestamp and the product of the entry are one field each. -/
def Storable (o : OrderBookEntry R) : Prop := o.timestamp.Plain ∧ o.product.Plain

instance (o : OrderBookEntry R) : Decidable o.Storable := inferInstanceAs (Decidable (_ ∧ _))

/-- The entry with the price and the amount that their texts read as, when both do. -/
def readBack (env : Env R) (o : OrderBookEntry R) : Option (OrderBookEntry R) :=
  (env.stod (env.ostream o.price)).bind fun price =>
    (env.stod (env.ostream o.amount)).map fun amount => { o with price, amount }

/-- The entry with the price and the amount that their texts read as. -/
def reread (value : R → R) (o : OrderBookEntry R) : OrderBookEntry R :=
  { o with price := value o.price, amount := value o.amount }

end OrderBookEntry

namespace CSVHandler

/-- The texts of an entry in a file. -/
def entryFields (env : Env R) (o : OrderBookEntry R) : List Str :=
  [o.timestamp, o.product, orderTypeToString o.orderType, env.ostream o.price, env.ostream o.amount]

theorem entryToLine_eq (env : Env R) (o : OrderBookEntry R) :
    entryToLine env o = [44].intercalate (entryFields env o) ++ [10] := by
  simp [entryToLine, entryFields, List.intercalate, List.intersperse]

/-- A file ends the line of every entry, so it is read entry by entry. -/
theorem getlines_entriesToCSV (env : Env R) (old : Str) (entries : List (OrderBookEntry R)) :
    getlines 10 (entriesToCSV env old entries false) =
      entries.flatMap (fun o => ([44].intercalate (entryFields env o)).splitOn 10) := by
  change getlines 10 (entries.flatMap (entryToLine env)) = _
  induction entries with
  | nil => exact getlines_nil 10
  | cons o entries ih =>
    rw [List.flatMap_cons, List.flatMap_cons, entryToLine_eq, List.append_assoc, List.singleton_append,
      getlines_append_cons, ih]

/-- The type is one field. -/
theorem plain_orderTypeToString (type : OrderBookType) : (orderTypeToString type).Plain := by
  cases type <;> decide +kernel

variable {env : Env R} {value : R → R} {o : OrderBookEntry R}

theorem plain_of_mem_entryFields (plain : ∀ x, (env.ostream x).Plain) (storable : o.Storable) {field : Str}
    (member : field ∈ entryFields env o) : field.Plain := by
  simp only [entryFields, List.mem_cons, List.not_mem_nil, or_false] at member
  rcases member with rfl | rfl | rfl | rfl | rfl
  · exact storable.1
  · exact storable.2
  · exact plain_orderTypeToString _
  · exact plain _
  · exact plain _

theorem entryFields_proper (plain : ∀ x, (env.ostream x).Plain) (storable : o.Storable) :
    Proper 44 (entryFields env o) := fun _ member =>
  let field := plain_of_mem_entryFields plain storable member
  ⟨field.1, field.2.1⟩

theorem mem_intercalate {separator pieces} {x : UInt8} (member : x ∈ List.intercalate separator pieces) :
    x ∈ separator ∨ ∃ piece ∈ pieces, x ∈ piece := by
  induction pieces with
  | nil => exact absurd member List.not_mem_nil
  | cons first pieces ih =>
    by_cases last : pieces = []
    · subst last
      rw [List.intercalate_singleton] at member
      exact Or.inr ⟨first, List.mem_cons_self, member⟩
    · rw [List.intercalate_cons_of_ne_nil last, List.append_assoc, List.mem_append, List.mem_append] at member
      rcases member with here | between | later
      · exact Or.inr ⟨first, List.mem_cons_self, here⟩
      · exact Or.inl between
      · exact (ih later).imp id fun ⟨piece, inPieces, here⟩ =>
          ⟨piece, List.mem_cons_of_mem _ inPieces, here⟩

/-- The line of a storable entry has no line break. -/
theorem splitOn_entryFields (plain : ∀ x, (env.ostream x).Plain) (storable : o.Storable) :
    ([44].intercalate (entryFields env o)).splitOn 10 = [[44].intercalate (entryFields env o)] := by
  apply List.splitOn_eq_singleton
  intro lineBreak
  rcases mem_intercalate lineBreak with comma | ⟨field, member, here⟩
  · exact absurd comma (by decide)
  · exact (plain_of_mem_entryFields plain storable member).2.2 here

theorem narrow_of_append {separator : UInt8} {s t : Str} (narrow : Narrow separator (s ++ t)) :
    Narrow separator s := by
  intro i here
  apply narrow i
  rw [List.getElem?_append_left (List.getElem?_eq_some_iff.mp here).1]
  exact here

/-- The tokens of the line of a storable entry are its fields. -/
theorem fields_written (plain : ∀ x, (env.ostream x).Plain) (storable : o.Storable) :
    fields 44 ([44].intercalate (entryFields env o)) = entryFields env o := by
  refine (fields_eq_iff (by simp [entryFields])).mpr ⟨entryFields_proper plain storable, 0, [], ?_, Or.inl rfl⟩
  rw [List.replicate_zero, List.nil_append, List.append_nil]

theorem parseLine_of_readBack {o' : OrderBookEntry R} (read : o.readBack env = some o') (first : Nat) :
    parseLine env (entryFields env o) first =
      .ok ({ o' with username := defaultUser, id := first }, first + 1) := by
  obtain ⟨price, priced, rest⟩ := Option.bind_eq_some_iff.mp read
  obtain ⟨amount, weighed, rfl⟩ := Option.map_eq_some_iff.mp rest
  exact parseLine_eq_ok.mpr ⟨_, _, rfl, priced, weighed, rfl, rfl, rfl⟩

theorem parseLine_of_not_readBack (unread : o.readBack env = none) (first : Nat) :
    ∃ e, parseLine env (entryFields env o) first = .error e := by
  cases parsed : parseLine env (entryFields env o) first with
  | error e => exact ⟨e, rfl⟩
  | ok r =>
    obtain ⟨o', nextId⟩ := r
    obtain ⟨priceText, amountText, texts, priced, weighed, -⟩ := parseLine_eq_ok.mp parsed
    simp only [entryFields, List.cons.injEq, and_true] at texts
    obtain ⟨-, -, -, rfl, rfl⟩ := texts
    rw [readBack, priced, weighed] at unread
    cases unread

/-- The file of storable entries gives those back whose numbers are read, in their order. -/
theorem readEntries_storable (plain : ∀ x, (env.ostream x).Plain) (old : Str)
    (entries : List (OrderBookEntry R)) (storable : ∀ o ∈ entries, o.Storable)
    (narrow : ∀ o ∈ entries, Narrow 44 (entryToLine env o)) (first : Nat) :
    ∃ read nextId, readEntries env (getlines 10 (entriesToCSV env old entries false)) first =
      .ok (read, nextId) ∧ nextId = first + read.length ∧
      read.map stored = (entries.filterMap (readBack env)).map stored := by
  rw [getlines_entriesToCSV]
  induction entries generalizing first with
  | nil => exact ⟨[], first, rfl, rfl, rfl⟩
  | cons o entries ih =>
    obtain ⟨storable', others⟩ := List.forall_mem_cons.mp storable
    obtain ⟨narrow', others'⟩ := List.forall_mem_cons.mp narrow
    rw [entryToLine_eq] at narrow'
    rw [List.flatMap_cons, splitOn_entryFields plain storable', List.singleton_append]
    unfold readEntries
    rw [extractTokens_eq (narrow_of_append narrow'), fields_written plain storable']
    dsimp only
    cases back : o.readBack env with
    | none =>
      obtain ⟨e, skipped⟩ := parseLine_of_not_readBack back first
      rw [skipped, List.filterMap_cons_none back]
      exact ih others others' first
    | some o' =>
      obtain ⟨read, nextId, rest, rfl, same⟩ := ih others others' (first + 1)
      rw [parseLine_of_readBack back, List.filterMap_cons_some back]
      dsimp only
      rw [rest]
      refine ⟨_, _, rfl, ?_, ?_⟩
      · rw [List.length_cons, Nat.add_assoc, Nat.add_comm 1]
      · rw [List.map_cons, same]
        rfl

/-- The file of storable entries gives all of them back when every number is read back. -/
theorem readEntries_written (prints : env.Prints value) (old : Str) (entries : List (OrderBookEntry R))
    (storable : ∀ o ∈ entries, o.Storable) (narrow : ∀ o ∈ entries, Narrow 44 (entryToLine env o))
    (first : Nat) : ∃ read, readEntries env (getlines 10 (entriesToCSV env old entries false)) first =
      .ok (read, first + entries.length) ∧
      read.map stored = (entries.map (reread value)).map stored := by
  have all : readBack env = some ∘ reread value := funext fun o => by
    rw [readBack, prints.reads, prints.reads]
    rfl
  obtain ⟨read, nextId, eq, rfl, same⟩ := readEntries_storable prints.plain old entries storable narrow first
  rw [all, List.filterMap_eq_map] at same
  have length := congrArg List.length same
  rw [List.length_map, List.length_map, List.length_map] at length
  exact ⟨read, by rw [eq, length], same⟩

section Sorting

/-- Sorting looks at the timestamps only. -/
theorem sortByTimestamp_stored (entries : List (OrderBookEntry R)) :
    (sortByTimestamp entries).map stored =
      (entries.map stored).insertionSort (fun x y => ¬ y.1 < x.1) :=
  List.map_insertionSort _ _ _ _ fun a _ b _ => by simp [compareByTimestamp, stored]

theorem sortByTimestamp_congr {entries entries' : List (OrderBookEntry R)}
    (same : entries.map stored = entries'.map stored) (product : Str) :
    (sortByTimestamp (entries.filter fun o => o.product = product)).map stored =
      (sortByTimestamp (entries'.filter fun o => o.product = product)).map stored := by
  have filtered : ∀ l : List (OrderBookEntry R), (l.filter fun o => o.product = product).map stored =
      (l.map stored).filter (fun x => x.2.1 = product) := fun l => by
    rw [List.filter_map]
    rfl
  rw [sortByTimestamp_stored, sortByTimestamp_stored, filtered, filtered, same]

end Sorting

end CSVHandler

end MiniATS
