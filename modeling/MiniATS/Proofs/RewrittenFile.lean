import MiniATS.Proofs.LoadedBook
import MiniATS.Proofs.WrittenFile

/-!
# A book that is read from a written file

The numbers of such a book are texts that were read, so they are printed as they stand in the file.
When the book is written in its turn, the same lines come back, and the same book is read.
-/

namespace MiniATS

open CSVHandler OrderBookEntry

variable {R : Type}

/-- A number that has been printed and read is printed as before. -/
structure Env.Settles (env : Env R) (value : R → R) : Prop extends env.Prints value where
  again : ∀ x, env.ostream (value x) = env.ostream x

theorem exactEnv_settles : exactEnv.Settles Str.roundSix :=
  ⟨exactEnv_prints, Str.ostreamExact_roundSix⟩

variable {env : Env R} {value : R → R}

theorem Env.Settles.idem (settles : env.Settles value) (x : R) : value (value x) = value x := by
  have once := settles.reads x
  have twice := settles.reads (value x)
  rw [settles.again, once] at twice
  exact (Option.some.inj twice).symm

namespace CSVHandler

/-- What is read of the fields that were written. -/
def storedValue (value : R → R) (x : Str × Str × OrderBookType × R × R) :
    Str × Str × OrderBookType × R × R :=
  (x.1, x.2.1, x.2.2.1, value x.2.2.2.1, value x.2.2.2.2)

theorem storedValue_storedValue (settles : env.Settles value) (x : Str × Str × OrderBookType × R × R) :
    storedValue value (storedValue value x) = storedValue value x := by
  unfold storedValue
  rw [settles.idem, settles.idem]

theorem entryFields_congr {o o' : OrderBookEntry R} (same : o.stored = o'.stored) :
    entryFields env o = entryFields env o' := by
  simp only [stored, Prod.mk.injEq] at same
  obtain ⟨timestamp, product, type, price, amount⟩ := same
  unfold entryFields
  rw [timestamp, product, type, price, amount]

theorem entryFields_reread (settles : env.Settles value) (o : OrderBookEntry R) :
    entryFields env (o.reread value) = entryFields env o := by
  simp [entryFields, reread, settles.again]

/-- The lines of a file come from the fields of its entries. -/
theorem getlines_perm {entries entries' : List (OrderBookEntry R)}
    (same : (entries'.map (entryFields env)).Perm (entries.map (entryFields env))) (old old' : Str) :
    (Str.getlines 10 (entriesToCSV env old' entries' false)).Perm
      (Str.getlines 10 (entriesToCSV env old entries false)) := by
  rw [getlines_entriesToCSV, getlines_entriesToCSV]
  have lines := same.flatMap_right fun fields => ([44].intercalate fields).splitOn 10
  rwa [List.flatMap_map, List.flatMap_map] at lines

theorem entryToLine_congr {o o' : OrderBookEntry R} (same : entryFields env o = entryFields env o') :
    entryToLine env o = entryToLine env o' := by
  rw [entryToLine_eq, entryToLine_eq, same]

/-- Entries whose lines can be read. -/
def Legible (env : Env R) (entries : List (OrderBookEntry R)) : Prop :=
  ∀ o ∈ entries, o.Storable ∧ Narrow 44 (entryToLine env o)

theorem Legible.of_fields {entries entries' : List (OrderBookEntry R)} (legible : Legible env entries)
    (same : (entries'.map (entryFields env)).Perm (entries.map (entryFields env))) :
    Legible env entries' := by
  intro o' member
  obtain ⟨o, inEntries, fields⟩ := List.mem_map.mp (same.mem_iff.mp (List.mem_map_of_mem member))
  obtain ⟨storable, narrow⟩ := legible o inEntries
  have texts := fields
  simp only [entryFields, List.cons.injEq] at texts
  obtain ⟨timestamp, product, -⟩ := texts
  refine ⟨?_, entryToLine_congr fields ▸ narrow⟩
  unfold Storable
  rw [← timestamp, ← product]
  exact storable

end CSVHandler

namespace OrderBook

variable {entries : List (OrderBookEntry R)}

theorem sortByTimestamp_reread (value : R → R) (l : List (OrderBookEntry R)) :
    sortByTimestamp (l.map (reread value)) = (sortByTimestamp l).map (reread value) :=
  (List.map_insertionSort _ _ (reread value) _ fun _ _ _ _ => Iff.rfl).symm

theorem sortByTimestamp_of_chronological {l : List (OrderBookEntry R)} (sorted : Chronological l) :
    sortByTimestamp l = l :=
  List.Pairwise.insertionSort_eq (sorted.imp fun {_ _} early => by
    simpa [compareByTimestamp] using early)

/-- The book of a written file: its entries with the values that their numbers read as. -/
theorem make_written (prints : env.Prints value) (filename old : Str) (legible : Legible env entries) :
    ∃ book nextId,
      make env filename (some (entriesToCSV env old entries false)) 1 = .ok (book, nextId) ∧
      ∀ p, (book.orders p).map stored =
        (sortByTimestamp (entries.filter fun o => o.product = p)).map (storedValue value ∘ stored) := by
  obtain ⟨read, eq, same⟩ := readEntries_written prints old entries (fun o member => (legible o member).1)
    (fun o member => (legible o member).2) 1
  obtain ⟨lists, opened, gets⟩ := readCSV_of_readEntries eq
  refine ⟨⟨filename, [], lists, ∅⟩, _, by unfold make; rw [opened], fun p => ?_⟩
  have filtered : (entries.map (reread value)).filter (fun o => o.product = p) =
      (entries.filter fun o => o.product = p).map (reread value) := by
    rw [List.filter_map]
    rfl
  rw [orders, gets, sortByTimestamp_congr same, filtered, sortByTimestamp_reread, List.map_map]
  rfl

variable {book : OrderBook R}

/-- The fields in the file are those of a book that was read from it, in whatever order the lists of
the products are written. -/
theorem entryFields_perm (settles : env.Settles value)
    (lists : ∀ p, (book.orders p).map stored =
      (sortByTimestamp (entries.filter fun o => o.product = p)).map (storedValue value ∘ stored))
    {entries' : List (OrderBookEntry R)}
    (exported : ∀ p, entries'.filter (fun o => o.product = p) = book.orders p) :
    (entries'.map (entryFields env)).Perm (entries.map (entryFields env)) := by
  apply ListFacts.map_perm_of_filters fun fields : List Str => fields.getD 1 []
  intro p
  change ((entries'.filter fun o => o.product = p).map (entryFields env)).Perm
    ((entries.filter fun o => o.product = p).map (entryFields env))
  rw [exported]
  have pairs : List.Forall₂ (fun o o' => o.stored = (reread value o').stored) (book.orders p)
      (sortByTimestamp (entries.filter fun o => o.product = p)) := by
    have same := List.forall₂_eq_eq_eq ▸ lists p
    rwa [List.forall₂_map_left_iff, List.forall₂_map_right_iff] at same
  have fields : (book.orders p).map (entryFields env) =
      (sortByTimestamp (entries.filter fun o => o.product = p)).map (entryFields env) :=
    ListFacts.forall₂_map_eq
      (fun _ o' same => by rw [entryFields_congr same, entryFields_reread settles o']) pairs
  rw [fields]
  exact (sortByTimestamp_perm _).map _

/-- A book that was read from a written file and is written again is read as it was. -/
theorem make_rewritten (settles : env.Settles value) (sorted : ∀ p, Chronological (book.orders p))
    (lists : ∀ p, (book.orders p).map stored =
      (sortByTimestamp (entries.filter fun o => o.product = p)).map (storedValue value ∘ stored))
    (legible : Legible env entries) {entries' : List (OrderBookEntry R)}
    (exported : ∀ p, entries'.filter (fun o => o.product = p) = book.orders p) (filename old : Str) :
    ∃ book' nextId,
      make env filename (some (entriesToCSV env old entries' false)) 1 = .ok (book', nextId) ∧
      (∀ p, (book'.orders p).map stored =
        (sortByTimestamp (entries'.filter fun o => o.product = p)).map (storedValue value ∘ stored)) ∧
      ∀ p, (book'.orders p).map stored = (book.orders p).map stored := by
  obtain ⟨book', nextId, made, lists'⟩ := make_written settles.toPrints filename old
    (legible.of_fields (entryFields_perm settles lists exported))
  refine ⟨book', nextId, made, lists', fun p => ?_⟩
  rw [lists', exported, sortByTimestamp_of_chronological (sorted p), ← List.map_map, lists, List.map_map]
  apply List.map_congr_left
  intro o _
  exact storedValue_storedValue settles _

end OrderBook

end MiniATS
