import MiniATS.Misc.StableSort
import MiniATS.Proofs.LoadedBook
import MiniATS.Proofs.Tokens

/-!
# The entries of a file

`readCSV` files the entries of a file under their products and sorts every list. Here the entries
stand in the order of their lines, and a line that gives one is recognised by its text.
-/

namespace MiniATS

open CSVHandler OrderBookEntry

variable {R : Type}

namespace CSVHandler

/-- The entries that the lines of a file contribute, in their order, and `nextId` afterwards. -/
def readEntries (env : Env R) : List Str → Nat → Except Exn (List (OrderBookEntry R) × Nat)
  | [], nextId => .ok ([], nextId)
  | line :: lines, nextId =>
    match extractTokens line 44 with
    | .error e => .error e
    | .ok tokens =>
      match parseLine env tokens nextId with
      | .error _ => readEntries env lines nextId
      | .ok (entry, nextId') =>
        match readEntries env lines nextId' with
        | .error e => .error e
        | .ok (entries, nextId'') => .ok (entry :: entries, nextId'')

/-- `entries[entry.product].push_back(entry)`. -/
def file (entries : KeyedMap Str (List (OrderBookEntry R))) (entry : OrderBookEntry R) :
    KeyedMap Str (List (OrderBookEntry R)) :=
  entries.insert entry.product (entries.get entry.product [] ++ [entry])

/-- The loop of `readCSV` files the entries one after the other. -/
theorem readLines_eq (env : Env R) (lines : List Str) (m : KeyedMap Str (List (OrderBookEntry R)))
    (nextId : Nat) : readLines env lines m nextId =
      (readEntries env lines nextId).map (fun r => (r.1.foldl file m, r.2)) := by
  induction lines generalizing m nextId with
  | nil => rfl
  | cons line lines ih =>
    unfold readLines readEntries
    cases extractTokens line 44 with
    | error e => rfl
    | ok tokens =>
      dsimp only
      cases parseLine env tokens nextId with
      | error _ => exact ih m nextId
      | ok r =>
        obtain ⟨entry, nextId'⟩ := r
        dsimp only
        rw [ih]
        cases readEntries env lines nextId' with
        | error e => rfl
        | ok r => rfl

theorem get_foldl_file (entries : List (OrderBookEntry R)) (m : KeyedMap Str (List (OrderBookEntry R)))
    (p : Str) : (entries.foldl file m).get p [] = m.get p [] ++ entries.filter (fun o => o.product = p) := by
  induction entries generalizing m with
  | nil => simp
  | cons o entries ih =>
    rw [List.foldl_cons, ih, file, KeyedMap.get_insert]
    by_cases here : p = o.product
    · subst here
      simp
    · simp [here, Ne.symm here]

/-- What `readCSV` makes of a file: the entries of every product, sorted. -/
theorem readCSV_get {env : Env R} {file' : Option Str} {first nextId : Nat}
    {m : KeyedMap Str (List (OrderBookEntry R))} (read : readCSV env file' first = .ok (m, nextId)) :
    ∃ entries, readEntries env (Str.getlines 10 (file'.getD [])) first = .ok (entries, nextId) ∧
      ∀ p, m.get p [] = sortByTimestamp (entries.filter (fun o => o.product = p)) := by
  unfold readCSV at read
  rw [readLines_eq] at read
  cases found : readEntries env (Str.getlines 10 (file'.getD [])) first with
  | error e =>
    rw [found] at read
    cases read
  | ok r =>
    obtain ⟨entries, nextId'⟩ := r
    rw [found] at read
    obtain ⟨rfl, rfl⟩ : sortLists (entries.foldl file ∅) = m ∧ nextId' = nextId := by
      simpa [Except.map] using read
    refine ⟨entries, rfl, fun p => ?_⟩
    rw [get_sortLists, get_foldl_file, KeyedMap.get_empty, List.nil_append]

theorem readEntries_ids {env : Env R} (lines : List Str) {first nextId : Nat}
    {entries : List (OrderBookEntry R)} (read : readEntries env lines first = .ok (entries, nextId)) :
    first ≤ nextId ∧ ∀ o ∈ entries, first ≤ o.id ∧ o.id < nextId := by
  induction lines generalizing first entries with
  | nil =>
    obtain ⟨rfl, rfl⟩ : [] = entries ∧ first = nextId := by simpa [readEntries] using read
    exact ⟨le_rfl, fun _ member => nomatch member⟩
  | cons line lines ih =>
    unfold readEntries at read
    split at read
    · cases read
    · split at read
      · exact ih read
      · rename_i parsed
        obtain ⟨id, -, rfl⟩ := parseLine_ok parsed
        split at read
        · cases read
        · rename_i rest
          obtain ⟨rfl, rfl⟩ := Prod.mk.inj (Except.ok.inj read)
          obtain ⟨later, ids⟩ := ih rest
          refine ⟨by omega, List.forall_mem_cons.mpr ⟨by omega, fun o member => ?_⟩⟩
          have := ids o member
          omega

theorem determineOrderType_eq_ok {text : Str} {type : OrderBookType} :
    determineOrderType text = .ok type ↔ text = orderTypeToString type := by
  unfold determineOrderType
  constructor
  · intro parsed
    split_ifs at parsed with bid ask sale
    all_goals
      obtain rfl := Except.ok.inj parsed
      assumption
  · rintro rfl
    cases type <;> rfl

/-- The tokens that give an entry. -/
theorem parseLine_eq_ok {env : Env R} {tokens : List Str} {nextId nextId' : Nat} {o : OrderBookEntry R} :
    parseLine env tokens nextId = .ok (o, nextId') ↔ ∃ priceText amountText,
      tokens = [o.timestamp, o.product, orderTypeToString o.orderType, priceText, amountText] ∧
      env.stod priceText = some o.price ∧ env.stod amountText = some o.amount ∧
      o.username = defaultUser ∧ o.id = nextId ∧ nextId' = nextId + 1 := by
  constructor
  · intro parsed
    unfold parseLine at parsed
    split at parsed
    · rename_i timestamp product typeStr priceStr amountStr
      split at parsed
      · cases parsed
      · rename_i orderType typed
        split at parsed
        · rename_i price amount priced weighed
          simp only [make, Except.ok.injEq, Prod.mk.injEq] at parsed
          obtain ⟨rfl, rfl⟩ := parsed
          rw [determineOrderType_eq_ok.mp typed]
          exact ⟨priceStr, amountStr, rfl, priced, weighed, rfl, rfl, rfl⟩
        · cases parsed
    · cases parsed
  · rintro ⟨priceText, amountText, rfl, priced, weighed, user, rfl, rfl⟩
    unfold parseLine
    simp only [determineOrderType_eq_ok.mpr rfl, priced, weighed, make, ← user]

/-- A line from which the order `o` is read: commas, the five texts with one comma between any two,
and behind them nothing, a comma, or two commas and anything. -/
def OrderLine (env : Env R) (line : Str) (o : OrderBookEntry R) : Prop :=
  ∃ priceText amountText lead rest,
    line = List.replicate lead 44 ++ [44].intercalate
      [o.timestamp, o.product, orderTypeToString o.orderType, priceText, amountText] ++ rest ∧
    Proper 44 [o.timestamp, o.product, orderTypeToString o.orderType, priceText, amountText] ∧
    Ends 44 rest ∧ env.stod priceText = some o.price ∧ env.stod amountText = some o.amount ∧
    o.username = defaultUser

theorem parseLine_fields {env : Env R} {line : Str} {nextId nextId' : Nat} {o : OrderBookEntry R} :
    parseLine env (fields 44 line) nextId = .ok (o, nextId') ↔
      OrderLine env line o ∧ o.id = nextId ∧ nextId' = nextId + 1 := by
  rw [parseLine_eq_ok]
  constructor
  · rintro ⟨priceText, amountText, tokens, priced, weighed, user, id, next⟩
    obtain ⟨proper, lead, rest, whole, ends⟩ := (fields_eq_iff (by simp)).mp tokens
    exact ⟨⟨priceText, amountText, lead, rest, whole, proper, ends, priced, weighed, user⟩, id, next⟩
  · rintro ⟨⟨priceText, amountText, lead, rest, whole, proper, ends, priced, weighed, user⟩, id, next⟩
    exact ⟨priceText, amountText, (fields_eq_iff (by simp)).mpr ⟨proper, lead, rest, whole, ends⟩, priced,
      weighed, user, id, next⟩

open Classical in
/-- The entries of the lines that are order lines, numbered from `first` on. -/
theorem readEntries_lines (env : Env R) (lines : List Str) (narrow : ∀ line ∈ lines, Narrow 44 line)
    (first : Nat) : ∃ entries, readEntries env lines first = .ok (entries, first + entries.length) ∧
      List.Forall₂ (OrderLine env) (lines.filter fun line => ∃ o, OrderLine env line o) entries ∧
      entries.map (fun o => o.id) = List.range' first entries.length := by
  induction lines generalizing first with
  | nil => exact ⟨[], rfl, List.Forall₂.nil, rfl⟩
  | cons line lines ih =>
    obtain ⟨narrow', others⟩ := List.forall_mem_cons.mp narrow
    unfold readEntries
    rw [extractTokens_eq narrow']
    dsimp only
    cases parsed : parseLine env (fields 44 line) first with
    | error e =>
      have not : ¬ ∃ o, OrderLine env line o := by
        rintro ⟨o, reads⟩
        have := parseLine_fields.mpr
          (⟨(show OrderLine env line { o with id := first } from reads), rfl, rfl⟩)
        rw [parsed] at this
        cases this
      obtain ⟨entries, read, pairs, ids⟩ := ih others first
      exact ⟨entries, read, by rwa [List.filter_cons_of_neg (by simpa using not)], ids⟩
    | ok r =>
      obtain ⟨o, nextId'⟩ := r
      obtain ⟨reads, id, rfl⟩ := parseLine_fields.mp parsed
      obtain ⟨entries, read, pairs, ids⟩ := ih others (first + 1)
      refine ⟨o :: entries, ?_, ?_, ?_⟩
      · dsimp only
        rw [read, List.length_cons, Nat.add_assoc, Nat.add_comm 1]
      · rw [List.filter_cons_of_pos (by simpa using ⟨o, reads⟩)]
        exact List.Forall₂.cons reads pairs
      · rw [List.map_cons, ids, id, List.length_cons, List.range'_succ]

/-- `readCSV` returns what was read, sorted. -/
theorem readCSV_of_readEntries {env : Env R} {content : Str} {first nextId : Nat}
    {entries : List (OrderBookEntry R)}
    (read : readEntries env (Str.getlines 10 content) first = .ok (entries, nextId)) :
    ∃ book, readCSV env (some content) first = .ok (book, nextId) ∧
      ∀ p, book.get p [] = sortByTimestamp (entries.filter (fun o => o.product = p)) := by
  refine ⟨sortLists (entries.foldl file ∅), ?_, fun p => ?_⟩
  · unfold readCSV
    rw [readLines_eq, Option.getD_some, read]
    rfl
  · rw [get_sortLists, get_foldl_file, KeyedMap.get_empty, List.nil_append]

end CSVHandler

section Sorting

/-- What the comparison by timestamp says of two orders. -/
theorem not_compareByTimestamp {a b : OrderBookEntry R} :
    compareByTimestamp b a = false ↔ a.timestamp ≤ b.timestamp := by
  simp [compareByTimestamp]

instance : Std.Total (fun a b : OrderBookEntry R => compareByTimestamp b a = false) :=
  ⟨fun a b => by simpa only [not_compareByTimestamp] using List.le_total a.timestamp b.timestamp⟩

instance : IsTrans (OrderBookEntry R) (fun a b => compareByTimestamp b a = false) :=
  ⟨fun a b c => by simpa only [not_compareByTimestamp] using List.le_trans⟩

theorem sortByTimestamp_filter (keep : OrderBookEntry R → Bool) (l : List (OrderBookEntry R)) :
    sortByTimestamp (l.filter keep) = (sortByTimestamp l).filter keep :=
  StableSort.insertionSort_filter keep l

end Sorting

end MiniATS
