import MiniATS.Proofs.Numeral
import MiniATS.Proofs.ReadEntries

/-!
# Which lines are orders

`readCSV` (`CSVHandler.cpp:54-77`) takes an entry from every line whose tokens parse and passes over
the others. The tokenizer skips leading commas and stops at the first empty field, and nothing asks
how much of a field `std::stod` has converted, so some lines that are not five fields with two numerals
are read as if they were.
-/

namespace MiniATS

open CSVHandler OrderBookEntry Str

variable {R : Type}

namespace CSVHandler

/-- A line of exactly five fields with single commas between them, the third a type and the last two
numerals in their entirety, and the order that it states. -/
def WellFormedLine (env : Env R) (line : Str) (o : OrderBookEntry R) : Prop :=
  ∃ priceText amountText,
    line = [44].intercalate [o.timestamp, o.product, orderTypeToString o.orderType, priceText, amountText] ∧
    Proper 44 [o.timestamp, o.product, orderTypeToString o.orderType, priceText, amountText] ∧
    IsNumeral priceText ∧ IsNumeral amountText ∧ env.stod priceText = some o.price ∧
    env.stod amountText = some o.amount ∧ o.username = defaultUser

open Classical in
/-- `readCSV` takes one entry, with the next id, from every well-formed line, the one that it states,
and nothing from the others. -/
def ReadsWellFormed (env : Env R) (content : Str) (first : Nat) : Prop :=
  ∃ book entries, readCSV env (some content) first = .ok (book, first + entries.length) ∧
    List.Forall₂ (WellFormedLine env)
      ((getlines 10 content).filter fun line => ∃ o, WellFormedLine env line o) entries ∧
    entries.map (fun o => o.id) = List.range' first entries.length ∧
    ∀ p, book.get p [] = sortByTimestamp (entries.filter fun o => o.product = p)

/-- Commas, a timestamp, a product, a type and two texts that `std::stod` converts, with one comma
between any two, and behind them nothing, a comma, or two commas and anything; where there is a comma
in front, something behind, or something that `std::stod` leaves of one of the two texts. -/
def LaxLine (env : Env R) (line : Str) : Prop :=
  ∃ timestamp product type priceText amountText lead rest,
    line = List.replicate lead 44 ++
      [44].intercalate [timestamp, product, orderTypeToString type, priceText, amountText] ++ rest ∧
    Proper 44 [timestamp, product, orderTypeToString type, priceText, amountText] ∧ Ends 44 rest ∧
    (env.stod priceText).isSome ∧ (env.stod amountText).isSome ∧
    (lead ≠ 0 ∨ rest ≠ [] ∨ ¬ IsNumeral priceText ∨ ¬ IsNumeral amountText)

variable {env : Env R} {line : Str} {o : OrderBookEntry R}

theorem WellFormedLine.orderLine (formed : WellFormedLine env line o) : OrderLine env line o := by
  obtain ⟨priceText, amountText, whole, proper, -, -, priced, weighed, user⟩ := formed
  refine ⟨priceText, amountText, 0, [], ?_, proper, Or.inl rfl, priced, weighed, user⟩
  rw [List.replicate_zero, List.nil_append, List.append_nil]
  exact whole

/-- An order line is well formed unless it is lax. -/
theorem OrderLine.wellFormed (reads : OrderLine env line o) (strict : ¬ LaxLine env line) :
    WellFormedLine env line o := by
  obtain ⟨priceText, amountText, lead, rest, whole, proper, ends, priced, weighed, user⟩ := reads
  by_contra unformed
  refine strict ⟨_, _, _, priceText, amountText, lead, rest, whole, proper, ends, by rw [priced]; rfl,
    by rw [weighed]; rfl, ?_⟩
  by_contra tidy
  simp only [not_or, not_not] at tidy
  obtain ⟨rfl, rfl, price, amount⟩ := tidy
  rw [List.replicate_zero, List.nil_append, List.append_nil] at whole
  exact unformed ⟨priceText, amountText, whole, proper, price, amount, priced, weighed, user⟩

/-- A lax line is an order line. -/
theorem LaxLine.orderLine (lax : LaxLine env line) : ∃ o, OrderLine env line o := by
  obtain ⟨timestamp, product, type, priceText, amountText, lead, rest, whole, proper, ends, priced, weighed,
    -⟩ := lax
  obtain ⟨price, priced⟩ := Option.isSome_iff_exists.mp priced
  obtain ⟨amount, weighed⟩ := Option.isSome_iff_exists.mp weighed
  exact ⟨⟨price, amount, timestamp, product, type, defaultUser, 0⟩, priceText, amountText, lead, rest, whole,
    proper, ends, priced, weighed, rfl⟩

theorem bare_of_eq {lead : Nat} {fields rest : Str}
    (whole : line = List.replicate lead 44 ++ fields ++ rest) (bare : line = fields) :
    lead = 0 ∧ rest = [] := by
  have lengths := congrArg List.length (whole.symm.trans bare)
  simp only [List.length_append, List.length_replicate] at lengths
  exact ⟨by omega, List.eq_nil_of_length_eq_zero (by omega)⟩

/-- The fields of a line are unique, so a lax line is not well formed. -/
theorem LaxLine.not_wellFormed (lax : LaxLine env line) : ¬ WellFormedLine env line o := by
  obtain ⟨timestamp, product, type, priceText, amountText, lead, rest, whole, proper, ends, -, -, wrong⟩ := lax
  rintro ⟨priceText', amountText', whole', proper', price, amount, -⟩
  have split := (fields_eq_iff (by simp)).mpr ⟨proper, lead, rest, whole, ends⟩
  have split' : fields 44 line = _ := (fields_eq_iff (by simp)).mpr ⟨proper', 0, [], by
    rw [List.replicate_zero, List.nil_append, List.append_nil, whole'], Or.inl rfl⟩
  have same := split.symm.trans split'
  rw [← same] at whole'
  obtain ⟨bare, ended⟩ := bare_of_eq whole whole'
  simp only [List.cons.injEq, and_true] at same
  obtain ⟨-, -, -, rfl, rfl⟩ := same
  rcases wrong with padded | more | mistyped | mistyped
  · exact padded bare
  · exact more ended
  · exact mistyped price
  · exact mistyped amount

/-- A lax line, from its tokens. -/
def isLax (env : Env R) (line : Str) : Bool :=
  match fields 44 line with
  | [timestamp, product, typeStr, priceText, amountText] =>
    (determineOrderType typeStr).isOk && (env.stod priceText).isSome && (env.stod amountText).isSome &&
      (line ≠ [44].intercalate [timestamp, product, typeStr, priceText, amountText] ||
        !decide (IsNumeral priceText) || !decide (IsNumeral amountText))
  | _ => false

theorem isLax_iff : isLax env line = true ↔ LaxLine env line := by
  unfold isLax
  constructor
  · intro lax
    split at lax
    · rename_i timestamp product typeStr priceText amountText split
      obtain ⟨proper, lead, rest, whole, ends⟩ := (fields_eq_iff (by simp)).mp split
      simp only [Bool.and_eq_true, Bool.or_eq_true, Bool.not_eq_true', decide_eq_true_eq,
        decide_eq_false_iff_not] at lax
      obtain ⟨⟨⟨known, priced⟩, weighed⟩, wrong⟩ := lax
      obtain ⟨type, typed⟩ : ∃ type, determineOrderType typeStr = .ok type := by
        cases typed : determineOrderType typeStr with
        | ok type => exact ⟨type, rfl⟩
        | error e =>
          rw [typed] at known
          cases known
      obtain rfl := determineOrderType_eq_ok.mp typed
      refine ⟨timestamp, product, type, priceText, amountText, lead, rest, whole, proper, ends, priced,
        weighed, ?_⟩
      rcases wrong with (padded | mistyped) | mistyped
      · by_contra tidy
        simp only [not_or, not_not] at tidy
        obtain ⟨rfl, rfl, -⟩ := tidy
        rw [List.replicate_zero, List.nil_append, List.append_nil] at whole
        exact padded whole
      · exact Or.inr (Or.inr (Or.inl mistyped))
      · exact Or.inr (Or.inr (Or.inr mistyped))
    · cases lax
  · rintro ⟨timestamp, product, type, priceText, amountText, lead, rest, whole, proper, ends, priced, weighed,
      wrong⟩
    rw [(fields_eq_iff (by simp)).mpr ⟨proper, lead, rest, whole, ends⟩]
    simp only [determineOrderType_eq_ok.mpr rfl, priced, weighed, Bool.and_eq_true, Bool.or_eq_true,
      Bool.not_eq_true', decide_eq_true_eq, decide_eq_false_iff_not]
    refine ⟨⟨⟨rfl, trivial⟩, trivial⟩, ?_⟩
    by_contra tidy
    simp only [not_or, not_not] at tidy
    obtain ⟨⟨whole', price⟩, amount⟩ := tidy
    obtain ⟨bare, ended⟩ := bare_of_eq whole whole'
    rcases wrong with padded | more | mistyped | mistyped
    · exact padded bare
    · exact more ended
    · exact mistyped price
    · exact mistyped amount

instance (env : Env R) (line : Str) : Decidable (LaxLine env line) := decidable_of_iff _ isLax_iff

open Classical in
/-- The lines of a file contribute in their order: one entry, with the next id, from every order
line, and nothing from the others. -/
theorem order_lines (env : Env R) (content : Str) (first : Nat)
    (narrow : ∀ line ∈ getlines 10 content, Narrow 44 line) :
    ∃ book entries, readCSV env (some content) first = .ok (book, first + entries.length) ∧
      List.Forall₂ (OrderLine env)
        ((getlines 10 content).filter fun line => ∃ o, OrderLine env line o) entries ∧
      entries.map (fun o => o.id) = List.range' first entries.length ∧
      ∀ p, book.get p [] = sortByTimestamp (entries.filter fun o => o.product = p) := by
  obtain ⟨entries, read, pairs, ids⟩ :=
    readEntries_lines env (getlines 10 content) narrow first
  obtain ⟨book, eq, lists⟩ := readCSV_of_readEntries read
  exact ⟨book, entries, eq, pairs, ids, lists⟩

open Classical in
/-- `readCSV` accepts exactly the well-formed lines of a file exactly when no line of it is lax. -/
theorem well_formed_lines_iff (env : Env R) (content : Str) (first : Nat)
    (narrow : ∀ line ∈ getlines 10 content, Narrow 44 line) :
    ReadsWellFormed env content first ↔ ∀ line ∈ getlines 10 content, ¬ LaxLine env line := by
  obtain ⟨book, entries, eq, pairs, ids, lists⟩ := order_lines env content first narrow
  constructor
  · rintro ⟨book', entries', eq', pairs', -⟩ line member lax
    -- as many lines are well formed as are accepted, so they are the same lines
    have counts : entries'.length = entries.length := by
      have := (Prod.mk.inj (Except.ok.inj (eq'.symm.trans eq))).2
      omega
    rw [← pairs'.length_eq, ← pairs.length_eq] at counts
    have same := (List.monotone_filter_right (getlines 10 content)
      (p := fun line => decide (∃ o, WellFormedLine env line o))
      (q := fun line => decide (∃ o, OrderLine env line o)) fun line formed => by
        obtain ⟨o, formed⟩ := of_decide_eq_true formed
        exact decide_eq_true ⟨o, formed.orderLine⟩).eq_of_length counts
    have accepted : line ∈ (getlines 10 content).filter fun line => ∃ o, OrderLine env line o :=
      List.mem_filter.mpr ⟨member, decide_eq_true lax.orderLine⟩
    rw [← same] at accepted
    obtain ⟨o, formed⟩ := of_decide_eq_true (List.mem_filter.mp accepted).2
    exact lax.not_wellFormed formed
  · intro strict
    have agree : (getlines 10 content).filter (fun line => ∃ o, WellFormedLine env line o) =
        (getlines 10 content).filter fun line => ∃ o, OrderLine env line o := by
      refine List.filter_congr fun line member => decide_eq_decide.mpr ⟨?_, ?_⟩
      · exact fun ⟨o, formed⟩ => ⟨o, formed.orderLine⟩
      · exact fun ⟨o, reads⟩ => ⟨o, reads.wellFormed (strict line member)⟩
    refine ⟨book, entries, eq, ?_, ids, lists⟩
    rw [agree]
    have both := (List.forall₂_and_left _ _).mpr
      ⟨fun line member => strict line (List.mem_of_mem_filter member), pairs⟩
    exact both.imp fun line o ⟨strict, reads⟩ => reads.wellFormed strict

/-- A file with two orders and a line that is none. -/
def tidyFile : Str := str "1,BTC/USD,bid,4,2\nnote,2x\n0,BTC/USD,ask,5,1\n"

theorem well_formed_lines_tidy : ReadsWellFormed exactEnv tidyFile 7 := by
  have short : ∀ line ∈ getlines 10 tidyFile, line.length < 2 ^ 31 := by decide +kernel
  exact (well_formed_lines_iff exactEnv tidyFile 7 fun line member =>
    narrow_of_length (short line member)).mpr (by decide +kernel)

/-- A file of three lines with a comma in front, a comma and something behind an empty field, and
something behind a numeral. -/
def laxFile : Str := str ",1,BTC/USD,bid,4,2\n2,BTC/USD,ask,5,1,,7\n3,BTC/USD,ask,6,1x\n"

/-- Each of the three lines gives an entry, and none is well formed. -/
theorem lax_lines_accepted :
    (readCSV exactEnv (some laxFile) 1).toOption.any (fun r => r.1.get (str "BTC/USD") [] =
      [⟨4, 2, str "1", str "BTC/USD", .bid, defaultUser, 1⟩,
        ⟨5, 1, str "2", str "BTC/USD", .ask, defaultUser, 2⟩,
        ⟨6, 1, str "3", str "BTC/USD", .ask, defaultUser, 3⟩]) = true ∧
    (∀ line ∈ getlines 10 laxFile, ∀ o, ¬ WellFormedLine exactEnv line o) ∧
    ¬ ReadsWellFormed exactEnv laxFile 1 := by
  have lax : ∀ line ∈ getlines 10 laxFile, LaxLine exactEnv line := by decide +kernel
  have unformed : ∀ line ∈ getlines 10 laxFile, ∀ o, ¬ WellFormedLine exactEnv line o :=
    fun line member o => (lax line member).not_wellFormed
  have accepted : (readCSV exactEnv (some laxFile) 1).toOption.any (fun r => r.1.get (str "BTC/USD") [] =
      [⟨4, 2, str "1", str "BTC/USD", .bid, defaultUser, 1⟩,
        ⟨5, 1, str "2", str "BTC/USD", .ask, defaultUser, 2⟩,
        ⟨6, 1, str "3", str "BTC/USD", .ask, defaultUser, 3⟩]) = true := by decide +kernel
  refine ⟨accepted, unformed, ?_⟩
  rintro ⟨book, entries, read, pairs, -, lists⟩
  obtain rfl : entries = [] := List.eq_nil_iff_forall_not_mem.mpr fun o member => by
    obtain ⟨line, listed, formed⟩ := ListFacts.forall₂_mem_right pairs member
    exact unformed line (List.mem_of_mem_filter listed) o formed
  rw [read] at accepted
  have empty := of_decide_eq_true accepted
  rw [lists] at empty
  exact absurd (congrArg List.length empty) (by rw [(sortByTimestamp_perm _).length_eq]; decide)

end CSVHandler

end MiniATS
