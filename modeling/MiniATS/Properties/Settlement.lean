import MiniATS.Properties.ReservedFunds

/-!
# Settlement

What a pass that returns does to the balances of the users, by the trades it made, and what the
sales it returns say of them.
-/

namespace MiniATS

open Crossing Ledger CSVHandler OrderBookEntry OrderBook

namespace Trade

/-- The trades in which a user buys. -/
def buysOf (trades : List (Trade ℚ)) (u : Str) : List (Trade ℚ) :=
  trades.filter (fun t => t.bid.entry.username = u)

/-- The trades in which a user sells. -/
def sellsOf (trades : List (Trade ℚ)) (u : Str) : List (Trade ℚ) :=
  trades.filter (fun t => t.ask.entry.username = u)

end Trade

section Sums

variable {base quote' : Str}

private theorem sum_filter_eq {α : Type} (p : α → Prop) [DecidablePred p] (f : α → ℚ) (l : List α) :
    ((l.filter (fun a => p a)).map f).sum = (l.map (fun a => if p a then f a else 0)).sum := by
  induction l with
  | nil => rfl
  | cons a l ih => by_cases holds : p a <;> simp [holds, ih]

private theorem single_split (v u c d : Str) (x : ℚ) :
    single v d x u c = if v = u then if c = d then x else 0 else 0 := by
  rw [single_apply]
  by_cases same : v = u
  · simp only [same, true_and, if_true]
  · simp only [same, Ne.symm same, false_and, if_false]

/-- What the matches pay a user, split by the side the user is on. -/
theorem sum_received (ts : List (Match (EntryPtr ℚ) ℚ)) (u c : Str) :
    ((ts.map (saleOf base quote')).map Sale.received).sum u c =
      ((Trade.buysOf (ts.map tradeOf) u).map fun t =>
        (if c = base then t.amount else 0) +
          if c = quote' then (t.bid.entry.price - t.ask.entry.price) * t.amount else 0).sum +
      ((Trade.sellsOf (ts.map tradeOf) u).map fun t =>
        if c = quote' then t.ask.entry.price * t.amount else 0).sum := by
  unfold Trade.buysOf Trade.sellsOf
  rw [sum_filter_eq, sum_filter_eq]
  induction ts with
  | nil => simp
  | cons t ts ih =>
    simp only [List.map_cons, List.sum_cons, Pi.add_apply, ih, Sale.received, saleOf, single_split,
      tradeOf]
    by_cases buyer : t.bid.entry.username = u
    · simp only [buyer, if_true]
      ring
    · simp only [buyer, if_false]
      ring

/-- What the matches take from a user's locked balance, split by the side the user is on. -/
theorem sum_owed (ts : List (Match (EntryPtr ℚ) ℚ)) (u c : Str) :
    ((ts.map (saleOf base quote')).map Sale.owed).sum u c =
      ((Trade.buysOf (ts.map tradeOf) u).map fun t =>
        if c = quote' then t.bid.entry.price * t.amount else 0).sum +
      ((Trade.sellsOf (ts.map tradeOf) u).map fun t => if c = base then t.amount else 0).sum := by
  unfold Trade.buysOf Trade.sellsOf
  rw [sum_filter_eq, sum_filter_eq]
  induction ts with
  | nil => simp
  | cons t ts ih =>
    have whole : t.ask.entry.price * t.amount + (t.bid.entry.price - t.ask.entry.price) * t.amount =
        t.bid.entry.price * t.amount := by ring
    simp only [List.map_cons, List.sum_cons, Pi.add_apply, ih, Sale.owed, saleOf, single_split,
      tradeOf, whole]
    ring

end Sums

namespace System

variable {env : Env ℚ} {s : System ℚ}

/-- A pass that returns has an untroubled crossing. -/
theorem passCross_of_returned {std : StdSort (EntryPtr ℚ)} {now : Int} {product : Str}
    {sales : List (OrderBookEntry ℚ)} (returned : (passOf env s std now product).result = .ok sales) :
    (s.server.passCross env std now product).error = none ∧
      sales = (s.server.passCross env std now product).state.sales := by
  rw [(passOf_cross std now product env s).2] at returned
  cases ended : (s.server.passCross env std now product).error with
  | none =>
    rw [ended] at returned
    exact ⟨rfl, (Except.ok.inj returned).symm⟩
  | some e =>
    rw [ended] at returned
    cases returned

/-- A pass that returns pays every user but `default` for the trades it made, and leaves the
wallets of all who took no part as they were. It returns one sale for each trade. -/
theorem settlement_matches_trades (env : Env ℚ) {filename : Str} {file : Option Str}
    {book : OrderBook ℚ} {nextId : Nat}
    (made : OrderBook.make env filename file 1 = .ok (book, nextId)) (store : UserStore ℚ)
    (balances : ∀ u c, 0 ≤ store.available u c ∧ 0 ≤ store.locked u c) (events : List (Event ℚ))
    (std : StdSort (EntryPtr ℚ)) (now : Int) (product : Str) {sales : List (OrderBookEntry ℚ)}
    (returned : (passOf env (run env (start book nextId store) events) std now product).result =
      .ok sales) :
    let s := run env (start book nextId store) events
    let s' := step env s (.pass std now product)
    let trades := (passOf env s std now product).trades.map Prod.fst
    (∀ base quote', pairTokens invalidSaleProduct product = .ok (base, quote') →
      ∀ u, u ≠ defaultUser → ∀ c,
        s'.server.userStore.available u c = s.server.userStore.available u c +
          ((Trade.buysOf trades u).map fun t =>
            (if c = base then t.amount else 0) +
              if c = quote' then (t.bid.entry.price - t.ask.entry.price) * t.amount else 0).sum +
          ((Trade.sellsOf trades u).map fun t =>
            if c = quote' then t.ask.entry.price * t.amount else 0).sum ∧
        s'.server.userStore.locked u c = s.server.userStore.locked u c -
          ((Trade.buysOf trades u).map fun t =>
            if c = quote' then t.bid.entry.price * t.amount else 0).sum -
          ((Trade.sellsOf trades u).map fun t => if c = base then t.amount else 0).sum) ∧
    (∀ u, Trade.buysOf trades u = [] → Trade.sellsOf trades u = [] →
      s'.server.userStore.wallet u = s.server.userStore.wallet u) ∧
    sales.map (fun sale => (sale.price, sale.amount)) =
      trades.map (fun t => (t.ask.entry.price, t.amount)) := by
  intro s s' trades
  have secured : Secured s := (Secured.start (make_loaded made) fun u _ c => (balances u c).2).run events
  have affordable := (secured.covered product).affordable std
  have run := passCross_ran env std now affordable
  have frame := passCross_framed env std now s.server product
  obtain ⟨ended, rfl⟩ := passCross_of_returned (s := s) returned
  have result : (ofOutcome (s.server.passCross env std now product)).result = .ok () := by
    simp only [ofOutcome, ended]
  rw [result] at run
  have isTrades : trades = (s.server.passCross env std now product).made.map tradeOf := by
    show (passOf env s std now product).trades.map Prod.fst = _
    rw [(passOf_cross std now product env s).1, frame.trades]
    rfl
  have after : s'.server.userStore = (s.server.passCross env std now product).state.userStore :=
    matchProduct_userStore env std now s.server product
  refine ⟨fun base quote' pair u user c => ?_, fun u buys sells => ?_, ?_⟩
  · have available := run.available_of_ok affordable pair user c
    have locked := run.locked affordable user c
    rw [← sum_owedBy pair, sum_owed, unspent_ok, Pi.zero_apply, Pi.zero_apply, add_zero] at locked
    rw [sum_received] at available
    rw [isTrades, after]
    refine ⟨?_, ?_⟩
    · rw [add_assoc]
      exact available
    · rw [← locked, UserStore.ledger_locked]
      ring
  · rw [after]
    refine frame.wallets u fun t member => ⟨?_, ?_⟩
    · rintro rfl
      have buy : tradeOf t ∈ Trade.buysOf trades t.bid.entry.username := by
        rw [isTrades]
        exact List.mem_filter.mpr ⟨List.mem_map_of_mem member, by simp [tradeOf]⟩
      rw [buys] at buy
      cases buy
    · rintro rfl
      have sell : tradeOf t ∈ Trade.sellsOf trades t.ask.entry.username := by
        rw [isTrades]
        exact List.mem_filter.mpr ⟨List.mem_map_of_mem member, by simp [tradeOf]⟩
      rw [sells] at sell
      cases sell
  · rw [frame.sales, isTrades, List.map_map]
    rfl

private theorem exists_of_isOk {ε α : Type} : ∀ {r : Except ε α}, r.isOk → ∃ a, r = .ok a
  | .ok a, _ => ⟨a, rfl⟩

/-- Bob bid six dollars for the bitcoin that Alice sold for four: two of them come back. -/
theorem settlement_matches_trades_sale :
    let s := run exactEnv fresh ((saleAt "4" "6").take 6)
    (step exactEnv s (.pass (StdSort.insertion _) 0 (str "BTC/USD"))).server.userStore.available
      (str "bob") (str "USD") = s.server.userStore.available (str "bob") (str "USD") + 2 := by
  obtain ⟨sales, returned⟩ : ∃ sales, (passOf exactEnv (run exactEnv fresh ((saleAt "4" "6").take 6))
      (StdSort.insertion _) 0 (str "BTC/USD")).result = .ok sales :=
    exists_of_isOk (by decide +kernel)
  have paid := ((settlement_matches_trades exactEnv (fresh_book exactEnv) .empty
    (fun _ _ => ⟨le_rfl, le_rfl⟩) ((saleAt "4" "6").take 6) (StdSort.insertion _) 0 (str "BTC/USD")
    returned).1 (str "BTC") (str "USD") (by decide +kernel) (str "bob") (by decide) (str "USD")).1
  exact paid.trans (by decide +kernel)

end System

end MiniATS
