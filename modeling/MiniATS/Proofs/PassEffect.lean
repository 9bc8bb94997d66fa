import MiniATS.Proofs.Sane

/-!
# What a pass does, as a function of the list

Over covered orders the outcome of a pass is decided by the list of the product alone: the matches
are those of the plan, they fail only at a negative price or at a product without two tokens, and
what is left of the orders depends on the matches made. The store enters in the balances only,
and there the effect of the pass is added to what was there.
-/

namespace MiniATS

open Crossing Ledger CSVHandler OrderBookEntry OrderBook

namespace OrderBook

/-- The matches and the result of a pass over covered orders do not depend on the store. -/
theorem PassRun.unique {product : Str} {store store' : UserStore ℚ}
    {plan made made' : List (Match (EntryPtr ℚ) ℚ)} {l l' : Ledger Str Str ℚ}
    {result result' : Except Exn Unit} (run : PassRun product store plan made l result)
    (run' : PassRun product store' plan made' l' result') : made = made' ∧ result = result' := by
  cases run with
  | idle none' =>
    cases run' with
    | idle _ => exact ⟨rfl, rfl⟩
    | complete _ _ => exact ⟨none'.symm, rfl⟩
    | negative _ first _ => cases none'.symm.trans first
    | unpaired _ first _ _ => cases none'.symm.trans first
  | complete pair prices =>
    cases run' with
    | idle none' => exact ⟨none', rfl⟩
    | complete _ _ => exact ⟨rfl, rfl⟩
    | negative _ first price => exact absurd (prices _ (by simp [first])) (not_le.mpr price)
    | unpaired pair' _ _ _ => cases pair.symm.trans pair'
  | negative pair first price =>
    cases run' with
    | idle none' => cases none'.symm.trans first
    | complete _ prices => exact absurd (prices _ (by simp [first])) (not_le.mpr price)
    | negative _ first' _ =>
      obtain ⟨rfl, -⟩ := List.cons.inj (first.symm.trans first')
      exact ⟨rfl, rfl⟩
    | unpaired pair' _ _ _ => cases pair.symm.trans pair'
  | unpaired pair first _ _ =>
    cases run' with
    | idle none' => cases none'.symm.trans first
    | complete pair' _ => cases pair.symm.trans pair'
    | negative pair' _ _ => cases pair.symm.trans pair'
    | unpaired pair' first' _ _ =>
      obtain ⟨rfl, -⟩ := List.cons.inj (first.symm.trans first')
      obtain rfl := Except.error.inj (pair.symm.trans pair')
      exact ⟨rfl, rfl⟩

/-- What the matches of a pass pay out, the last one as far as it got. -/
def gained (product : Str) (made : List (Match (EntryPtr ℚ) ℚ)) (result : Except Exn Unit) :
    Str → Str → ℚ :=
  match pairTokens invalidSaleProduct product with
  | .error _ => 0
  | .ok (base, quote') =>
    match result with
    | .ok _ => ((made.map (saleOf base quote')).map Sale.received).sum
    | .error _ => (made.map (fun t => single t.bid.entry.username base t.amount)).sum

theorem PassRun.available {product : Str} {l : List (OrderBookEntry ℚ)} {store : UserStore ℚ}
    {std : StdSort (EntryPtr ℚ)} {made : List (Match (EntryPtr ℚ) ℚ)} {l' : Ledger Str Str ℚ}
    {result : Except Exn Unit} (affordable : Affordable std product l store)
    (run : PassRun product store (passPlan std l) made l' result) {u : Str} (user : u ≠ defaultUser)
    (c : Str) : l'.available u c = store.available u c + gained product made result u c := by
  cases run with
  | idle none' =>
    simp only [gained]
    cases pairTokens invalidSaleProduct product <;> simp
  | complete pair prices =>
    simp only [gained, pair]
    exact (settle_foldl_of_covered (plan_amounts _ _) (plan_nonneg affordable _ _)
      (plan_covers affordable pair) user c).1
  | @negative base quote' t ts pair first price =>
    have inPlan : t ∈ passPlan std l := by simp [first]
    obtain ⟨amount, refund⟩ := (proper_of_sound (passPlan_sound inPlan)).sale base quote'
    have delivered := (deliver_of_covered amount refund (head_covers affordable pair first) user c).1
    rw [delivered]
    simp [gained, pair, saleOf]
  | unpaired pair first buyer seller => simp [gained, pair]

/-- The list of the product after a pass that leaves the orders `written`. -/
def leftOf (error : Option Exn) (written : List (OrderBookEntry ℚ)) : List (OrderBookEntry ℚ) :=
  match error with
  | none => written.filter (fun o => ¬ o.amount ≤ 0)
  | some _ => written

/-- The orders that the pass takes out of the list and the index. -/
def takenOf (error : Option Exn) (written : List (OrderBookEntry ℚ)) : List (OrderBookEntry ℚ) :=
  match error with
  | none => written.filter (fun o => o.amount ≤ 0)
  | some _ => []

/-- The sales that the pass finalises, by product, price and amount. -/
def soldOf (product : Str) (error : Option Exn) (made : List (Match (EntryPtr ℚ) ℚ)) :
    List (Str × ℚ × ℚ) :=
  match error with
  | none => made.map (fun t => (product, t.ask.entry.price, t.amount))
  | some _ => []

end OrderBook

section Effect

variable (env : Env ℚ) (std : StdSort (EntryPtr ℚ)) (now : Int) (srv : Server ℚ) (product : Str)

theorem matchProduct_orders (p : Str) :
    (srv.matchProduct env std now product).1.orderBook.orders p =
      if p = product then
        leftOf (srv.passCross env std now product).error (srv.passWritten env std now product)
      else srv.orderBook.orders p := by
  obtain ⟨middle, ⟨-, -, lists, -⟩, -, -, -, ends⟩ := matchAsksToBids_cross std srv.orderBook product
    (Server.getCurrentTimestamp env now) srv.userStore srv.nextId
  unfold Server.passCross Server.passWritten Server.matchProduct leftOf
  dsimp only
  generalize (OrderBook.passCross std (srv.orderBook.orders product) product
    (Server.getCurrentTimestamp env now) srv.userStore srv.nextId).error = error at ends ⊢
  cases error with
  | some e =>
    obtain ⟨-, book, -⟩ := ends
    rw [book, lists]
  | none =>
    obtain ⟨-, book, -⟩ := ends
    rw [book, removeMatchedOrders_orders, lists]
    by_cases here : p = product
    · rw [if_pos here, if_pos here, if_pos here]
    · rw [if_neg here, if_neg here, if_neg here]

theorem matchProduct_index (u : Str) :
    (srv.matchProduct env std now product).1.orderBook.userOrders.get u [] =
      (srv.orderBook.userOrders.get u []).filter (fun i => ¬ ∃ o ∈ takenOf
        (srv.passCross env std now product).error (srv.passWritten env std now product),
        o.username = u ∧ o.id = i) := by
  obtain ⟨middle, ⟨-, -, lists, index⟩, -, -, -, ends⟩ := matchAsksToBids_cross std srv.orderBook product
    (Server.getCurrentTimestamp env now) srv.userStore srv.nextId
  unfold Server.passCross Server.passWritten Server.matchProduct takenOf
  dsimp only
  generalize (OrderBook.passCross std (srv.orderBook.orders product) product
    (Server.getCurrentTimestamp env now) srv.userStore srv.nextId).error = error at ends ⊢
  cases error with
  | some e =>
    obtain ⟨-, book, -⟩ := ends
    rw [book, index]
    simp
  | none =>
    obtain ⟨-, book, -⟩ := ends
    rw [book, get_removeMatchedOrders, lists, if_pos rfl, index]
    apply List.filter_congr
    intro i _
    simp [List.mem_filter, and_assoc]

/-- The sales a state has finalised, by product, price and amount. -/
def OrderBook.saleTerms (book : OrderBook ℚ) : List (Str × ℚ × ℚ) :=
  book.finalizedSales.map (fun sale => (sale.product, sale.price, sale.amount))

theorem matchProduct_sales :
    (srv.matchProduct env std now product).1.orderBook.saleTerms = srv.orderBook.saleTerms ++
      soldOf product (srv.passCross env std now product).error
        (srv.passCross env std now product).made := by
  have ofProduct : ∀ sale ∈ (srv.passCross env std now product).state.sales,
      sale.product = product := by
    have loops := askLoop_state product (Server.getCurrentTimestamp env now)
      (fun st st' : PassState ℚ => ∀ sale ∈ st'.sales, sale ∈ st.sales ∨ sale.product = product)
      (fun _ _ => Or.inl)
      (fun first second sale member => (second sale member).elim (first sale) Or.inr)
      (bidRound_sales product (Server.getCurrentTimestamp env now))
      (sortedAsks std (srv.orderBook.orders product)) (sortedBids std (srv.orderBook.orders product))
      ⟨srv.userStore, srv.nextId, [], []⟩
    rw [askLoop_eq_cross] at loops
    exact fun sale member => (loops sale member).resolve_left (List.not_mem_nil)
  have terms := (passCross_framed env std now srv product).sales
  obtain ⟨middle, -, -, -, -, ends⟩ := matchAsksToBids_cross std srv.orderBook product
    (Server.getCurrentTimestamp env now) srv.userStore srv.nextId
  unfold Server.passCross at ofProduct terms ⊢
  unfold Server.matchProduct soldOf saleTerms
  dsimp only
  generalize OrderBook.passCross std (srv.orderBook.orders product) product
    (Server.getCurrentTimestamp env now) srv.userStore srv.nextId = r at ends ofProduct terms ⊢
  cases failed : r.error with
  | some e =>
    rw [failed] at ends
    obtain ⟨-, book, sales⟩ := ends
    rw [book, sales, List.append_nil]
  | none =>
    rw [failed] at ends
    obtain ⟨-, book, sales⟩ := ends
    rw [book, removeMatchedOrders_finalizedSales, sales, List.map_append]
    have named : r.state.sales.map (fun sale => (sale.product, sale.price, sale.amount)) =
        (r.state.sales.map (fun sale => (sale.price, sale.amount))).map (fun x => (product, x)) := by
      rw [List.map_map]
      exact List.map_congr_left fun sale member => by simp [ofProduct sale member]
    rw [named, terms]
    simp

section Balance

variable {srv product}
variable (covered : Covered product (srv.orderBook.orders product) srv.userStore) {u : Str}
  (user : u ≠ defaultUser) (c : Str)

include covered user

/-- A pass adds to the balances of a user what its matches decide. -/
theorem matchProduct_balances :
    let r := srv.passCross env std now product
    (srv.matchProduct env std now product).1.userStore.available u c =
        srv.userStore.available u c + gained product r.made (ofOutcome r).result u c ∧
      (srv.matchProduct env std now product).1.userStore.locked u c =
        srv.userStore.locked u c + (unspent product r.made (ofOutcome r).result u c -
          (r.made.map (fun t => owedBy product t u c)).sum) := by
  have affordable := covered.affordable std
  have run := passCross_ran env std now affordable
  have locked := run.locked affordable user c
  dsimp only
  rw [matchProduct_userStore]
  refine ⟨run.available affordable user c, ?_⟩
  rw [UserStore.ledger_locked] at locked
  linarith

end Balance

end Effect

section Alike

variable (env : Env ℚ) (std : StdSort (EntryPtr ℚ)) (now now' : Int) {srv srv' : Server ℚ}
  {product : Str}

/-- Two passes on the same list of covered orders make the same matches, end alike and leave the
same orders, whatever else the servers hold. -/
theorem passes_alike (same : srv'.orderBook.orders product = srv.orderBook.orders product)
    (covered : Covered product (srv.orderBook.orders product) srv.userStore)
    (covered' : Covered product (srv'.orderBook.orders product) srv'.userStore) :
    (srv'.passCross env std now' product).made = (srv.passCross env std now product).made ∧
      (srv'.passCross env std now' product).error = (srv.passCross env std now product).error ∧
      srv'.passWritten env std now' product = srv.passWritten env std now product := by
  have run := passCross_ran env std now (covered.affordable std)
  have run' := passCross_ran env std now' (covered'.affordable std)
  rw [same] at run'
  obtain ⟨made, result⟩ := run'.unique run
  have error : (srv'.passCross env std now' product).error =
      (srv.passCross env std now product).error := by
    unfold ofOutcome at result
    dsimp only at result
    cases failed : (srv.passCross env std now product).error <;>
      cases failed' : (srv'.passCross env std now' product).error <;>
      simp_all
  refine ⟨made, error, ?_⟩
  unfold Server.passCross OrderBook.passCross at made
  unfold Server.passWritten OrderBook.passWritten crossWritten
  rw [same] at made ⊢
  obtain ⟨asks, bids⟩ := cross_of_made made
  unfold crossList
  rw [asks, bids]

end Alike

end MiniATS
