import MiniATS.Proofs.Exchange
import MiniATS.Proofs.PassCrossing

/-!
# One settlement

`processSale` is a `Ledger.Sale` on the balances of the store. `SaleEnd` lists its four
outcomes for a product with two tokens: the buyer or the seller is short, the cost is
negative and the seller's `insertCurrency` throws after both sides have delivered, or the
sale goes through. A product without two tokens fails before any wallet is touched.
-/

namespace MiniATS

open Crossing Ledger CSVHandler

namespace OrderBook

/-- How `processSale` ends: the balances, the flags and the result. -/
inductive SaleEnd (l : Ledger Str Str ℚ) (t : Ledger.Sale Str Str ℚ) :
    Ledger Str Str ℚ → SaleFlags → Except Exn Unit → Prop
  | buyerShort (short : ¬ BuyerPays l t) :
    SaleEnd l t l ⟨some false, none, none⟩ (.error buyerInsufficient)
  | sellerShort (pays : BuyerPays l t) (short : ¬ SellerDelivers l t) :
    SaleEnd l t (bought l t) ⟨some (decide (t.cost ≤ l.locked t.buyer t.quote)), some false, none⟩
      (.error sellerInsufficient)
  | negativeCost (pays : BuyerPays l t) (delivers : SellerDelivers l t) (negative : t.cost < 0) :
    SaleEnd l t (l.deliver t)
      ⟨some (decide (t.cost ≤ l.locked t.buyer t.quote)),
        some (decide (t.amount ≤ (bought l t).locked t.seller t.base)), none⟩
      (.error Wallet.negativeAmount)
  | settled (pays : BuyerPays l t) (delivers : SellerDelivers l t) (nonneg : 0 ≤ t.cost)
      (refunded : Option Bool)
      (refund : ∀ b, refunded = some b →
        b = decide (t.refund ≤ ((l.deliver t).credit t.seller t.quote t.cost).locked
          t.buyer t.quote)) :
    SaleEnd l t (l.settle t)
      ⟨some (decide (t.cost ≤ l.locked t.buyer t.quote)),
        some (decide (t.amount ≤ (bought l t).locked t.seller t.base)), refunded⟩ (.ok ())

variable {store : UserStore ℚ} {t : Match (EntryPtr ℚ) ℚ}

/-- With exact rationals a match trades a positive amount, and a refund of nothing changes nothing. -/
theorem exchange_end (base quote' : Str) (positive : 0 < t.amount)
    (crossed : t.ask.entry.price ≤ t.bid.entry.price)
    (buyer : store.userExists t.bid.entry.username)
    (seller : store.userExists t.ask.entry.username) {r : UserStore ℚ × SaleFlags × Except Exn Unit}
    (ran : exchange store t.bid.entry.username t.ask.entry.username base quote' t.amount
      (t.ask.entry.price * t.amount) t.bid.entry.price t.ask.entry.price = r) :
    SaleEnd store.ledger (saleOf base quote' t) r.1.ledger r.2.1 r.2.2 ∧
      UserStore.Within (partiesOf t) store r.1 := by
  obtain ⟨ends, within⟩ := exchange_ends buyer seller base quote' ran
  refine ⟨?_, within⟩
  generalize r.1.ledger = l', r.2.1 = flags, r.2.2 = result at ends ⊢
  cases ends with
  | buyerShort short => exact .buyerShort short
  | negativeAmount _ negative => exact absurd negative (not_lt_of_gt positive)
  | sellerShort pays _ short => exact .sellerShort pays short
  | negativeCost pays _ delivers negative => exact .negativeCost pays delivers negative
  | refunded pays _ delivers cost _ =>
    refine .settled pays delivers (not_lt.mp cost) _ ?_
    rintro b same
    exact (Option.some.inj same).symm
  | paid pays _ delivers cost notBetter =>
    have nothing : (saleOf base quote' t).refund = 0 := by
      have same : t.bid.entry.price = t.ask.entry.price := le_antisymm (not_lt.mp notBetter) crossed
      simp [saleOf, same]
    have whole : store.ledger.settle (saleOf base quote' t) = store.ledger.pay (saleOf base quote' t) := by
      rw [Ledger.settle, nothing, unlock_zero]
    rw [← whole]
    exact .settled pays delivers (not_lt.mp cost) none (by simp)

/-- What settling a match does to the balances, by the tokens of the product. -/
def Exchanged (product : Str) (l : Ledger Str Str ℚ) (t : Match (EntryPtr ℚ) ℚ)
    (l' : Ledger Str Str ℚ) (flags : SaleFlags) (result : Except Exn Unit) : Prop :=
  match pairTokens invalidSaleProduct product with
  | .error e => l' = l ∧ flags = ⟨none, none, none⟩ ∧ result = .error e
  | .ok (base, quote') => SaleEnd l (saleOf base quote' t) l' flags result

/-- The two states of a match have the same users, up to `default`, and the same wallets but
those of its parties. -/
structure Framed (t : Match (EntryPtr ℚ) ℚ) (st st' : PassState ℚ) : Prop where
  users : ∀ v, st'.userStore.userExists v = st.userStore.userExists v ∨
    v = defaultUser ∧ st'.userStore.userExists v
  wallets : ∀ v, v ≠ t.bid.entry.username → v ≠ t.ask.entry.username →
    st'.userStore.wallet v = st.userStore.wallet v
  nextId : st.nextId ≤ st'.nextId

/-- How a match ends. Either a party is not a user of the store, and nothing has happened; or
the sale is recorded and the wallets are updated as far as `processSale` gets. -/
inductive MatchEnd (product : Str) (st : PassState ℚ) (t : Match (EntryPtr ℚ) ℚ) :
    PassState ℚ → Verdict Exn → Prop
  | refused {st' : PassState ℚ} (u : Str)
    (party : u = t.bid.entry.username ∨ u = t.ask.entry.username) (user : u ≠ defaultUser)
    (unknown : st.userStore.userExists u = false)
    (same : st'.userStore.wallet = st.userStore.wallet) (trades : st'.trades = st.trades)
    (sales : st'.sales = st.sales) (framed : Framed t st st') :
    MatchEnd product st t st' (.refused (UserStore.userNotFound u))
  | made {st' : PassState ℚ} {flags : SaleFlags} {sale : OrderBookEntry ℚ}
    {result : Except Exn Unit}
    (parties : ∀ u, u = t.bid.entry.username ∨ u = t.ask.entry.username → u ≠ defaultUser →
      st.userStore.userExists u)
    (trades : st'.trades = st.trades ++ [(⟨t.bid, t.ask, t.amount⟩, flags)])
    (sales : st'.sales = st.sales ++ [sale])
    (terms : sale.price = t.ask.entry.price ∧ sale.amount = t.amount)
    (exchanged : Exchanged product st.userStore.ledger t st'.userStore.ledger flags result)
    (framed : Framed t st st') :
    MatchEnd product st t st' (verdictOf result)

/-- Every match ends as `MatchEnd` says. -/
theorem settleMatch_end (product currentTimestamp : Str) (st : PassState ℚ)
    (positive : 0 < t.amount) (crossed : t.ask.entry.price ≤ t.bid.entry.price) :
    MatchEnd product st t (settleMatch product currentTimestamp st t).1
      (settleMatch product currentTimestamp st t).2 := by
  have ends := beginSale_end product currentTimestamp st t.bid t.ask
  unfold settleMatch
  generalize beginSale st product currentTimestamp t.bid t.ask = r at ends ⊢
  obtain ⟨st₁, began⟩ := r
  cases ends with
  | refused u party user unknown begun =>
    exact .refused u party user unknown begun.wallets begun.trades begun.sales
      ⟨begun.users, fun v _ _ => by rw [begun.wallets], begun.nextId⟩
  | @begun sale parties buyer seller begun price isProduct =>
    have ledger := UserStore.ledger_of_wallet begun.wallets
    have trades := congrArg (· ++ [((⟨t.bid, t.ask, t.amount⟩ : Trade ℚ),
      (processSale st₁.userStore t.bid.entry.username t.ask.entry.username (sale.withAmount t.amount)
        t.bid.entry.price t.ask.entry.price).2.1)]) begun.trades
    have sales := congrArg (· ++ [sale.withAmount t.amount]) begun.sales
    simp only [settle, processSale, OrderBookEntry.withAmount_product, isProduct] at trades ⊢
    cases pair : pairTokens invalidSaleProduct product with
    | error e =>
      simp only [pair] at trades ⊢
      refine .made parties trades sales ⟨price, rfl⟩ ?_
        ⟨begun.users, fun v _ _ => by rw [begun.wallets], begun.nextId⟩
      unfold Exchanged
      rw [pair]
      exact ⟨ledger, rfl, rfl⟩
    | ok tokens =>
      obtain ⟨base, quote'⟩ := tokens
      simp only [pair, OrderBookEntry.withAmount_price, OrderBookEntry.withAmount_amount, price] at trades ⊢
      obtain ⟨exchanged, within⟩ := exchange_end base quote' positive crossed buyer seller rfl
      refine .made parties trades sales ⟨price, rfl⟩ ?_
        ⟨fun v => ?_, fun v notBuyer notSeller => ?_, begun.nextId⟩
      · simp only [Exchanged, pair]
        rw [ledger] at exchanged
        exact exchanged
      · simp only
        rw [within.users]
        exact begun.users v
      · simp only
        rw [within.wallets v (by simp [partiesOf, notBuyer, notSeller]), begun.wallets]

end OrderBook

end MiniATS
