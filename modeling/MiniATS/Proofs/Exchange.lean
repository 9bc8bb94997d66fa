import MiniATS.Misc.Crossing
import MiniATS.Proofs.PassLists
import MiniATS.Proofs.WalletLedger

/-!
# One exchange

What a match does to the store, for any numbers: the two users are looked up (`beginSale_end`), and
`exchange` acts on the balances as a `Ledger.Sale`, stage by stage: the buyer pays and has the
goods, the seller delivers (`handOver_end`), is paid, and the buyer is refunded (`payout_end`).
`ExchangeEnd` lists where it can stop.
-/

namespace MiniATS

open Crossing Ledger CSVHandler

namespace OrderBook

variable {R : Type} [Zero R]

/-- What a match leaves of a pass before anything is settled: the same users, up to `default`, and
nothing else has changed but the counter. -/
structure Begun (st st' : PassState R) : Prop where
  users : ∀ v, st'.userStore.userExists v = st.userStore.userExists v ∨
    v = defaultUser ∧ st'.userStore.userExists v
  wallets : st'.userStore.wallet = st.userStore.wallet
  trades : st'.trades = st.trades
  sales : st'.sales = st.sales
  nextId : st.nextId ≤ st'.nextId

/-- How the beginning of a match ends: a party is not a user of the store, or both are. -/
inductive BeginEnd (product : Str) (st : PassState R) (bid ask : EntryPtr R) :
    PassState R → Except Exn (OrderBookEntry R) → Prop
  | refused {st' : PassState R} (u : Str) (party : u = bid.entry.username ∨ u = ask.entry.username)
    (user : u ≠ defaultUser) (unknown : st.userStore.userExists u = false) (begun : Begun st st') :
    BeginEnd product st bid ask st' (.error (UserStore.userNotFound u))
  | begun {st' : PassState R} {sale : OrderBookEntry R}
    (parties : ∀ u, u = bid.entry.username ∨ u = ask.entry.username → u ≠ defaultUser →
      st.userStore.userExists u)
    (buyer : st'.userStore.userExists bid.entry.username)
    (seller : st'.userStore.userExists ask.entry.username) (begun : Begun st st')
    (price : sale.price = ask.entry.price) (isProduct : sale.product = product) :
    BeginEnd product st bid ask st' (.ok sale)

private theorem users_of_getUser {store store' : UserStore R} {u : Str}
    (found : store.getUser u = .ok store') (v : Str) :
    store'.userExists v = store.userExists v ∨ v = defaultUser ∧ store'.userExists v := by
  by_cases known : store.userExists u
  · rw [UserStore.getUser_of_known known] at found
    obtain rfl := Except.ok.inj found
    exact Or.inl rfl
  · by_cases isDefault : u = defaultUser
    · obtain ⟨there, users, -⟩ := UserStore.getUser_ok found
      by_cases same : v = u
      · subst same
        exact Or.inr ⟨isDefault, there⟩
      · left
        rw [users]
        simp [same]
    · rw [UserStore.getUser_of_unknown (by simpa using known) isDefault] at found
      cases found

theorem beginSale_end (product currentTimestamp : Str) (st : PassState R) (bid ask : EntryPtr R) :
    BeginEnd product st bid ask (beginSale st product currentTimestamp bid ask).1
      (beginSale st product currentTimestamp bid ask).2 := by
  unfold beginSale
  cases buyer : st.userStore.getUser bid.entry.username with
  | error e =>
    obtain ⟨unknown, user, rfl⟩ := UserStore.getUser_error buyer
    exact .refused _ (Or.inl rfl) user unknown ⟨fun _ => Or.inl rfl, rfl, rfl, rfl, le_rfl⟩
  | ok store₁ =>
    obtain ⟨known₁, -, same₁⟩ := UserStore.getUser_ok buyer
    have users₁ := users_of_getUser buyer
    simp only
    cases seller : store₁.getUser ask.entry.username with
    | error e =>
      obtain ⟨unknown, user, rfl⟩ := UserStore.getUser_error seller
      have unknown' : st.userStore.userExists ask.entry.username = false := by
        rcases users₁ ask.entry.username with same | ⟨isDefault, -⟩
        · rw [← same, unknown]
        · exact absurd isDefault user
      exact .refused _ (Or.inr rfl) user unknown' ⟨users₁, same₁, rfl, rfl, le_rfl⟩
    | ok store₂ =>
      obtain ⟨known₂, users₂, same₂⟩ := UserStore.getUser_ok seller
      have users : ∀ v, store₂.userExists v = st.userStore.userExists v ∨
          v = defaultUser ∧ store₂.userExists v := by
        intro v
        rcases users_of_getUser seller v with same | created
        · rcases users₁ v with same' | ⟨isDefault, there⟩
          · exact Or.inl (same.trans same')
          · exact Or.inr ⟨isDefault, same.trans there⟩
        · exact Or.inr created
      have known₂' : store₂.userExists bid.entry.username := by
        rw [users₂, known₁, Bool.or_true]
      refine .begun ?_ known₂' known₂ ⟨users, same₂.trans same₁, rfl, rfl, Nat.le_succ _⟩ rfl rfl
      rintro u party user
      rcases users u with same | ⟨isDefault, -⟩
      · rw [← same]
        rcases party with rfl | rfl
        · exact known₂'
        · exact known₂
      · exact absurd isDefault user

variable [Add R] [Sub R] [Mul R] [LT R] [LE R] [DecidableLT R] [DecidableLE R]

/-- The sale a match stands for. -/
def saleOf (base quote' : Str) (t : Match (EntryPtr R) R) : Ledger.Sale Str Str R where
  buyer := t.bid.entry.username
  seller := t.ask.entry.username
  base := base
  quote := quote'
  amount := t.amount
  cost := t.ask.entry.price * t.amount
  refund := (t.bid.entry.price - t.ask.entry.price) * t.amount

/-- The balances when the buyer has paid and has the goods. -/
def bought (l : Ledger Str Str R) (t : Ledger.Sale Str Str R) : Ledger Str Str R :=
  (l.spend t.buyer t.quote t.cost).credit t.buyer t.base t.amount

/-- The buyer can pay, or is `default`, of whom this is not asked. -/
def BuyerPays (l : Ledger Str Str R) (t : Ledger.Sale Str Str R) : Prop :=
  t.buyer ≠ defaultUser → t.cost ≤ l.locked t.buyer t.quote

/-- The seller can deliver, or is `default`, of whom this is not asked. -/
def SellerDelivers (l : Ledger Str Str R) (t : Ledger.Sale Str Str R) : Prop :=
  t.seller ≠ defaultUser → t.amount ≤ (bought l t).locked t.seller t.base

/-- Where an exchange ends, which refunds the buyer or does not: the balances, the flags and the
result. -/
inductive ExchangeEnd (l : Ledger Str Str R) (t : Ledger.Sale Str Str R) (refunds : Prop) :
    Ledger Str Str R → SaleFlags → Except Exn Unit → Prop
  | buyerShort (short : ¬ BuyerPays l t) :
    ExchangeEnd l t refunds l ⟨some false, none, none⟩ (.error buyerInsufficient)
  | negativeAmount (pays : BuyerPays l t) (negative : t.amount < 0) :
    ExchangeEnd l t refunds (l.spend t.buyer t.quote t.cost)
      ⟨some (decide (t.cost ≤ l.locked t.buyer t.quote)), none, none⟩ (.error Wallet.negativeAmount)
  | sellerShort (pays : BuyerPays l t) (goods : ¬ t.amount < 0) (short : ¬ SellerDelivers l t) :
    ExchangeEnd l t refunds (bought l t)
      ⟨some (decide (t.cost ≤ l.locked t.buyer t.quote)), some false, none⟩ (.error sellerInsufficient)
  | negativeCost (pays : BuyerPays l t) (goods : ¬ t.amount < 0) (delivers : SellerDelivers l t)
    (negative : t.cost < 0) :
    ExchangeEnd l t refunds (l.deliver t)
      ⟨some (decide (t.cost ≤ l.locked t.buyer t.quote)),
        some (decide (t.amount ≤ (bought l t).locked t.seller t.base)), none⟩
      (.error Wallet.negativeAmount)
  | refunded (pays : BuyerPays l t) (goods : ¬ t.amount < 0) (delivers : SellerDelivers l t)
    (cost : ¬ t.cost < 0) (better : refunds) :
    ExchangeEnd l t refunds (l.settle t)
      ⟨some (decide (t.cost ≤ l.locked t.buyer t.quote)),
        some (decide (t.amount ≤ (bought l t).locked t.seller t.base)),
        some (decide (t.refund ≤ (l.pay t).locked t.buyer t.quote))⟩ (.ok ())
  | paid (pays : BuyerPays l t) (goods : ¬ t.amount < 0) (delivers : SellerDelivers l t)
    (cost : ¬ t.cost < 0) (notBetter : ¬ refunds) :
    ExchangeEnd l t refunds (l.pay t)
      ⟨some (decide (t.cost ≤ l.locked t.buyer t.quote)),
        some (decide (t.amount ≤ (bought l t).locked t.seller t.base)), none⟩ (.ok ())

section Stages

variable (t : Match (EntryPtr R) R) (base quote' : Str)

/-- The last stages of `exchange`: the seller is paid, and the buyer refunded. -/
def payout (store : UserStore R) (spent sold : Bool) : UserStore R × SaleFlags × Except Exn Unit :=
  match store.insertCurrency t.ask.entry.username quote' (t.ask.entry.price * t.amount) with
  | .error e => (store, ⟨some spent, some sold, none⟩, .error e)
  | .ok store =>
    if t.ask.entry.price < t.bid.entry.price then
      let refunded := store.unlockCurrency t.bid.entry.username quote'
        ((t.bid.entry.price - t.ask.entry.price) * t.amount)
      (refunded.2, ⟨some spent, some sold, some refunded.1⟩, .ok ())
    else (store, ⟨some spent, some sold, none⟩, .ok ())

/-- The stages of `exchange` once the buyer has the goods. -/
def handOver (store : UserStore R) (spent : Bool) : UserStore R × SaleFlags × Except Exn Unit :=
  let sold := store.spendLocked t.ask.entry.username base t.amount
  if !sold.1 && store.getUsername t.ask.entry.username != defaultUser then
    (sold.2, ⟨some spent, some sold.1, none⟩, .error sellerInsufficient)
  else payout t quote' sold.2 spent sold.1

theorem exchange_eq (store : UserStore R) :
    exchange store t.bid.entry.username t.ask.entry.username base quote' t.amount
        (t.ask.entry.price * t.amount) t.bid.entry.price t.ask.entry.price =
      let spent := store.spendLocked t.bid.entry.username quote' (t.ask.entry.price * t.amount)
      if !spent.1 && store.getUsername t.bid.entry.username != defaultUser then
        (spent.2, ⟨some spent.1, none, none⟩, .error buyerInsufficient)
      else match spent.2.insertCurrency t.bid.entry.username base t.amount with
      | .error e => (spent.2, ⟨some spent.1, none, none⟩, .error e)
      | .ok store => handOver t base quote' store spent.1 := rfl

/-- The parties of a match. -/
def partiesOf : List Str := [t.bid.entry.username, t.ask.entry.username]

omit [Zero R] [Add R] [Sub R] [Mul R] [LT R] [LE R] [DecidableLT R] [DecidableLE R] in
/-- The guard of a short balance: the owner is short and is not `default`. -/
theorem short_iff {store : UserStore R} {u : Str} {p : Prop} [Decidable p] :
    ((!decide p && store.getUsername u != defaultUser) = true) ↔ ¬ (u ≠ defaultUser → p) := by
  simp only [UserStore.getUsername_eq, Bool.and_eq_true, Bool.not_eq_true', decide_eq_false_iff_not,
    bne_iff_ne, ne_eq, Classical.not_imp]
  exact And.comm

variable {t base quote'} {store : UserStore R} {l : Ledger Str Str R}
  (buyer : store.userExists t.bid.entry.username) (seller : store.userExists t.ask.entry.username)

include buyer seller

/-- The seller is paid and the buyer refunded. -/
theorem payout_end (pays : BuyerPays l (saleOf base quote' t)) (goods : ¬ t.amount < 0)
    (delivers : SellerDelivers l (saleOf base quote' t))
    (delivered : store.ledger = l.deliver (saleOf base quote' t)) :
    let r := payout t quote' store
      (decide (t.ask.entry.price * t.amount ≤ l.locked t.bid.entry.username quote'))
      (decide (t.amount ≤ (bought l (saleOf base quote' t)).locked t.ask.entry.username base))
    ExchangeEnd l (saleOf base quote' t) (t.ask.entry.price < t.bid.entry.price) r.1.ledger r.2.1 r.2.2 ∧
      UserStore.Within (partiesOf t) store r.1 := by
  unfold payout
  by_cases negative : t.ask.entry.price * t.amount < 0
  · simp only [UserStore.insertCurrency_of_neg store _ _ negative, delivered]
    exact ⟨.negativeCost pays goods delivers negative, UserStore.Within.refl _ _⟩
  obtain ⟨store₁, credited, ledger₁, within₁⟩ :=
    UserStore.insertCurrency_of_nonneg seller quote' negative
  have paid : store₁.ledger = l.pay (saleOf base quote' t) := by
    rw [ledger₁, delivered]
    rfl
  have first : UserStore.Within (partiesOf t) store store₁ := within₁.mono (by simp [partiesOf])
  by_cases better : t.ask.entry.price < t.bid.entry.price
  · obtain ⟨refunded, ledger₂, within₂⟩ := UserStore.unlockCurrency_ledger (first.known buyer) quote'
      ((t.bid.entry.price - t.ask.entry.price) * t.amount)
    rw [← UserStore.ledger_locked, paid] at refunded
    rw [paid] at ledger₂
    simp only [credited, if_pos better, refunded, ledger₂]
    exact ⟨.refunded pays goods delivers negative better, first.trans (within₂.mono (by simp [partiesOf]))⟩
  · simp only [credited, if_neg better, paid]
    exact ⟨.paid pays goods delivers negative better, first⟩

/-- The seller delivers. -/
theorem handOver_end (pays : BuyerPays l (saleOf base quote' t)) (goods : ¬ t.amount < 0)
    (isBought : store.ledger = bought l (saleOf base quote' t)) :
    let r := handOver t base quote' store
      (decide (t.ask.entry.price * t.amount ≤ l.locked t.bid.entry.username quote'))
    ExchangeEnd l (saleOf base quote' t) (t.ask.entry.price < t.bid.entry.price) r.1.ledger r.2.1 r.2.2 ∧
      UserStore.Within (partiesOf t) store r.1 := by
  obtain ⟨sold, ledger₁, within₁⟩ := UserStore.spendLocked_ledger seller base t.amount
  rw [← UserStore.ledger_locked, isBought] at sold
  have first : UserStore.Within (partiesOf t) store _ := within₁.mono (by simp [partiesOf])
  have delivered : (store.spendLocked t.ask.entry.username base t.amount).2.ledger =
      l.deliver (saleOf base quote' t) := by
    rw [ledger₁, isBought]
    rfl
  unfold handOver
  simp only [sold]
  by_cases delivers : SellerDelivers l (saleOf base quote' t)
  · have guard : ¬ (!decide (t.amount ≤ (bought l (saleOf base quote' t)).locked t.ask.entry.username base) &&
        store.getUsername t.ask.entry.username != defaultUser) = true :=
      fun short => short_iff.mp short delivers
    rw [if_neg guard]
    obtain ⟨ends, within⟩ := payout_end (first.known buyer) (first.known seller) pays goods delivers delivered
    exact ⟨ends, first.trans within⟩
  · have short : ¬ t.amount ≤ (bought l (saleOf base quote' t)).locked t.ask.entry.username base :=
      fun enough => delivers fun _ => enough
    have same : l.deliver (saleOf base quote' t) = bought l (saleOf base quote' t) := if_neg short
    have guard : (!decide (t.amount ≤ (bought l (saleOf base quote' t)).locked t.ask.entry.username base) &&
        store.getUsername t.ask.entry.username != defaultUser) = true := short_iff.mpr delivers
    rw [if_pos guard, decide_eq_false short]
    refine ⟨?_, first⟩
    rw [delivered, same]
    exact .sellerShort pays goods delivers

/-- The outcomes of the wallet updates, and that they touch the two parties only. -/
theorem exchange_ends (base quote' : Str) {r : UserStore R × SaleFlags × Except Exn Unit}
    (ran : exchange store t.bid.entry.username t.ask.entry.username base quote' t.amount
      (t.ask.entry.price * t.amount) t.bid.entry.price t.ask.entry.price = r) :
    ExchangeEnd store.ledger (saleOf base quote' t) (t.ask.entry.price < t.bid.entry.price) r.1.ledger
        r.2.1 r.2.2 ∧ UserStore.Within (partiesOf t) store r.1 := by
  subst ran
  obtain ⟨spent, ledger₁, within₁⟩ :=
    UserStore.spendLocked_ledger buyer quote' (t.ask.entry.price * t.amount)
  have first : UserStore.Within (partiesOf t) store _ := within₁.mono (by simp [partiesOf])
  rw [exchange_eq]
  simp only [spent]
  by_cases pays : BuyerPays store.ledger (saleOf base quote' t)
  swap
  · have short : ¬ t.ask.entry.price * t.amount ≤ store.locked t.bid.entry.username quote' :=
      fun enough => pays fun _ => enough
    have guard : (!decide (t.ask.entry.price * t.amount ≤ store.locked t.bid.entry.username quote') &&
        store.getUsername t.bid.entry.username != defaultUser) = true := short_iff.mpr pays
    rw [if_pos guard, decide_eq_false short]
    have same : store.ledger.spend t.bid.entry.username quote' (t.ask.entry.price * t.amount) =
        store.ledger := if_neg short
    refine ⟨?_, first⟩
    rw [ledger₁, same]
    exact .buyerShort pays
  have guard : ¬ (!decide (t.ask.entry.price * t.amount ≤ store.locked t.bid.entry.username quote') &&
      store.getUsername t.bid.entry.username != defaultUser) = true := fun short => short_iff.mp short pays
  rw [if_neg guard]
  by_cases negative : t.amount < 0
  · simp only [UserStore.insertCurrency_of_neg _ _ _ negative, ledger₁]
    exact ⟨.negativeAmount pays negative, first⟩
  obtain ⟨store₂, inserted, ledger₂, within₂⟩ :=
    UserStore.insertCurrency_of_nonneg (first.known buyer) base negative
  have second : UserStore.Within (partiesOf t) store store₂ :=
    first.trans (within₂.mono (by simp [partiesOf]))
  have isBought : store₂.ledger = bought store.ledger (saleOf base quote' t) := by
    rw [ledger₂, ledger₁]
    rfl
  simp only [inserted]
  obtain ⟨ends, within⟩ := handOver_end (second.known buyer) (second.known seller) pays negative isBought
  exact ⟨ends, second.trans within⟩

end Stages

end OrderBook

end MiniATS
