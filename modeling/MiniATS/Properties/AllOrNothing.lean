import MiniATS.Proofs.Exchange
import MiniATS.Proofs.Meetings
import MiniATS.Proofs.PassSpares
import MiniATS.Properties.ReservedFunds

/-!
# Passes that end by an exception

`matchAsksToBids` reduces the two orders of a match before it settles it, and records the sales
only at its end. So a pass that throws leaves everything as it was only when it throws before it has
sold anything, which the lookup of the users alone can bring about. `all_or_nothing_iff` gives the
condition before the pass: a meeting names an unknown user before anything is sold, or all meetings
can be settled in turn, with the costs and balances that the arithmetic of the numbers gives.
-/

namespace MiniATS

open Crossing Ledger CSVHandler

namespace OrderBook

variable {R : Type} [Zero R]

/-- The parties of a meeting are users of the store, or `default`. -/
def PartiesKnown (store : UserStore R) (t : Meeting R) : Prop :=
  ∀ u, u = t.bid.entry.username ∨ u = t.ask.entry.username → u ≠ defaultUser → store.userExists u

/-- Before anything is sold, a meeting names a user whom the store does not know. -/
def StopsUnsold (store : UserStore R) : List (Meeting R) → Prop
  | [] => False
  | t :: ts => ¬ PartiesKnown store t ∨ t.amount = none ∧ StopsUnsold store ts

/-- What a pass may change is as it was: the lists, the sales and the balances. -/
structure Untouched (book : OrderBook R) (store : UserStore R) (p : PassEnd R) : Prop where
  orders : ∀ q, p.book.orders q = book.orders q
  finalizedSales : p.book.finalizedSales = book.finalizedSales
  balances : p.userStore.ledger = store.ledger

section Open

variable [LE R] [DecidableLE R]

/-- The orders of a list that are not used up. -/
def openCount (ps : List (EntryPtr R)) : Nat := ps.countP fun p => decide (¬ p.entry.amount ≤ 0)

theorem openCount_le (p : EntryPtr R) : openCount [p] ≤ 1 :=
  List.countP_le_length

theorem openCount_cons (p : EntryPtr R) (ps : List (EntryPtr R)) :
    openCount (p :: ps) = openCount [p] + openCount ps := by
  unfold openCount
  rw [← List.countP_append]
  rfl

end Open

variable [Add R] [Sub R] [Mul R] [LT R] [LE R] [DecidableLT R] [DecidableLE R]

/-- The sale can be settled: both parties have what they owe locked, and neither its amount nor its
cost is negative. -/
def Payable (l : Ledger Str Str R) (t : Ledger.Sale Str Str R) : Prop :=
  BuyerPays l t ∧ ¬ t.amount < 0 ∧ SellerDelivers l t ∧ ¬ t.cost < 0

/-- The balances after a sale; a bid that is priced above the ask is refunded. -/
def afterSale (base quote' : Str) (t : Match (EntryPtr R) R) (l : Ledger Str Str R) : Ledger Str Str R :=
  if t.ask.entry.price < t.bid.entry.price then l.settle (saleOf base quote' t)
  else l.pay (saleOf base quote' t)

/-- The meetings can be settled one after the other. -/
def PayableInTurn (product : Str) (store : UserStore R) : Ledger Str Str R → List (Meeting R) → Prop
  | _, [] => True
  | l, t :: ts => PartiesKnown store t ∧
    match t.amount, pairTokens invalidSaleProduct product with
    | none, _ => PayableInTurn product store l ts
    | some _, .error _ => False
    | some amount, .ok (base, quote') =>
      Payable l (saleOf base quote' ⟨t.bid, t.ask, amount⟩) ∧
        PayableInTurn product store (afterSale base quote' ⟨t.bid, t.ask, amount⟩ l) ts

section Settling

variable {product : Str} {store : UserStore R} {st : PassState R} {t : Meeting R}

/-- How a meeting ends: a user is unknown, or the amounts do not compare, or there is a sale, which is
recorded before it is settled. -/
inductive MeetingEnd (product : Str) (st : PassState R) (t : Meeting R) :
    PassState R → Except Exn Unit → Prop
  | refused {st' : PassState R} (e : Exn) (unknown : ¬ PartiesKnown st.userStore t) (begun : Begun st st') :
    MeetingEnd product st t st' (.error e)
  | idle {st' : PassState R} (parties : PartiesKnown st.userStore t) (nothing : t.amount = none)
    (begun : Begun st st') : MeetingEnd product st t st' (.ok ())
  | unpaired {st' : PassState R} {amount : R} {e : Exn} (parties : PartiesKnown st.userStore t)
    (sold : t.amount = some amount) (pair : pairTokens invalidSaleProduct product = .error e)
    (trade : ∃ trade, st'.trades = st.trades ++ [trade]) : MeetingEnd product st t st' (.error e)
  | traded {st' : PassState R} {amount : R} {base quote' : Str} {flags : SaleFlags} {result : Except Exn Unit}
    (parties : PartiesKnown st.userStore t) (sold : t.amount = some amount)
    (pair : pairTokens invalidSaleProduct product = .ok (base, quote'))
    (trade : ∃ trade, st'.trades = st.trades ++ [trade])
    (users : ∀ v, v ≠ defaultUser → st'.userStore.userExists v = st.userStore.userExists v)
    (exchanged : ExchangeEnd st.userStore.ledger (saleOf base quote' ⟨t.bid, t.ask, amount⟩)
      (t.ask.entry.price < t.bid.entry.price) st'.userStore.ledger flags result) :
    MeetingEnd product st t st' result

omit [Zero R] [Add R] [Sub R] [Mul R] [LT R] [LE R] [DecidableLT R] [DecidableLE R] in
theorem Begun.known {st st' : PassState R} (begun : Begun st st') {v : Str} (user : v ≠ defaultUser) :
    st'.userStore.userExists v = st.userStore.userExists v :=
  (begun.users v).resolve_right fun created => user created.1

theorem settleMeeting_end (product currentTimestamp : Str) (st : PassState R) (t : Meeting R) :
    MeetingEnd product st t (settleMeeting product currentTimestamp st t).1
      (settleMeeting product currentTimestamp st t).2 := by
  have ends := beginSale_end product currentTimestamp st t.bid t.ask
  unfold settleMeeting
  generalize beginSale st product currentTimestamp t.bid t.ask = r at ends ⊢
  obtain ⟨st₁, began⟩ := r
  cases ends with
  | refused u party user unknown begun =>
    refine .refused _ (fun known => ?_) begun
    rw [known u party user] at unknown
    cases unknown
  | @begun sale parties buyer seller begun price isProduct =>
    cases sold : t.amount with
    | none => exact .idle parties sold begun
    | some amount =>
      have ledger := UserStore.ledger_of_wallet begun.wallets
      have trade : ∃ trade, (settle st₁ (sale.withAmount amount) t.bid t.ask).1.trades =
          st.trades ++ [trade] := ⟨_, congrArg (· ++ [_]) begun.trades⟩
      simp only [settle, processSale, OrderBookEntry.withAmount_product, isProduct] at trade ⊢
      cases pair : pairTokens invalidSaleProduct product with
      | error e =>
        simp only [pair] at trade ⊢
        exact .unpaired parties sold pair trade
      | ok tokens =>
        obtain ⟨base, quote'⟩ := tokens
        simp only [pair, OrderBookEntry.withAmount_price, OrderBookEntry.withAmount_amount, price]
          at trade ⊢
        obtain ⟨exchanged, within⟩ := exchange_ends (t := ⟨t.bid, t.ask, amount⟩) buyer seller
          base quote' rfl
        rw [ledger] at exchanged
        refine .traded parties sold pair trade (fun v user => ?_) exchanged
        simp only
        rw [within.users, begun.known user]

/-- A sale goes through exactly when it can be settled. -/
theorem ExchangeEnd.ok_iff {l l' : Ledger Str Str R} {t : Match (EntryPtr R) R} {base quote' : Str}
    {flags : SaleFlags} {result : Except Exn Unit}
    (ends : ExchangeEnd l (saleOf base quote' t) (t.ask.entry.price < t.bid.entry.price) l' flags result) :
    (result = .ok () ↔ Payable l (saleOf base quote' t)) ∧
      (result = .ok () → l' = afterSale base quote' t l) := by
  unfold afterSale
  cases ends with
  | buyerShort short => exact ⟨iff_of_false nofun fun all => short all.1, nofun⟩
  | negativeAmount _ negative => exact ⟨iff_of_false nofun fun all => all.2.1 negative, nofun⟩
  | sellerShort _ _ short => exact ⟨iff_of_false nofun fun all => short all.2.2.1, nofun⟩
  | negativeCost _ _ _ negative => exact ⟨iff_of_false nofun fun all => all.2.2.2 negative, nofun⟩
  | refunded pays goods delivers cost better =>
    exact ⟨iff_of_true rfl ⟨pays, goods, delivers, cost⟩, fun _ => (if_pos better).symm⟩
  | paid pays goods delivers cost notBetter =>
    exact ⟨iff_of_true rfl ⟨pays, goods, delivers, cost⟩, fun _ => (if_neg notBetter).symm⟩

omit [Zero R] [Add R] [Sub R] [Mul R] [LT R] [LE R] [DecidableLT R] [DecidableLE R] in
private theorem trades_ne {st st' : PassState R} (trade : ∃ trade, st'.trades = st.trades ++ [trade]) :
    st'.trades ≠ st.trades := by
  obtain ⟨trade, grown⟩ := trade
  rw [grown]
  simp

/-- Settling meetings only adds to the trades. -/
theorem settleMeetings_trades (product currentTimestamp : Str) (st : PassState R) (ts : List (Meeting R)) :
    st.trades <+: (settleMeetings product currentTimestamp st ts).1.trades := by
  induction ts generalizing st with
  | nil => exact List.prefix_rfl
  | cons t ts ih =>
    have ends := settleMeeting_end product currentTimestamp st t
    unfold settleMeetings
    generalize settleMeeting product currentTimestamp st t = r at ends ⊢
    obtain ⟨st', result⟩ := r
    have head : st.trades <+: st'.trades := by
      cases ends with
      | refused e unknown begun => exact begun.trades ▸ List.prefix_rfl
      | idle parties nothing begun => exact begun.trades ▸ List.prefix_rfl
      | unpaired _ _ _ trade =>
        obtain ⟨trade, more⟩ := trade
        exact more ▸ List.prefix_append _ _
      | traded _ _ _ trade =>
        obtain ⟨trade, more⟩ := trade
        exact more ▸ List.prefix_append _ _
    cases result with
    | error e => exact head
    | ok _ => exact head.trans (ih st')

/-- When the meetings are all settled, and when they stop with nothing sold; then the balances are as
they were. The induction carries that the users of the store stay what they are, up to `default`. -/
theorem settleMeetings_end (store : UserStore R) (product currentTimestamp : Str)
    (ts : List (Meeting R)) (st : PassState R)
    (users : ∀ v, v ≠ defaultUser → st.userStore.userExists v = store.userExists v) :
    let r := settleMeetings product currentTimestamp st ts
    (r.2 = .ok () ↔ PayableInTurn product store st.userStore.ledger ts) ∧
      (r.2 ≠ .ok () → (StopsUnsold store ts ↔ r.1.trades = st.trades) ∧
        (r.1.trades = st.trades → r.1.userStore.ledger = st.userStore.ledger)) := by
  induction ts generalizing st with
  | nil => exact ⟨iff_of_true rfl trivial, fun other => absurd rfl other⟩
  | cons t ts ih =>
    have ends := settleMeeting_end product currentTimestamp st t
    have known : PartiesKnown st.userStore t ↔ PartiesKnown store t :=
      forall_congr' fun u => forall_congr' fun _ => forall_congr' fun user => by rw [users u user]
    have more := settleMeetings_trades (R := R) product currentTimestamp
    have failed : ∀ e, (Except.error e : Except Exn Unit) ≠ .ok () := by simp
    unfold settleMeetings PayableInTurn StopsUnsold
    generalize settleMeeting product currentTimestamp st t = r at ends ⊢
    obtain ⟨st', result⟩ := r
    cases ends with
    | refused e unknown begun =>
      refine ⟨iff_of_false (failed _) fun all => unknown (known.mpr all.1), fun _ => ⟨?_, fun _ => ?_⟩⟩
      · exact iff_of_true (Or.inl fun parties => unknown (known.mpr parties)) begun.trades
      · exact UserStore.ledger_of_wallet begun.wallets
    | idle parties nothing begun =>
      obtain ⟨all, stops⟩ := ih st' fun v user => (begun.known user).trans (users v user)
      rw [UserStore.ledger_of_wallet begun.wallets] at all stops
      rw [begun.trades] at stops
      simp only [nothing, known.mp parties, true_and, not_true, false_or]
      exact ⟨all, stops⟩
    | unpaired parties sold pair trade =>
      have grown : st'.trades ≠ st.trades := trades_ne trade
      simp only [sold, pair, known.mp parties]
      refine ⟨iff_of_false (failed _) And.right, fun _ => ⟨?_, fun same => absurd same grown⟩⟩
      exact iff_of_false (by simp) grown
    | @traded amount base quote' flags _ parties sold pair trade users' exchanged =>
      obtain ⟨payable, ledger⟩ := exchanged.ok_iff (t := ⟨t.bid, t.ask, amount⟩)
      have grown : st'.trades ≠ st.trades := trades_ne trade
      simp only [sold, pair, known.mp parties, true_and, not_true, false_or, reduceCtorEq, false_and]
      cases result with
      | error e =>
        refine ⟨iff_of_false (failed _) fun all => ?_,
          fun _ => ⟨iff_of_false id grown, fun same => absurd same grown⟩⟩
        cases payable.mpr all.1
      | ok _ =>
        obtain ⟨all, -⟩ := ih st' fun v user => (users' v user).trans (users v user)
        have longer : (settleMeetings product currentTimestamp st' ts).1.trades ≠ st.trades := by
          intro same
          obtain ⟨trade, longer⟩ := trade
          have length := (more st' ts).length_le
          rw [same, show st'.trades = _ from longer] at length
          simp at length
        simp only [payable.mp rfl, true_and, ← ledger rfl]
        exact ⟨all, fun _ => ⟨iff_of_false id longer, fun same => absurd same longer⟩⟩

end Settling

variable [BEq R]

section Lists

variable (product currentTimestamp : Str)

variable [AmountOrder R]

omit [Add R] [Mul R] [DecidableLT R] in
theorem openCount_zero (p : EntryPtr R) : openCount [p.withAmount 0] = 0 := by
  have used : (p.withAmount 0).entry.amount ≤ 0 := AmountOrder.zero_le (R := R)
  simp [openCount, used]

/-- A round that trades uses up one of its orders, and one that goes on leaves its ask open. -/
structure RoundSpends (ask bid : EntryPtr R) (st : PassState R) (r : Round R) : Prop where
  fewer : r.st.trades.length + openCount [r.ask] + openCount [r.bid] ≤
    st.trades.length + openCount [ask] + openCount [bid]
  goesOn : r.how = .next → ¬ r.ask.entry.amount ≤ 0

section Spends

variable {ask bid : EntryPtr R} {st st' : PassState R} (openAsk : ¬ ask.entry.amount ≤ 0)
  (same : st'.trades = st.trades)

include openAsk same

omit [Add R] [Sub R] [Mul R] [LT R] [DecidableLT R] [BEq R] [AmountOrder R] in
theorem RoundSpends.idle : RoundSpends ask bid st ⟨ask, bid, st', .next⟩ :=
  ⟨by rw [same], fun _ => openAsk⟩

omit [BEq R] [AmountOrder R] in
theorem RoundSpends.settled (openBid : ¬ bid.entry.amount ≤ 0) {x y : R} (sale : OrderBookEntry R)
    {how : RoundEnd} (fewer : openCount [ask.withAmount x] + openCount [bid.withAmount y] ≤ 1)
    (goesOn : how = .next → ¬ x ≤ 0) :
    RoundSpends ask bid st
      (Round.settled (ask.withAmount x) (bid.withAmount y) (settle st' sale bid ask) how) := by
  have one : openCount [ask] = 1 := by simp [openCount, openAsk]
  have one' : openCount [bid] = 1 := by simp [openCount, openBid]
  have length : (settle st' sale bid ask).1.trades.length = st.trades.length + 1 := by
    unfold settle
    rw [List.length_append, same]
    rfl
  unfold Round.settled
  split
  · refine ⟨?_, nofun⟩
    simp only [length, one, one']
    omega
  · refine ⟨?_, goesOn⟩
    simp only [length, one, one']
    omega

end Spends

theorem bidRound_spends {ask : EntryPtr R} (openAsk : ¬ ask.entry.amount ≤ 0) (bid : EntryPtr R)
    (st : PassState R) : RoundSpends ask bid st (bidRound product currentTimestamp ask bid st) := by
  have begun := beginSale_trades product currentTimestamp st bid ask
  have single := openCount_le (R := R)
  unfold bidRound
  split
  · exact .idle openAsk rfl
  rename_i openBid
  split
  · dsimp only
    split
    · exact ⟨by rw [begun], nofun⟩
    split
    · refine .settled openAsk begun openBid _ ?_ nofun
      rw [openCount_zero, openCount_zero]
      exact Nat.zero_le 1
    split
    · refine .settled openAsk begun openBid _ ?_ nofun
      rw [openCount_zero, Nat.zero_add]
      exact single _
    split
    · rename_i more
      have positive := (AmountOrder.pos_or_unordered _ openBid).resolve_right fun never => (never _).1 more
      refine .settled openAsk begun openBid _ ?_ fun _ =>
        AmountOrder.not_le_of_pos _ (AmountOrder.rest_pos _ _ positive more)
      rw [openCount_zero]
      exact single _
    · exact .idle openAsk begun
  · exact .idle openAsk rfl

theorem bidLoop_open {ask : EntryPtr R} (open' : ¬ ask.entry.amount ≤ 0) (bids : List (EntryPtr R))
    (st : PassState R) :
    let r := bidLoop product currentTimestamp ask bids st
    r.st.trades.length + openCount r.asks + openCount r.bids ≤
      st.trades.length + openCount [ask] + openCount bids := by
  induction bids generalizing ask st with
  | nil => exact le_rfl
  | cons bid bids ih =>
    obtain ⟨fewer, goesOn⟩ := bidRound_spends product currentTimestamp open' bid st
    unfold bidLoop
    dsimp only
    rw [openCount_cons bid bids]
    split
    · dsimp only
      rw [openCount_cons _ bids]
      omega
    · dsimp only
      rw [openCount_cons _ bids]
      omega
    · rename_i next
      have rest := ih (goesOn next) (bidRound product currentTimestamp ask bid st).st
      dsimp only at rest ⊢
      rw [openCount_cons (bidRound product currentTimestamp ask bid st).bid]
      omega

/-- Every trade of the loops uses up an order. -/
theorem askLoop_open (asks bids : List (EntryPtr R)) (st : PassState R) :
    let r := askLoop product currentTimestamp asks bids st
    r.st.trades.length + openCount r.asks + openCount r.bids ≤
      st.trades.length + openCount asks + openCount bids := by
  induction asks generalizing bids st with
  | nil => exact le_rfl
  | cons ask asks ih =>
    unfold askLoop
    rw [openCount_cons ask asks]
    split
    · have rest := ih bids st
      dsimp only at rest ⊢
      rw [openCount_cons ask]
      omega
    · rename_i open'
      have inner := bidLoop_open product currentTimestamp open' bids st
      dsimp only at inner ⊢
      split
      · dsimp only
        rw [openCount, List.countP_append]
        unfold openCount at inner ⊢
        omega
      · have rest := ih (bidLoop product currentTimestamp ask bids st).bids
          (bidLoop product currentTimestamp ask bids st).st
        dsimp only at rest ⊢
        rw [openCount, List.countP_append]
        unfold openCount at inner rest ⊢
        omega

end Lists

section Pass

variable (std : StdSort (EntryPtr R)) (book : OrderBook R) (product currentTimestamp : Str)
  (store : UserStore R) (nextId : Nat)

/-- What a pass that throws leaves: the amounts its loops have written, and the store. -/
theorem matchAsksToBids_thrown {e : Exn}
    (thrown : (book.matchAsksToBids std product currentTimestamp store nextId).result = .error e) :
    let q := passLoop std (book.orders product) product currentTimestamp store nextId
    let r := book.matchAsksToBids std product currentTimestamp store nextId
    (∀ p, r.book.orders p =
        if p = product then writeBack (book.orders product) (q.bids ++ q.asks) else book.orders p) ∧
      r.book.finalizedSales = book.finalizedSales ∧ r.userStore = q.st.userStore := by
  unfold matchAsksToBids at thrown ⊢
  cases found : book.orderMap.lookup product with
  | none =>
    simp only [found] at thrown
    cases thrown
  | some orderList =>
    simp only [found] at thrown ⊢
    rw [orders_of_lookup found]
    cases outcome : (passLoop std orderList product currentTimestamp store nextId).result with
    | error e' => exact ⟨orders_insert book rfl, rfl, rfl⟩
    | ok _ =>
      simp only [outcome] at thrown
      cases thrown

variable [AmountOrder R]

/-- The loops leave the list as it was exactly when they have not traded. -/
theorem writeBack_passLoop_eq_iff (l : List (OrderBookEntry R)) :
    let q := passLoop std l product currentTimestamp store nextId
    writeBack l (q.bids ++ q.asks) = l ↔ q.st.trades = [] := by
  obtain ⟨sameBids, sameAsks⟩ := askLoop_same product currentTimestamp (sortedAsks std l)
    (sortedBids std l) ⟨store, nextId, [], []⟩
  dsimp only [passLoop]
  rw [writeBack_eq_iff (List.rel_append sameBids sameAsks)]
  constructor
  · intro same
    obtain ⟨bids, asks⟩ := List.append_inj same sameBids.length_eq.symm
    have fewer := askLoop_open product currentTimestamp (sortedAsks std l) (sortedBids std l)
      ⟨store, nextId, [], []⟩
    dsimp only at fewer
    rw [bids, asks] at fewer
    apply List.eq_nil_of_length_eq_zero
    simp only [List.length_nil] at fewer
    omega
  · intro none'
    obtain ⟨-, bids, asks⟩ := askLoop_spares product currentTimestamp (sortedAsks std l)
      (sortedBids std l) ⟨store, nextId, [], []⟩
    rw [none'] at bids asks
    have spared : ∀ {ps qs : List (EntryPtr R)}, List.Forall₂ (Spared []) ps qs → qs = ps := by
      intro ps qs related
      induction related with
      | nil => rfl
      | cons head _ ih =>
        have same := head.2.resolve_right fun ⟨_, member, _⟩ => nomatch member
        exact congrArg₂ List.cons same ih
    rw [spared bids, spared asks]

/-- A pass is all-or-nothing exactly when it meets a user whom the store does not know before it sells
anything, or all its meetings can be settled in turn. -/
theorem all_or_nothing_iff :
    ((∃ e, (book.matchAsksToBids std product currentTimestamp store nextId).result = .error e) →
      Untouched book store (book.matchAsksToBids std product currentTimestamp store nextId)) ↔
    StopsUnsold store (passMeetings std (book.orders product)).met ∨
      PayableInTurn product store store.ledger (passMeetings std (book.orders product)).met := by
  obtain ⟨outcome, -⟩ := matchAsksToBids_written std book product currentTimestamp store nextId
  obtain ⟨run, -⟩ := askLoop_meetings product currentTimestamp (sortedAsks std (book.orders product))
    (sortedBids std (book.orders product)) ⟨store, nextId, [], []⟩
  obtain ⟨all, stops⟩ := settleMeetings_end store product currentTimestamp
    (passMeetings std (book.orders product)).met ⟨store, nextId, [], []⟩ fun _ _ => rfl
  have lists := writeBack_passLoop_eq_iff std product currentTimestamp store nextId (book.orders product)
  have thrown' := fun e => matchAsksToBids_thrown (e := e) std book product currentTimestamp store nextId
  unfold passMeetings at all stops ⊢
  rw [← run] at all stops
  unfold passLoop at outcome lists thrown'
  generalize askLoop product currentTimestamp (sortedAsks std (book.orders product))
    (sortedBids std (book.orders product)) ⟨store, nextId, [], []⟩ = q at outcome all stops lists thrown'
  cases ended : q.result with
  | ok _ =>
    refine iff_of_true ?_ (Or.inr (all.mp ended))
    rintro ⟨e, thrown⟩
    rw [outcome, ended] at thrown
    cases thrown
  | error e =>
    have thrown : (book.matchAsksToBids std product currentTimestamp store nextId).result = .error e := by
      rw [outcome, ended]
      rfl
    have failed : q.result ≠ .ok () := by simp [ended]
    obtain ⟨unsold, ledger⟩ := stops failed
    obtain ⟨orders, sales, store'⟩ := thrown' e thrown
    rw [or_iff_left (fun payable => failed (all.mpr payable)), unsold]
    constructor
    · intro every
      have same := (every ⟨e, thrown⟩).orders product
      rw [orders product, if_pos rfl] at same
      exact lists.mp same
    · rintro none' -
      refine ⟨fun p => ?_, sales, by rw [store', ledger none']⟩
      rw [orders p]
      split
      · rename_i isProduct
        rw [isProduct]
        exact lists.mpr none'
      · rfl

end Pass

section Sample

/-- The state in which Alice's ask at minus five dollars waits for Bob's bid. -/
def negativeAsk : System ℚ := System.run exactEnv System.fresh ((System.saleAt "-5" "0").take 6)

/-- The pass that meets it. -/
def negativePass : PassEnd ℚ :=
  negativeAsk.server.orderBook.matchAsksToBids (StdSort.insertion _) (str "BTC/USD") []
    negativeAsk.server.userStore negativeAsk.server.nextId

private theorem negativePass_result : negativePass.result = .error Wallet.negativeAmount := by
  decide +kernel

private theorem negativePass_touched :
    ¬ Untouched negativeAsk.server.orderBook negativeAsk.server.userStore negativePass := by
  intro untouched
  have balance := congrFun (congrFun (congrArg Ledger.locked untouched.balances) (str "bob")) (str "USD")
  revert balance
  decide +kernel

/-- Before that pass its only meeting has known users and cannot be settled. -/
theorem all_or_nothing_iff_negative :
    let met := (passMeetings (StdSort.insertion _) (negativeAsk.server.orderBook.orders (str "BTC/USD"))).met
    ¬ StopsUnsold negativeAsk.server.userStore met ∧
      ¬ PayableInTurn (str "BTC/USD") negativeAsk.server.userStore negativeAsk.server.userStore.ledger met := by
  have broken := fun cond => negativePass_touched ((all_or_nothing_iff (StdSort.insertion _)
    negativeAsk.server.orderBook (str "BTC/USD") [] negativeAsk.server.userStore
    negativeAsk.server.nextId).mpr cond ⟨_, negativePass_result⟩)
  exact ⟨fun stops => broken (Or.inl stops), fun payable => broken (Or.inr payable)⟩

/-- The pass in which Alice's ask at minus five dollars meets Bob's bid throws when it pays Alice,
with both orders reduced and Bob's cost spent. -/
theorem negative_sale_half_done : negativePass.result = .error Wallet.negativeAmount ∧
    ¬ Untouched negativeAsk.server.orderBook negativeAsk.server.userStore negativePass :=
  ⟨negativePass_result, negativePass_touched⟩

end Sample

end OrderBook

end MiniATS
