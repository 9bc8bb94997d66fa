import MiniATS.Proofs.ThreadBook
import MiniATS.Proofs.PassAccounting
import MiniATS.Proofs.Balances
import MiniATS.Server.PassCalls

/-!
# The calls of a pass

Uninterrupted, the calls of a pass are the pass: the same users and ids, the same orders in the
list, the same outcome. Interrupted or not, each of them is one of a few: a balance is only ever
lowered by a call that has found enough of it, or by a refund that is not negative.
-/

namespace MiniATS

open Resumption Server

namespace OrderBook

variable {R : Type} [Zero R] [Add R] [Sub R] [Mul R] [LT R] [LE R] [DecidableLT R] [DecidableLE R] [BEq R]

section Uninterrupted

omit [Zero R] [Add R] [Sub R] [Mul R] [LT R] [LE R] [DecidableLT R] [DecidableLE R] [BEq R] in
@[simp] theorem storeCall_run {A : Type} (f : UserStore R → A × UserStore R) (st : PassState R) :
    (storeCall f).run st = ((f st.userStore).1, { st with userStore := (f st.userStore).2 }) := rfl

omit [BEq R] in
theorem exchangeCalls_run (buyer seller base quote' : Str) (amount totalCost bidPrice askPrice : R)
    (st : PassState R) :
    let r := exchange st.userStore buyer seller base quote' amount totalCost bidPrice askPrice
    (exchangeCalls buyer seller base quote' amount totalCost bidPrice askPrice).run st =
      (r.2, { st with userStore := r.1 }) := by
  unfold exchangeCalls exchange
  simp only [run_bind, storeCall_run, UserStore.getUsername_eq]
  by_cases short : (!(st.userStore.spendLocked buyer quote' totalCost).1 && buyer != defaultUser) = true
  · simp only [short, if_true, run_pure]
  simp only [short, Bool.false_eq_true, if_false, run_bind, storeCall_run, tryInsert]
  cases (st.userStore.spendLocked buyer quote' totalCost).2.insertCurrency buyer base amount with
  | error e => rfl
  | ok store =>
    simp only [run_bind, storeCall_run]
    by_cases short : (!(store.spendLocked seller base amount).1 && seller != defaultUser) = true
    · simp only [short, if_true, run_pure]
    simp only [short, Bool.false_eq_true, if_false, run_bind, storeCall_run, tryInsert]
    cases (store.spendLocked seller base amount).2.insertCurrency seller quote' totalCost with
    | error e => rfl
    | ok store' =>
      by_cases refund : askPrice < bidPrice
      · simp only [refund, if_true, run_bind, storeCall_run, run_pure]
      · simp only [refund, if_false, run_pure]

omit [BEq R] in
theorem processSaleCalls_run (buyer seller : Str) (sale : OrderBookEntry R) (bidPrice askPrice : R)
    (st : PassState R) :
    let r := processSale st.userStore buyer seller sale bidPrice askPrice
    (processSaleCalls buyer seller sale bidPrice askPrice).run st = (r.2, { st with userStore := r.1 }) := by
  unfold processSaleCalls processSale
  cases CSVHandler.pairTokens invalidSaleProduct sale.product with
  | error e => rfl
  | ok tokens => exact exchangeCalls_run _ _ _ _ _ _ _ _ st

omit [BEq R] in
theorem settleCalls_run (sale : OrderBookEntry R) (bid ask : EntryPtr R) (st : PassState R) :
    let r := settle st sale bid ask
    (settleCalls sale bid ask).run st = (r.2, r.1) := by
  unfold settleCalls settle
  simp only [run_bind, processSaleCalls_run, run_call]

omit [Add R] [Sub R] [Mul R] [LT R] [LE R] [DecidableLT R] [DecidableLE R] [BEq R] in
theorem beginSaleCalls_run (product currentTimestamp : Str) (bid ask : EntryPtr R) (st : PassState R) :
    let r := beginSale st product currentTimestamp bid ask
    (beginSaleCalls product currentTimestamp bid ask).run st = (r.2, r.1) := by
  unfold beginSaleCalls beginSale
  simp only [run_bind, storeCall_run, tryUser]
  cases st.userStore.getUser bid.entry.username with
  | error e => rfl
  | ok store =>
    simp only [run_bind, storeCall_run, tryUser]
    cases store.getUser ask.entry.username with
    | error e => rfl
    | ok store' => rfl

/-- A round without what it has done to the state. -/
def Round.visit (r : Round R) : Visit R := ⟨r.ask, r.bid, r.how⟩

/-- A loop without what it has done to the state. -/
def LoopEnd.visits (r : LoopEnd R) : Visits R := ⟨r.asks, r.bids, r.result⟩

theorem bidRoundCalls_run (product currentTimestamp : Str) (ask bid : EntryPtr R) (st : PassState R) :
    let r := bidRound product currentTimestamp ask bid st
    (bidRoundCalls product currentTimestamp ask bid).run st = (r.visit, r.st) := by
  have settled : ∀ (ask' bid' : EntryPtr R) (how : RoundEnd) (sale : OrderBookEntry R) (st : PassState R),
      let r := Round.settled ask' bid' (settle st sale bid ask) how
      ((do
        let result ← settleCalls sale bid ask
        return Visit.settled ask' bid' how result) : Resumption (PassState R) (Visit R)).run st =
        (r.visit, r.st) := by
    intro ask' bid' how sale st
    simp only [run_bind, settleCalls_run, run_pure]
    unfold Round.settled
    cases (settle st sale bid ask).2 <;> rfl
  unfold bidRoundCalls bidRound
  by_cases small : bid.entry.amount ≤ 0
  · rw [if_pos small, if_pos small]
    rfl
  rw [if_neg small, if_neg small]
  by_cases prices : ask.entry.price ≤ bid.entry.price
  · rw [if_pos prices, if_pos prices]
    simp only [run_bind, beginSaleCalls_run]
    cases (beginSale st product currentTimestamp bid ask).2 with
    | error e => rfl
    | ok sale =>
      simp only
      by_cases same : (bid.entry.amount == ask.entry.amount) = true
      · rw [if_pos same, if_pos same]
        exact settled _ _ _ _ _
      rw [if_neg same, if_neg same]
      by_cases less : ask.entry.amount < bid.entry.amount
      · rw [if_pos less, if_pos less]
        exact settled _ _ _ _ _
      rw [if_neg less, if_neg less]
      by_cases more : bid.entry.amount < ask.entry.amount
      · rw [if_pos more, if_pos more]
        exact settled _ _ _ _ _
      · rw [if_neg more, if_neg more]
        rfl
  · rw [if_neg prices, if_neg prices]
    rfl

theorem bidLoopCalls_run (product currentTimestamp : Str) (ask : EntryPtr R) (bids : List (EntryPtr R))
    (st : PassState R) :
    let r := bidLoop product currentTimestamp ask bids st
    (bidLoopCalls product currentTimestamp ask bids).run st = (r.visits, r.st) := by
  induction bids generalizing ask st with
  | nil => rfl
  | cons bid bids ih =>
    unfold bidLoopCalls bidLoop
    simp only [run_bind, bidRoundCalls_run, Round.visit]
    cases (bidRound product currentTimestamp ask bid st).how with
    | thrown e => rfl
    | leave => rfl
    | next =>
      simp only [run_bind, ih, run_pure]
      rfl

theorem askLoopCalls_run (product currentTimestamp : Str) (asks bids : List (EntryPtr R))
    (st : PassState R) :
    let r := askLoop product currentTimestamp asks bids st
    (askLoopCalls product currentTimestamp asks bids).run st = (r.visits, r.st) := by
  induction asks generalizing bids st with
  | nil => rfl
  | cons ask asks ih =>
    unfold askLoopCalls askLoop
    by_cases small : ask.entry.amount ≤ 0
    · rw [if_pos small, if_pos small]
      simp only [run_bind, ih, run_pure]
      rfl
    · rw [if_neg small, if_neg small]
      simp only [run_bind, bidLoopCalls_run, LoopEnd.visits]
      cases (bidLoop product currentTimestamp ask bids st).result with
      | error e => rfl
      | ok _ =>
        simp only [run_bind, ih, run_pure]
        rfl

/-- A pass that nobody interrupts does to the server what its calls do one after the other. -/
theorem matchProduct_calls (env : Env R) (std : StdSort (EntryPtr R)) (now : Int) (srv : Server R)
    (product : Str) :
    let r := (srv.orderBook.passCalls std product (getCurrentTimestamp env now)).run
      ⟨srv.userStore, srv.nextId, [], []⟩
    (srv.matchProduct env std now product).1 =
      { srv with orderBook := srv.orderBook.finishPass product r.2.sales r.1
                 userStore := r.2.userStore, nextId := r.2.nextId } := by
  unfold matchProduct passCalls
  generalize getCurrentTimestamp env now = timestamp
  simp only [askLoopCalls_run, LoopEnd.visits]
  unfold matchAsksToBids finishPass
  cases found : srv.orderBook.orderMap.lookup product with
  | none =>
    have none' : sortedAsks std (srv.orderBook.orders product) = [] := by
      rw [orders_of_lookup_none found]
      exact (std.perm _ _).eq_nil
    rw [none']
    rfl
  | some orderList =>
    rw [orders_of_lookup found]
    simp only [passLoop]
    cases (askLoop product timestamp (sortedAsks std orderList) (sortedBids std orderList)
      ⟨srv.userStore, srv.nextId, [], []⟩).result with
    | error e => rfl
    | ok _ => rfl

end Uninterrupted

section Guarantee

open Crossing

/-- What a call of a pass may do to the shared state. -/
def Fair (st st' : PassState ℚ) : Prop :=
  (st.userStore.Nonneg → st'.userStore.Nonneg) ∧ st.nextId ≤ st'.nextId

theorem keeps_storeCall {A : Type} {f : UserStore ℚ → A × UserStore ℚ}
    (nonneg : ∀ store : UserStore ℚ, store.Nonneg → (f store).2.Nonneg) :
    (storeCall f).Keeps Fair fun _ => True :=
  keeps_call fun st => ⟨nonneg st.userStore, le_rfl⟩

theorem tryInsert_nonneg {u type : Str} {amount : ℚ} (store : UserStore ℚ) (nonneg : store.Nonneg) :
    (tryInsert u type amount store).2.Nonneg := by
  unfold tryInsert
  split
  · exact nonneg
  · exact nonneg.insertCurrency ‹_›

theorem tryUser_nonneg {u : Str} (store : UserStore ℚ) (nonneg : store.Nonneg) :
    (tryUser u store).2.Nonneg := by
  unfold tryUser
  split
  · exact nonneg
  · exact nonneg.getUser ‹_›

theorem exchangeCalls_keeps (buyer seller base quote' : Str) {amount totalCost bidPrice askPrice : ℚ}
    (positive : 0 ≤ amount) :
    (exchangeCalls buyer seller base quote' amount totalCost bidPrice askPrice).Keeps Fair
      fun _ => True := by
  have ended : ∀ r : SaleFlags × Except Exn Unit,
      (pure r : Resumption (PassState ℚ) _).Keeps Fair fun _ => True := fun _ => keeps_pure trivial
  unfold exchangeCalls
  apply Keeps.bind (keeps_storeCall fun _ nonneg => nonneg.spendLocked)
  intro spent _
  refine Keeps.bind (keeps_storeCall fun _ nonneg => nonneg) fun name _ => ?_
  split
  · exact ended _
  refine Keeps.bind (keeps_storeCall tryInsert_nonneg) fun inserted _ => ?_
  split
  · exact ended _
  refine Keeps.bind (keeps_storeCall fun _ nonneg => nonneg.spendLocked) fun sold _ => ?_
  refine Keeps.bind (keeps_storeCall fun _ nonneg => nonneg) fun name _ => ?_
  split
  · exact ended _
  refine Keeps.bind (keeps_storeCall tryInsert_nonneg) fun inserted _ => ?_
  split
  · exact ended _
  split
  · -- the refund is what the bid was priced above the ask
    rename_i higher
    have refund : 0 ≤ (bidPrice - askPrice) * amount :=
      mul_nonneg (sub_nonneg.mpr (le_of_lt higher)) positive
    exact Keeps.bind (keeps_storeCall fun _ nonneg => nonneg.unlockCurrency refund)
      fun refunded _ => ended _
  · exact ended _

theorem settleCalls_keeps {sale : OrderBookEntry ℚ} (positive : 0 ≤ sale.amount) (bid ask : EntryPtr ℚ) :
    (settleCalls sale bid ask).Keeps Fair fun _ => True := by
  have processed : (processSaleCalls bid.entry.username ask.entry.username sale bid.entry.price
      ask.entry.price).Keeps Fair fun _ => True := by
    unfold processSaleCalls
    split
    · exact keeps_pure trivial
    · exact exchangeCalls_keeps _ _ _ _ positive
  exact processed.bind fun _ _ => keeps_call fun _ => ⟨id, le_rfl⟩

theorem beginSaleCalls_keeps (product currentTimestamp : Str) (bid ask : EntryPtr ℚ) :
    (beginSaleCalls product currentTimestamp bid ask).Keeps Fair fun _ => True := by
  unfold beginSaleCalls
  apply Keeps.bind (keeps_storeCall tryUser_nonneg)
  intro found _
  split
  · exact keeps_pure trivial
  apply Keeps.bind (keeps_storeCall tryUser_nonneg)
  intro found _
  split
  · exact keeps_pure trivial
  · exact Keeps.bind (keeps_call fun st => ⟨id, Nat.le_succ _⟩) fun sale _ => keeps_pure trivial

/-- What a round can leave. -/
def VisitOf (ask bid : EntryPtr ℚ) (v : Visit ℚ) : Prop :=
  Reduced ask v.ask ∧ Reduced bid v.bid ∧ (v.how = .next → 0 < v.ask.entry.amount)

theorem bidRoundCalls_keeps (product currentTimestamp : Str) {ask : EntryPtr ℚ}
    (positive : 0 < ask.entry.amount) (bid : EntryPtr ℚ) :
    (bidRoundCalls product currentTimestamp ask bid).Keeps Fair (VisitOf ask bid) := by
  have kept : ∀ how, VisitOf ask bid ⟨ask, bid, how⟩ :=
    fun how => ⟨Reduced.refl ask, Reduced.refl bid, fun _ => positive⟩
  unfold bidRoundCalls
  split
  · exact keeps_pure (kept _)
  rename_i open'
  have positiveBid : 0 < bid.entry.amount := not_le.mp open'
  have reduced : ∀ (p : EntryPtr ℚ) (x : ℚ), 0 < p.entry.amount → 0 ≤ x → x ≤ p.entry.amount →
      Reduced p (p.withAmount x) :=
    fun p x some' least most => ⟨x, rfl, fun none' => absurd some' (not_lt.mpr none'), fun _ => ⟨least, most⟩⟩
  -- a settled match has taken a part of each side
  have settled : ∀ (sale : OrderBookEntry ℚ) (x y : ℚ) (how : RoundEnd), 0 ≤ sale.amount →
      0 ≤ x → x ≤ ask.entry.amount → 0 ≤ y → y ≤ bid.entry.amount → (how = .next → 0 < x) →
      (do
        let result ← settleCalls sale bid ask
        return Visit.settled (ask.withAmount x) (bid.withAmount y) how result :
          Resumption (PassState ℚ) (Visit ℚ)).Keeps Fair (VisitOf ask bid) := by
    intro sale x y how part leastAsk mostAsk leastBid mostBid goesOn
    apply Keeps.bind (settleCalls_keeps part bid ask)
    intro result _
    apply keeps_pure
    have both := And.intro (reduced ask x positive leastAsk mostAsk)
      (reduced bid y positiveBid leastBid mostBid)
    cases result with
    | error e => exact ⟨both.1, both.2, nofun⟩
    | ok _ => exact ⟨both.1, both.2, goesOn⟩
  split
  swap
  · exact keeps_pure (kept _)
  apply Keeps.bind (beginSaleCalls_keeps product currentTimestamp bid ask)
  intro begun _
  split
  · exact keeps_pure (kept _)
  split
  · exact settled _ 0 0 _ positive.le le_rfl positive.le le_rfl positiveBid.le nofun
  split
  · rename_i less
    exact settled _ 0 _ _ positive.le le_rfl positive.le (sub_nonneg.mpr less.le)
      (sub_le_self _ positive.le) nofun
  split
  · rename_i more
    exact settled _ _ 0 _ positiveBid.le (sub_nonneg.mpr more.le) (sub_le_self _ positiveBid.le) le_rfl
      positiveBid.le fun _ => sub_pos.mpr more
  · exact keeps_pure (kept _)

/-- What a loop can leave. -/
def VisitsOf (asks bids : List (EntryPtr ℚ)) (v : Visits ℚ) : Prop :=
  List.Forall₂ Reduced asks v.asks ∧ List.Forall₂ Reduced bids v.bids

theorem bidLoopCalls_keeps (product currentTimestamp : Str) {ask : EntryPtr ℚ}
    (positive : 0 < ask.entry.amount) (bids : List (EntryPtr ℚ)) :
    (bidLoopCalls product currentTimestamp ask bids).Keeps Fair (VisitsOf [ask] bids) := by
  induction bids generalizing ask with
  | nil => exact keeps_pure ⟨forall₂_reduced_refl _, .nil⟩
  | cons bid bids ih =>
    unfold bidLoopCalls
    apply Keeps.bind (bidRoundCalls_keeps product currentTimestamp positive bid)
    intro v visited
    obtain ⟨reducedAsk, reducedBid, goesOn⟩ := visited
    split
    · exact keeps_pure ⟨.cons reducedAsk .nil, .cons reducedBid (forall₂_reduced_refl _)⟩
    · exact keeps_pure ⟨.cons reducedAsk .nil, .cons reducedBid (forall₂_reduced_refl _)⟩
    · rename_i next
      refine Keeps.bind (ih (goesOn next)) fun rest left => keeps_pure ⟨?_, .cons reducedBid left.2⟩
      exact ListFacts.forall₂_trans (.cons reducedAsk .nil) left.1 Reduced.trans

theorem askLoopCalls_keeps (product currentTimestamp : Str) (asks bids : List (EntryPtr ℚ)) :
    (askLoopCalls product currentTimestamp asks bids).Keeps Fair (VisitsOf asks bids) := by
  induction asks generalizing bids with
  | nil => exact keeps_pure ⟨.nil, forall₂_reduced_refl _⟩
  | cons ask asks ih =>
    unfold askLoopCalls
    split
    · exact Keeps.bind (ih bids) fun rest left => keeps_pure ⟨.cons (Reduced.refl ask) left.1, left.2⟩
    · rename_i open'
      refine Keeps.bind (bidLoopCalls_keeps product currentTimestamp (not_le.mp open') bids)
        fun v visited => ?_
      split
      · exact keeps_pure ⟨List.rel_append visited.1 (forall₂_reduced_refl asks), visited.2⟩
      · exact Keeps.bind (ih v.bids) fun rest left =>
          keeps_pure ⟨List.rel_append visited.1 left.1,
            ListFacts.forall₂_trans visited.2 left.2 Reduced.trans⟩

end Guarantee

section Finish

open Crossing

/-- The orders of the book when a pass has ended: those it began with, as far as they are left. -/
theorem finishPass_orders {std : StdSort (EntryPtr ℚ)} {book : OrderBook ℚ} {product : Str} {v : Visits ℚ}
    (visited : VisitsOf (sortedAsks std (book.orders product)) (sortedBids std (book.orders product)) v)
    (mirrored : book.Mirrored) (sales : List (OrderBookEntry ℚ)) :
    (book.finishPass product sales v).Mirrored ∧
      ∀ o' ∈ (book.finishPass product sales v).getAllOrders, ∃ o ∈ book.getAllOrders, Shrunk o o' := by
  unfold finishPass
  cases found : book.orderMap.lookup product with
  | none =>
    exact ⟨⟨mirrored.distinct, mirrored.filed, mirrored.refers, mirrored.complete, mirrored.once,
      mirrored.nonempty⟩, fun o member => ⟨o, member, Shrunk.refl o⟩⟩
  | some orderList =>
    dsimp only
    have list := orders_of_lookup found
    rw [list] at visited
    have reduced := List.rel_append visited.2 visited.1
    have same : List.Forall₂ SameOrder orderList (writeBack orderList (v.bids ++ v.asks)) :=
      writeBack_sameOrder (reduced.imp fun p q part => ⟨part.choose, part.choose_spec.1⟩)
    have shrunk : List.Forall₂ Shrunk orderList (writeBack orderList (v.bids ++ v.asks)) :=
      writeBack_forall₂ Shrunk.refl (reduced.imp fun _ _ part => shrunk_of_reduced part)
    generalize writeBack orderList (v.bids ++ v.asks) = l at same shrunk ⊢
    have written : book.Written product { book with orderMap := book.orderMap.insert product l } l :=
      ⟨list ▸ same, getAllOrders_insert_perm book rfl, orders_insert book rfl, rfl⟩
    generalize ({ book with orderMap := book.orderMap.insert product l } : OrderBook ℚ) = middle at written ⊢
    have left : ∀ o' ∈ middle.getAllOrders, ∃ o ∈ book.getAllOrders, Shrunk o o' := by
      intro o' member
      obtain ⟨p, inList⟩ := mem_getAllOrders.mp member
      rw [written.2.2.1] at inList
      split at inList
      · obtain ⟨o, was, part⟩ := ListFacts.forall₂_mem_right shrunk inList
        exact ⟨o, mem_getAllOrders.mpr ⟨product, list ▸ was⟩, part⟩
      · exact ⟨o', mem_getAllOrders.mpr ⟨p, inList⟩, Shrunk.refl o'⟩
    cases v.result with
    | error e => exact ⟨written.mirrored mirrored, left⟩
    | ok _ =>
      have sold : (middle.insertSales sales).Mirrored := by
        obtain ⟨distinct, filed, refers, complete, once, nonempty⟩ := written.mirrored mirrored
        exact ⟨distinct, filed, refers, complete, once, nonempty⟩
      refine ⟨removeMatchedOrders_mirrored sold product, fun o' member => left o' ?_⟩
      obtain ⟨p, inList⟩ := mem_getAllOrders.mp member
      rw [removeMatchedOrders_orders] at inList
      split at inList
      · exact mem_getAllOrders.mpr ⟨p, List.mem_of_mem_filter inList⟩
      · exact mem_getAllOrders.mpr ⟨p, inList⟩

end Finish

end OrderBook

namespace CallThreads

variable {R : Type} [Zero R] [Add R] [Sub R] [Mul R] [Div R] [LT R] [LE R] [DecidableLT R] [DecidableLE R]
  [BEq R]

/-- The calls of a pass, one after the other, end it. -/
theorem exec_calls (env : Env R) (s : Threads R) (r : Running R) :
    let ended := r.rest.run ⟨s.server.userStore, s.server.nextId, r.sales, r.trades⟩
    ∃ k, Machine.exec (next env) ⟨s, some r⟩ (List.replicate k .call) =
      some ⟨{ s with server := { s.server with
        orderBook := s.server.orderBook.finishPass r.product ended.2.sales ended.1
        userStore := ended.2.userStore
        nextId := ended.2.nextId } }, none⟩ := by
  obtain ⟨product, sales, trades, rest⟩ := r
  induction rest generalizing s sales trades with
  | done v => exact ⟨1, rfl⟩
  | step update rest ih =>
    obtain ⟨k, ran⟩ := ih _ { s with server := { s.server with
      userStore := (update ⟨s.server.userStore, s.server.nextId, sales, trades⟩).userStore
      nextId := (update ⟨s.server.userStore, s.server.nextId, sales, trades⟩).nextId } }
      (update ⟨s.server.userStore, s.server.nextId, sales, trades⟩).sales
      (update ⟨s.server.userStore, s.server.nextId, sales, trades⟩).trades
    exact ⟨k + 1, ran⟩

/-- A pass whose calls nobody comes between is the one step of its task. -/
theorem exec_pass (env : Env R) {s s' : Threads R} {n : Nat} {std : StdSort (EntryPtr R)} {now : Int}
    (step : s.next env (.task n std now) = some s') :
    ∃ k, Machine.exec (next env) ⟨s, none⟩ (.begin n std now :: List.replicate k .call) =
      some ⟨s', none⟩ := by
  simp only [Threads.next] at step
  cases found : s.tasks[n]? with
  | none => simp [found] at step
  | some product =>
    rw [found] at step
    obtain rfl := Option.some.inj step
    obtain ⟨k, ran⟩ := exec_calls env { s with tasks := s.tasks.eraseIdx n }
      ⟨product, [], [], s.server.orderBook.passCalls std product (Server.getCurrentTimestamp env now)⟩
    refine ⟨k, ?_⟩
    rw [Machine.exec_cons, OrderBook.matchProduct_calls env std now s.server product]
    simp only [next, found]
    exact ran

end CallThreads

end MiniATS
