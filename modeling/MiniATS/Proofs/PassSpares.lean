import MiniATS.Proofs.PassLists

/-!
# What a pass leaves alone

A round that changes an order records it in the trades of the pass. So an order that no trade
names stands in the list after the pass as it stood before, unless its amount was not positive.
This holds whatever the numbers are.
-/

namespace MiniATS

namespace OrderBook

variable {R : Type}

/-- An order with this id is a side of one of the trades. -/
def Traded (trades : List (Trade R × SaleFlags)) (id : Nat) : Prop :=
  ∃ t ∈ trades, t.1.bid.entry.id = id ∨ t.1.ask.entry.id = id

/-- The same node of a list, and the order in it unless a trade names it. -/
def Spared (trades : List (Trade R × SaleFlags)) (p q : EntryPtr R) : Prop :=
  SameNode p q ∧ (q = p ∨ Traded trades p.entry.id)

section Spared

variable {trades trades' : List (Trade R × SaleFlags)} {p q r : EntryPtr R}

theorem Spared.refl (trades : List (Trade R × SaleFlags)) (p : EntryPtr R) : Spared trades p p :=
  ⟨SameNode.refl p, Or.inl rfl⟩

theorem Traded.mono {id : Nat} (traded : Traded trades id) (more : trades ⊆ trades') :
    Traded trades' id :=
  let ⟨t, member, side⟩ := traded
  ⟨t, more member, side⟩

theorem Spared.mono (spared : Spared trades p q) (more : trades ⊆ trades') : Spared trades' p q :=
  ⟨spared.1, spared.2.imp_right fun traded => traded.mono more⟩

theorem Spared.trans (first : Spared trades p q) (second : Spared trades q r) : Spared trades p r := by
  refine ⟨first.1.trans second.1, ?_⟩
  have id : q.entry.id = p.entry.id := by
    obtain ⟨x, rfl⟩ := first.1
    rfl
  rcases second.2 with rfl | traded
  · exact first.2
  · exact Or.inr (id ▸ traded)

theorem forall₂_spared_refl (trades : List (Trade R × SaleFlags)) (l : List (EntryPtr R)) :
    List.Forall₂ (Spared trades) l l :=
  List.forall₂_same.mpr fun p _ => Spared.refl trades p

end Spared

variable [Zero R] [Add R] [Sub R] [Mul R] [LT R] [LE R] [DecidableLT R] [DecidableLE R] [BEq R]

section Loops

variable (product currentTimestamp : Str)

omit [Add R] [Sub R] [Mul R] [LT R] [LE R] [DecidableLT R] [DecidableLE R] [BEq R] in
theorem beginSale_trades (st : PassState R) (bid ask : EntryPtr R) :
    (beginSale st product currentTimestamp bid ask).1.trades = st.trades := by
  unfold beginSale
  split
  · rfl
  · split <;> rfl

/-- A round changes nothing, or records its two orders. -/
theorem bidRound_trades (ask bid : EntryPtr R) (st : PassState R) :
    let r := bidRound product currentTimestamp ask bid st
    r.ask = ask ∧ r.bid = bid ∧ r.st.trades = st.trades ∨
      ∃ t, r.st.trades = st.trades ++ [t] ∧ t.1.bid = bid ∧ t.1.ask = ask := by
  have begun := beginSale_trades product currentTimestamp st bid ask
  have settled : ∀ (ask' bid' : EntryPtr R) (sale : OrderBookEntry R) (how : RoundEnd),
      let r := Round.settled ask' bid'
        (settle (beginSale st product currentTimestamp bid ask).1 sale bid ask) how
      ∃ t, r.st.trades = st.trades ++ [t] ∧ t.1.bid = bid ∧ t.1.ask = ask := by
    intro ask' bid' sale how
    have ended : ∀ r : PassState R × Except Exn Unit, (Round.settled ask' bid' r how).st = r.1 := by
      intro r
      unfold Round.settled
      split <;> rfl
    dsimp only
    rw [ended]
    unfold settle
    exact ⟨_, congrArg (· ++ [_]) begun, rfl, rfl⟩
  unfold bidRound
  split
  · exact Or.inl ⟨rfl, rfl, rfl⟩
  split
  · dsimp only
    split
    · exact Or.inl ⟨rfl, rfl, begun⟩
    split
    · exact Or.inr (settled _ _ _ _)
    split
    · exact Or.inr (settled _ _ _ _)
    split
    · exact Or.inr (settled _ _ _ _)
    · exact Or.inl ⟨rfl, rfl, begun⟩
  · exact Or.inl ⟨rfl, rfl, rfl⟩

/-- How a round leaves its orders, and that it only adds to the trades. -/
theorem bidRound_spares (ask bid : EntryPtr R) (st : PassState R) :
    let r := bidRound product currentTimestamp ask bid st
    st.trades ⊆ r.st.trades ∧ Spared r.st.trades ask r.ask ∧ Spared r.st.trades bid r.bid := by
  have nodes := bidRound_same product currentTimestamp ask bid st
  rcases bidRound_trades product currentTimestamp ask bid st with ⟨sameAsk, sameBid, same⟩ | found
  · refine ⟨?_, ⟨nodes.1, Or.inl sameAsk⟩, ⟨nodes.2, Or.inl sameBid⟩⟩
    rw [same]
    exact List.Subset.refl _
  · obtain ⟨t, trades, isBid, isAsk⟩ := found
    dsimp only
    rw [trades]
    refine ⟨List.subset_append_left _ _, ⟨nodes.1, Or.inr ⟨t, by simp, Or.inr ?_⟩⟩,
      ⟨nodes.2, Or.inr ⟨t, by simp, Or.inl ?_⟩⟩⟩
    · rw [isAsk]
    · rw [isBid]

theorem bidLoop_spares (ask : EntryPtr R) (bids : List (EntryPtr R)) (st : PassState R) :
    let r := bidLoop product currentTimestamp ask bids st
    st.trades ⊆ r.st.trades ∧ List.Forall₂ (Spared r.st.trades) bids r.bids ∧
      ∃ ask', r.asks = [ask'] ∧ Spared r.st.trades ask ask' := by
  induction bids generalizing ask st with
  | nil => exact ⟨List.Subset.refl _, .nil, ask, rfl, Spared.refl _ ask⟩
  | cons bid bids ih =>
    obtain ⟨more, sparedAsk, sparedBid⟩ := bidRound_spares product currentTimestamp ask bid st
    unfold bidLoop
    dsimp only
    split
    · exact ⟨more, .cons sparedBid (forall₂_spared_refl _ bids), _, rfl, sparedAsk⟩
    · exact ⟨more, .cons sparedBid (forall₂_spared_refl _ bids), _, rfl, sparedAsk⟩
    · obtain ⟨more', rest, ask', isAsk, sparedAsk'⟩ := ih
        (bidRound product currentTimestamp ask bid st).ask
        (bidRound product currentTimestamp ask bid st).st
      exact ⟨List.Subset.trans more more', .cons (sparedBid.mono more') rest, ask', isAsk,
        (sparedAsk.mono more').trans sparedAsk'⟩

theorem askLoop_spares (asks bids : List (EntryPtr R)) (st : PassState R) :
    let r := askLoop product currentTimestamp asks bids st
    st.trades ⊆ r.st.trades ∧ List.Forall₂ (Spared r.st.trades) bids r.bids ∧
      List.Forall₂ (Spared r.st.trades) asks r.asks := by
  induction asks generalizing bids st with
  | nil => exact ⟨List.Subset.refl _, forall₂_spared_refl _ bids, .nil⟩
  | cons ask asks ih =>
    unfold askLoop
    split
    · obtain ⟨more, sparedBids, sparedAsks⟩ := ih bids st
      exact ⟨more, sparedBids, .cons (Spared.refl _ ask) sparedAsks⟩
    · obtain ⟨more, sparedBids, ask', isAsk, sparedAsk⟩ :=
        bidLoop_spares product currentTimestamp ask bids st
      dsimp only
      split
      · rw [isAsk]
        exact ⟨more, sparedBids, .cons sparedAsk (forall₂_spared_refl _ asks)⟩
      · obtain ⟨more', sparedBids', sparedAsks⟩ :=
          ih (bidLoop product currentTimestamp ask bids st).bids
            (bidLoop product currentTimestamp ask bids st).st
        refine ⟨List.Subset.trans more more', ListFacts.forall₂_trans ?_ sparedBids' Spared.trans, ?_⟩
        · exact sparedBids.imp fun _ _ spared => spared.mono more'
        · rw [isAsk]
          exact .cons (sparedAsk.mono more') sparedAsks

end Loops

/-- A pass leaves the lists of other products alone. -/
theorem matchAsksToBids_other (std : StdSort (EntryPtr R)) (book : OrderBook R)
    (product currentTimestamp : Str) (userStore : UserStore R) (nextId : Nat) {p : Str}
    (other : p ≠ product) :
    (book.matchAsksToBids std product currentTimestamp userStore nextId).book.orders p =
      book.orders p := by
  obtain ⟨middle, l, written, left⟩ :=
    matchAsksToBids_lists std book product currentTimestamp userStore nextId
  have kept : middle.orders p = book.orders p := by
    rw [written.2.2.1, if_neg other]
  rw [left]
  split
  · exact kept
  · rw [removeMatchedOrders_orders, if_neg other]
    exact kept

/-- An order that no trade of the pass names stays as it is, if its amount does not have it removed. -/
theorem matchAsksToBids_spares {std : StdSort (EntryPtr R)} {book : OrderBook R}
    {product currentTimestamp : Str} {userStore : UserStore R} {nextId : Nat} {p : Str}
    {o : OrderBookEntry R} (member : o ∈ book.orders p)
    (spared : p = product → ¬ Traded
      (book.matchAsksToBids std product currentTimestamp userStore nextId).trades o.id)
    (open' : p = product → ¬ o.amount ≤ 0) :
    o ∈ (book.matchAsksToBids std product currentTimestamp userStore nextId).book.orders p := by
  by_cases this : p = product
  swap
  · rw [matchAsksToBids_other std book product currentTimestamp userStore nextId this]
    exact member
  subst this
  replace spared := spared rfl
  replace open' := open' rfl
  unfold matchAsksToBids at spared ⊢
  cases found : book.orderMap.lookup p with
  | none =>
    rw [orders_of_lookup_none found] at member
    cases member
  | some l =>
    rw [orders_of_lookup found] at member
    obtain ⟨-, bids, asks⟩ := askLoop_spares p currentTimestamp (sortedAsks std l)
      (sortedBids std l) ⟨userStore, nextId, [], []⟩
    have lists := List.rel_append bids asks
    have changed : List.Forall₂
        (fun o o' : OrderBookEntry R => o' = o ∨ Traded
          (passLoop std l p currentTimestamp userStore nextId).st.trades o.id) l
        (writeBack l ((passLoop std l p currentTimestamp userStore nextId).bids ++
          (passLoop std l p currentTimestamp userStore nextId).asks)) := by
      refine writeBack_forall₂ (fun o => Or.inl rfl) (lists.imp fun q q' related => ?_)
      exact ⟨related.1.entry.1, related.2.imp_left fun same => by rw [same]⟩
    obtain ⟨o', inList, kept⟩ := ListFacts.forall₂_mem_left changed member
    have list : ∀ book' : OrderBook R, book'.orderMap = book.orderMap.insert p
        (writeBack l ((passLoop std l p currentTimestamp userStore nextId).bids ++
          (passLoop std l p currentTimestamp userStore nextId).asks)) → o' ∈ book'.orders p := by
      intro book' map
      rw [orders_insert book map, if_pos rfl]
      exact inList
    cases outcome : (passLoop std l p currentTimestamp userStore nextId).result with
    | error e =>
      simp only [found, outcome] at spared ⊢
      obtain rfl := kept.resolve_right spared
      exact list _ rfl
    | ok _ =>
      simp only [found, outcome] at spared ⊢
      obtain rfl := kept.resolve_right spared
      rw [removeMatchedOrders_orders, if_pos rfl]
      exact List.mem_filter.mpr ⟨list _ rfl, decide_eq_true open'⟩

end OrderBook

end MiniATS
