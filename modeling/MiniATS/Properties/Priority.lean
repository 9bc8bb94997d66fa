import MiniATS.Properties.MarketClearing
import MiniATS.Proofs.QueueService

/-!
# Price-time priority

Between prices a pass that returns serves the better orders first, whatever `std::sort` does with
orders of one price (`price_priority`). Among orders of one price it serves them in the order
`std::sort` gives them, for the comparators look at the price only: the earlier order comes first
unless the queues are served to an end among orders that were put the other way round
(`time_priority_iff`). The second result holds for any numbers, `double` among them.
-/

namespace MiniATS

open Crossing

namespace OrderBook

/-- An order of the same side with a strictly better price: a higher bid, a lower ask. -/
def Better (o' o : OrderBookEntry ℚ) : Prop :=
  o'.orderType = o.orderType ∧
    (o.orderType = .bid ∧ o.price < o'.price ∨ o.orderType = .ask ∧ o'.price < o.price)

/-- The amount of the order at a place is less after than before. -/
def ReducedAt {R : Type} [LT R] (before after : List (OrderBookEntry R)) (i : Nat) : Prop :=
  ∃ o o', before[i]? = some o ∧ after[i]? = some o' ∧ o'.amount < o.amount

/-- Nothing is left of the order at a place. -/
def FilledAt {R : Type} [Zero R] [LE R] (after : List (OrderBookEntry R)) (i : Nat) : Prop :=
  ∃ o', after[i]? = some o' ∧ o'.amount ≤ 0

section Priority

variable {std : StdSort (EntryPtr ℚ)} {l : List (OrderBookEntry ℚ)} {i j : Nat}
  {o o' : OrderBookEntry ℚ}

/-- `std::sort` puts the better order ahead. -/
theorem ahead_of_better (stands : l[i]? = some o) (stands' : l[j]? = some o') (better : Better o' o) :
    (⟨j, o'⟩ : EntryPtr ℚ) ∈ ahead std l o.orderType i := by
  have isOrder : o.orderType ≠ .sale := by
    rcases better.2 with ⟨side, -⟩ | ⟨side, -⟩ <;> rw [side] <;> decide
  obtain ⟨after, split⟩ := sortedSide_split std stands isOrder
  have member : (⟨j, o'⟩ : EntryPtr ℚ) ∈ sortedSide std l o.orderType :=
    mem_sortedSide.mpr ⟨stands', better.1, isOrder⟩
  rw [split] at member
  apply (List.mem_append.mp member).resolve_right
  intro notAhead
  rcases better.2 with ⟨side, price⟩ | ⟨side, price⟩
  · have sorted := sortedBids_pairwise std l
    rw [side] at split
    change sortedBids std l = _ at split
    rw [split] at sorted
    rcases List.mem_cons.mp notAhead with same | later
    · obtain ⟨-, rfl⟩ := EntryPtr.mk.inj same
      exact lt_irrefl _ price
    · have order := (List.pairwise_cons.mp (List.pairwise_append.mp sorted).2.1).1 _ later
      exact not_lt.mpr order price
  · have sorted := sortedAsks_pairwise std l
    rw [side] at split
    change sortedAsks std l = _ at split
    rw [split] at sorted
    rcases List.mem_cons.mp notAhead with same | later
    · obtain ⟨-, rfl⟩ := EntryPtr.mk.inj same
      exact lt_irrefl _ price
    · have order := (List.pairwise_cons.mp (List.pairwise_append.mp sorted).2.1).1 _ later
      exact not_lt.mpr order price

end Priority

section Returned

variable {std : StdSort (EntryPtr ℚ)} {book : OrderBook ℚ} {product currentTimestamp : Str}
  {userStore : UserStore ℚ} {nextId : Nat} {sales : List (OrderBookEntry ℚ)}

/-- An order that is ahead of one that was reduced is filled. -/
theorem filled_of_ahead
    (returned : (book.matchAsksToBids std product currentTimestamp userStore nextId).result = .ok sales)
    {i j : Nat} {o o' : OrderBookEntry ℚ}
    (stands : (book.orders product)[i]? = some o) (stands' : (book.orders product)[j]? = some o')
    (side : o'.orderType = o.orderType) (positive : 0 < o'.amount)
    (isAhead : (⟨j, o'⟩ : EntryPtr ℚ) ∈ ahead std (book.orders product) o.orderType i)
    (reduced : ReducedAt (book.orders product)
      (afterLoops std (book.orders product) product currentTimestamp userStore nextId) i) :
    FilledAt (afterLoops std (book.orders product) product currentTimestamp userStore nextId) j := by
  obtain ⟨before, after, isBefore, isAfter, less⟩ := reduced
  rw [stands] at isBefore
  obtain rfl := Option.some.inj isBefore
  obtain ⟨positive', isOrder⟩ := positive_of_reduced returned stands isAfter less
  have reached := (reduced_iff returned stands isAfter positive' isOrder).mp less
  have isOrder' : o'.orderType ≠ .sale := side ▸ isOrder
  have left := afterLoops_at returned stands' isOrder'
  refine ⟨_, left, (filled_iff returned stands' left positive isOrder').mpr ?_⟩
  rw [side]
  exact (ahead_total_le isAhead positive).trans reached.le

/-- The fills use asks of non-decreasing and bids of non-increasing price, and when an order was
reduced, every better one with a positive amount is filled and taken out of the list. -/
theorem price_priority
    (returned : (book.matchAsksToBids std product currentTimestamp userStore nextId).result = .ok sales) :
    let left := afterLoops std (book.orders product) product currentTimestamp userStore nextId
    let pass := book.matchAsksToBids std product currentTimestamp userStore nextId
    (pass.trades.map Prod.fst).Pairwise (fun t t' =>
      t.ask.entry.price ≤ t'.ask.entry.price ∧ t'.bid.entry.price ≤ t.bid.entry.price) ∧
    pass.book.orders product = left.filter (fun o => ¬ o.amount ≤ 0) ∧
    ∀ i j o o', (book.orders product)[i]? = some o → (book.orders product)[j]? = some o' →
      Better o' o → 0 < o'.amount → ReducedAt (book.orders product) left i → FilledAt left j := by
  refine ⟨?_, ?_, fun i j o o' stands stands' better positive reduced => ?_⟩
  · rw [trades_of_returned returned, List.pairwise_map]
    exact (passPlan_sorted std _).and (plan_bids_sorted _ (sortedBids_pairwise std _))
  · rw [orders_of_returned returned, if_pos rfl]
  · exact filled_of_ahead returned stands stands' better.1 positive
      (ahead_of_better stands stands' better) reduced

/-- In the sample the bid at ten dollars is reduced, so the one at eleven is filled. -/
theorem price_priority_sample : FilledAt (afterLoops (StdSort.insertion _)
    ((sampleBook sampleOrders).orders (str "BTC/USD")) (str "BTC/USD") [] .empty 4) 0 := by
  obtain ⟨sales, returned⟩ := samplePass_returned
  obtain ⟨o', isLeft, less⟩ := Option.any_eq_true _ _ |>.mp (show ((afterLoops (StdSort.insertion _)
    ((sampleBook sampleOrders).orders (str "BTC/USD")) (str "BTC/USD") [] .empty 4)[1]?).any
      (fun o' => decide (o'.amount < 3)) = true by decide +kernel)
  exact (price_priority returned).2.2 1 0 (sampleOrder .bid 10 3 2) (sampleOrder .bid 11 1 1)
    (by decide +kernel) (by decide +kernel) ⟨rfl, Or.inl ⟨rfl, by decide +kernel⟩⟩ (by decide +kernel)
    ⟨sampleOrder .bid 10 3 2, o', by decide +kernel, isLeft, of_decide_eq_true less⟩

end Returned

section Time

variable {R : Type} [Zero R] [Sub R] [LT R] [LE R] [DecidableLT R] [DecidableLE R] [BEq R]

/-- Two orders of one side and one price with positive amounts, the first earlier in the list. -/
structure SamePrice (l : List (OrderBookEntry R)) (i j : Nat) (o o' : OrderBookEntry R) : Prop where
  earlier : i < j
  stands : l[i]? = some o
  stands' : l[j]? = some o'
  side : o'.orderType = o.orderType
  isOrder : o.orderType ≠ .sale
  price : (o.price == o'.price) = true
  positive : 0 < o.amount
  positive' : 0 < o'.amount

/-- When the later of two orders of one price has been reduced, the earlier one is filled. -/
def TimePriority (before after : List (OrderBookEntry R)) : Prop :=
  ∀ i j o o', SamePrice before i j o o' → ReducedAt before after j → FilledAt after i

/-- What the queue of a side has left of the order at a place when both queues have been served. -/
def queueLeft (std : StdSort (EntryPtr R)) (l : List (OrderBookEntry R)) : OrderBookType → Nat → R
  | .bid, i => leftIn (served std l).2 i
  | .ask, i => leftIn (served std l).1 i
  | .sale, _ => 0

/-- `std::sort` puts the later of two orders of one price first, and the queues are served to an end
when the later one has been reduced and something is left of the earlier one. -/
def Overtaken (std : StdSort (EntryPtr R)) (l : List (OrderBookEntry R)) : Prop :=
  ∃ i j o o', SamePrice l i j o o' ∧ [⟨j, o'⟩, ⟨i, o⟩].Sublist (sortedSide std l o.orderType) ∧
    queueLeft std l o.orderType j < o'.amount ∧ ¬ queueLeft std l o.orderType i ≤ 0

section Left

variable {std : StdSort (EntryPtr R)}

/-- A pass that returns leaves the list as the meetings of the pass do. -/
theorem afterLoops_meetings [Add R] [Mul R] {book : OrderBook R} {product currentTimestamp : Str}
    {userStore : UserStore R} {nextId : Nat} {sales : List (OrderBookEntry R)}
    (returned : (book.matchAsksToBids std product currentTimestamp userStore nextId).result = .ok sales) :
    let m := passMeetings std (book.orders product)
    afterLoops std (book.orders product) product currentTimestamp userStore nextId =
      writeBack (book.orders product) (m.bids ++ m.asks) := by
  obtain ⟨outcome, -⟩ := matchAsksToBids_written std book product currentTimestamp userStore nextId
  rw [returned] at outcome
  have left := (askLoop_meetings product currentTimestamp (sortedAsks std (book.orders product))
    (sortedBids std (book.orders product)) ⟨userStore, nextId, [], []⟩).2
  rcases run : passLoop std (book.orders product) product currentTimestamp userStore nextId with
    ⟨asks, bids, st, e | ⟨⟩⟩
  · rw [run] at outcome
    cases outcome
  · unfold passLoop at run
    rw [run] at left
    obtain ⟨isAsks, isBids⟩ := left rfl
    unfold afterLoops passLoop
    rw [run]
    exact congrArg (writeBack _) (congrArg₂ (· ++ ·) isBids isAsks)

variable [AmountOrder R] [NumberOrder R]

/-- What the meetings leave of an order is what its queue has left of it. -/
theorem writeBack_queueLeft {l : List (OrderBookEntry R)} (ordered : SidesOrdered std l) {i : Nat}
    {o : OrderBookEntry R} (stands : l[i]? = some o) (isOrder : o.orderType ≠ .sale)
    (tradable : Tradable ⟨i, o⟩) :
    ∃ o', (writeBack l ((passMeetings std l).bids ++ (passMeetings std l).asks))[i]? = some o' ∧
      o'.amount = queueLeft std l o.orderType i := by
  obtain ⟨spentAsks, spentBids⟩ := meetAsks_spent (sortedAsks std l) (sortedBids std l)
  obtain ⟨queueAsks, queueBids⟩ := Prod.mk.inj (meetAsks_serve
    (ordered.1.imp fun order => of_decide_eq_false order)
    (ordered.2.imp fun order => of_decide_eq_false order))
  have same := (List.rel_append spentBids spentAsks).imp fun _ _ spent => spent.1
  have member : (⟨i, o⟩ : EntryPtr R) ∈ sortedSide std l o.orderType :=
    mem_sortedSide.mpr ⟨stands, rfl, isOrder⟩
  have distinct := sortedSide_pos_nodup std l o.orderType
  cases type : o.orderType with
  | sale => exact absurd type isOrder
  | bid =>
    rw [type] at member distinct
    obtain ⟨q, inBids, place, amount⟩ := leftIn_queue distinct spentBids member tradable
    have written := writeBack_at same (List.mem_append_left _ inBids)
    rw [place] at written
    exact ⟨q.entry, written, amount.symm.trans (congrArg (leftIn · i) queueBids)⟩
  | ask =>
    rw [type] at member distinct
    obtain ⟨q, inAsks, place, amount⟩ := leftIn_queue distinct spentAsks member tradable
    have written := writeBack_at same (List.mem_append_right _ inAsks)
    rw [place] at written
    exact ⟨q.entry, written, amount.symm.trans (congrArg (leftIn · i) queueAsks)⟩

/-- When an order of a side has less left, the orders ahead of it in the queue have nothing left. -/
theorem queueLeft_of_ahead {l : List (OrderBookEntry R)} {i j : Nat} {o o' : OrderBookEntry R}
    {side : OrderBookType} (isOrder : side ≠ .sale)
    (isAhead : [⟨i, o⟩, ⟨j, o'⟩].Sublist (sortedSide std l side))
    (tradable : Tradable ⟨i, o⟩) (tradable' : Tradable ⟨j, o'⟩)
    (less : queueLeft std l side j < o'.amount) :
    queueLeft std l side i ≤ 0 := by
  have front : ∀ {ps qs : List (EntryPtr R)}, Cut (queue ps) qs → (ps.map fun p => p.pos).Nodup →
      [⟨i, o⟩, ⟨j, o'⟩].Sublist ps → leftIn qs j < o'.amount → leftIn qs i ≤ 0 := by
    intro ps qs cut distinct before less
    have distinct' := distinct.sublist (List.filter_sublist.map _ : ((queue ps).map fun p => p.pos).Sublist _)
    have before' : [⟨i, o⟩, ⟨j, o'⟩].Sublist (queue ps) := by
      have both : (queue [⟨i, o⟩, ⟨j, o'⟩]).Sublist (queue ps) := before.filter _
      rwa [queue_cons_of_tradable tradable, queue_cons_of_tradable tradable'] at both
    have touched : (⟨j, o'⟩ : EntryPtr R) ∉ qs := by
      intro member
      have whole : leftIn qs j = o'.amount := leftIn_of_mem (distinct'.sublist cut.places) member
      rw [whole] at less
      exact NumberOrder.lt_irrefl _ less
    rw [leftIn_of_gone (cut.front distinct' before' touched)]
    exact AmountOrder.zero_le
  have distinct := sortedSide_pos_nodup std l side
  obtain ⟨asks, bids⟩ := serve_cut (queue (sortedAsks std l)) (queue (sortedBids std l))
  cases side with
  | sale => exact absurd rfl isOrder
  | bid => exact front bids distinct isAhead less
  | ask => exact front asks distinct isAhead less

end Left

/-- A pass that returns keeps the order of time among orders of one price exactly when no order is
overtaken where the queues are served to an end. -/
theorem time_priority_iff [Add R] [Mul R] [AmountOrder R] [NumberOrder R] {std : StdSort (EntryPtr R)}
    {book : OrderBook R} {product currentTimestamp : Str} {userStore : UserStore R} {nextId : Nat}
    {sales : List (OrderBookEntry R)} (ordered : SidesOrdered std (book.orders product))
    (returned : (book.matchAsksToBids std product currentTimestamp userStore nextId).result = .ok sales) :
    TimePriority (book.orders product)
        (afterLoops std (book.orders product) product currentTimestamp userStore nextId) ↔
      ¬ Overtaken std (book.orders product) := by
  have known : ∀ {i j o o'}, SamePrice (book.orders product) i j o o' →
      o'.orderType ≠ .sale ∧ Tradable (⟨i, o⟩ : EntryPtr R) ∧ Tradable (⟨j, o'⟩ : EntryPtr R) := by
    intro i j o o' pair
    obtain ⟨most, -⟩ := NumberOrder.le_of_beq _ _ pair.price
    obtain ⟨number, number'⟩ := NumberOrder.comparable _ _ most
    exact ⟨pair.side ▸ pair.isOrder, ⟨pair.positive, number⟩, pair.positive', number'⟩
  rw [afterLoops_meetings returned]
  constructor
  · rintro priority ⟨i, j, o, o', pair, -, less, rest⟩
    obtain ⟨isOrder', tradable, tradable'⟩ := known pair
    obtain ⟨o₁, left, amount⟩ := writeBack_queueLeft ordered pair.stands pair.isOrder tradable
    obtain ⟨o₂, left', amount'⟩ := writeBack_queueLeft ordered pair.stands' isOrder' tradable'
    rw [pair.side] at amount'
    obtain ⟨o₃, isLeft, empty⟩ := priority i j o o' pair
      ⟨o', o₂, pair.stands', left', by rwa [amount']⟩
    rw [left] at isLeft
    obtain rfl := Option.some.inj isLeft
    rw [amount] at empty
    exact rest empty
  · intro none' i j o o' pair reduced
    obtain ⟨isOrder', tradable, tradable'⟩ := known pair
    obtain ⟨o₁, left, amount⟩ := writeBack_queueLeft ordered pair.stands pair.isOrder tradable
    obtain ⟨o₂, left', amount'⟩ := writeBack_queueLeft ordered pair.stands' isOrder' tradable'
    rw [pair.side] at amount'
    obtain ⟨before, after, isBefore, isAfter, less⟩ := reduced
    rw [pair.stands'] at isBefore
    obtain rfl := Option.some.inj isBefore
    rw [left'] at isAfter
    obtain rfl := Option.some.inj isAfter
    rw [amount'] at less
    refine ⟨o₁, left, amount ▸ ?_⟩
    have member : (⟨i, o⟩ : EntryPtr R) ∈ sortedSide std (book.orders product) o.orderType :=
      mem_sortedSide.mpr ⟨pair.stands, rfl, pair.isOrder⟩
    have member' : (⟨j, o'⟩ : EntryPtr R) ∈ sortedSide std (book.orders product) o.orderType :=
      mem_sortedSide.mpr ⟨pair.stands', pair.side, pair.isOrder⟩
    have different : (⟨i, o⟩ : EntryPtr R) ≠ ⟨j, o'⟩ := fun same => pair.earlier.ne (EntryPtr.mk.inj same).1
    -- the later one was ahead, or else it was served last
    rcases ListFacts.pair_sublist different member member' with early | late
    · exact queueLeft_of_ahead pair.isOrder early tradable tradable' less
    · by_contra rest
      exact none' ⟨i, j, o, o', pair, late, less, rest⟩

/-- With exact rationals the comparators are strict weak orders, so `std::sort` puts the sides in
their order. -/
theorem ordered_rat (std : StdSort (EntryPtr ℚ)) (l : List (OrderBookEntry ℚ)) : SidesOrdered std l :=
  ⟨(sortedAsks_pairwise std l).imp fun most => decide_eq_false (not_lt.mpr most),
    (sortedBids_pairwise std l).imp fun most => decide_eq_false (not_lt.mpr most)⟩

/-- Two bids at ten dollars, and an ask for one of them. -/
def tiedOrders : List (OrderBookEntry ℚ) :=
  [sampleOrder .bid 10 1 1, sampleOrder .bid 10 1 2, sampleOrder .ask 9 1 3]

/-- A pass with a sort that turns equal orders round. -/
def tiedPass (std : StdSort (EntryPtr ℚ)) : PassEnd ℚ :=
  (sampleBook tiedOrders).matchAsksToBids std (str "BTC/USD") [] .empty 4

theorem tiedPass_returned (std : StdSort (EntryPtr ℚ)) (ok : (tiedPass std).result.isOk) :
    ∃ sales, (tiedPass std).result = .ok sales := by
  cases ended : (tiedPass std).result with
  | ok sales => exact ⟨sales, rfl⟩
  | error e =>
    rw [ended] at ok
    cases ok

private theorem tied_not_priority : ¬ TimePriority ((sampleBook tiedOrders).orders (str "BTC/USD"))
    (afterLoops (StdSort.backwards _) ((sampleBook tiedOrders).orders (str "BTC/USD")) (str "BTC/USD")
      [] .empty 4) := by
  intro priority
  obtain ⟨first, isFirst, whole⟩ := Option.any_eq_true _ _ |>.mp (show ((afterLoops
    (StdSort.backwards _) ((sampleBook tiedOrders).orders (str "BTC/USD")) (str "BTC/USD") []
      .empty 4)[0]?).any (fun o' => decide (0 < o'.amount)) = true by decide +kernel)
  obtain ⟨second, isSecond, less⟩ := Option.any_eq_true _ _ |>.mp (show ((afterLoops
    (StdSort.backwards _) ((sampleBook tiedOrders).orders (str "BTC/USD")) (str "BTC/USD") []
      .empty 4)[1]?).any (fun o' => decide (o'.amount < 1)) = true by decide +kernel)
  have pair : SamePrice ((sampleBook tiedOrders).orders (str "BTC/USD")) 0 1
      (sampleOrder .bid 10 1 1) (sampleOrder .bid 10 1 2) :=
    ⟨by decide, by decide +kernel, by decide +kernel, rfl, by decide, by decide +kernel,
      by decide +kernel, by decide +kernel⟩
  obtain ⟨left, isLeft, empty⟩ := priority 0 1 _ _ pair
    ⟨_, second, pair.stands', isSecond, of_decide_eq_true less⟩
  rw [isFirst] at isLeft
  obtain rfl := Option.some.inj isLeft
  exact absurd empty (not_le.mpr (of_decide_eq_true whole))

/-- With a sort that turns equal orders round the second bid overtakes the first. -/
theorem time_priority_iff_tied : Overtaken (StdSort.backwards _)
    ((sampleBook tiedOrders).orders (str "BTC/USD")) := by
  obtain ⟨sales, returned⟩ := tiedPass_returned (StdSort.backwards _) (by decide +kernel)
  by_contra none'
  exact tied_not_priority ((time_priority_iff (ordered_rat _ _) returned).mpr none')

/-- The second bid is filled, the first is not. -/
theorem second_bid_first : ∃ sales, (tiedPass (StdSort.backwards _)).result = .ok sales ∧
    ¬ TimePriority ((sampleBook tiedOrders).orders (str "BTC/USD"))
      (afterLoops (StdSort.backwards _) ((sampleBook tiedOrders).orders (str "BTC/USD")) (str "BTC/USD")
        [] .empty 4) := by
  obtain ⟨sales, returned⟩ := tiedPass_returned (StdSort.backwards _) (by decide +kernel)
  exact ⟨sales, returned, tied_not_priority⟩

end Time

end OrderBook

end MiniATS
