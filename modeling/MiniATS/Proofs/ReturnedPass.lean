import Mathlib.Data.List.TakeWhile
import MiniATS.Misc.Clearing
import MiniATS.Proofs.Pass
import MiniATS.Proofs.PassUncrosses

/-!
# What a returned pass leaves of each order

The orders of a list are told apart by their places in it. A pass that returns has settled every
match of its plan, so an order is left as if the volume of the plan had been taken in turn from the
orders of its side that `std::sort` put ahead of it.
-/

namespace MiniATS

open Crossing

namespace OrderBook

section Lists

variable {R : Type} [LT R] [DecidableLT R]

/-- The list of a product as the loops of a pass leave it, before `removeMatchedOrders`. -/
def afterLoops [Zero R] [Add R] [Sub R] [Mul R] [LE R] [DecidableLE R] [BEq R]
    (std : StdSort (EntryPtr R)) (l : List (OrderBookEntry R)) (product currentTimestamp : Str)
    (userStore : UserStore R) (nextId : Nat) : List (OrderBookEntry R) :=
  let r := passLoop std l product currentTimestamp userStore nextId
  writeBack l (r.bids ++ r.asks)

/-- The orders of a side in the order `std::sort` gives them. -/
def sortedSide (std : StdSort (EntryPtr R)) (l : List (OrderBookEntry R)) :
    OrderBookType → List (EntryPtr R)
  | .bid => sortedBids std l
  | .ask => sortedAsks std l
  | .sale => []

variable {std : StdSort (EntryPtr R)} {l : List (OrderBookEntry R)}

theorem mem_sortedSide {side : OrderBookType} {p : EntryPtr R} :
    p ∈ sortedSide std l side ↔
      l[p.pos]? = some p.entry ∧ p.entry.orderType = side ∧ side ≠ .sale := by
  cases side with
  | bid => simp [sortedSide, mem_sortedBids]
  | ask => simp [sortedSide, mem_sortedAsks]
  | sale => simp [sortedSide]

variable (std l) in
theorem sortedSide_pos_nodup (side : OrderBookType) :
    ((sortedSide std l side).map (fun p => p.pos)).Nodup := by
  cases side with
  | bid => exact ((std.perm _ _).map _).nodup_iff.mpr (getOrders_pos_nodup l .bid)
  | ask => exact ((std.perm _ _).map _).nodup_iff.mpr (getOrders_pos_nodup l .ask)
  | sale => exact List.nodup_nil

/-- A pointer that is written back is found at its place. -/
theorem writeBack_at {ptrs : List (EntryPtr R)}
    (same : List.Forall₂ SameNode (sortedBids std l ++ sortedAsks std l) ptrs) {q : EntryPtr R}
    (member : q ∈ ptrs) : (writeBack l ptrs)[q.pos]? = some q.entry := by
  have distinct : ((ptrs.map (fun p => (p.pos, p.entry))).map Prod.fst).Nodup := by
    rw [List.map_map, Function.comp_def]
    refine (ListFacts.forall₂_map_eq (fun _ _ related => ?_) same) ▸ sorted_pos_nodup std l
    exact related.entry.1.symm
  obtain ⟨p, inSorted, related⟩ := ListFacts.forall₂_mem_right same member
  have stands := sorted_stands inSorted
  rw [← related.entry.1] at stands
  exact ListFacts.getElem?_putAll_of_mem distinct (List.mem_map_of_mem member)
    (List.getElem?_eq_some_iff.mp stands).1

end Lists

/-- The orders of a side that `std::sort` puts ahead of the order at a place of the list. -/
def ahead (std : StdSort (EntryPtr ℚ)) (l : List (OrderBookEntry ℚ)) (side : OrderBookType) (i : Nat) :
    List (EntryPtr ℚ) :=
  (sortedSide std l side).takeWhile (fun p => p.pos ≠ i)

section Sides

variable {std : StdSort (EntryPtr ℚ)} {l : List (OrderBookEntry ℚ)} {i j : Nat}
  {o o' : OrderBookEntry ℚ}

/-- A pointer is known by its place. -/
theorem ptr_of_place {side : OrderBookType} {p : EntryPtr ℚ} (member : p ∈ sortedSide std l side)
    (stands : l[i]? = some o) (here : p.pos = i) : p = ⟨i, o⟩ := by
  have stands' := (mem_sortedSide.mp member).1
  rw [here, stands] at stands'
  obtain ⟨pos, entry⟩ := p
  exact EntryPtr.mk.injEq .. ▸ ⟨here, (Option.some.inj stands').symm⟩

/-- The order at a place comes after those ahead of it. -/
theorem sortedSide_split (std : StdSort (EntryPtr ℚ)) (stands : l[i]? = some o) (isOrder : o.orderType ≠ .sale) :
    ∃ after, sortedSide std l o.orderType = ahead std l o.orderType i ++ ⟨i, o⟩ :: after := by
  have member : (⟨i, o⟩ : EntryPtr ℚ) ∈ sortedSide std l o.orderType :=
    mem_sortedSide.mpr ⟨stands, rfl, isOrder⟩
  have split := List.takeWhile_append_dropWhile (p := fun p : EntryPtr ℚ => p.pos ≠ i)
    (l := sortedSide std l o.orderType)
  cases rest : (sortedSide std l o.orderType).dropWhile (fun p => p.pos ≠ i) with
  | nil =>
    have here := List.dropWhile_eq_nil_iff.mp rest _ member
    simp at here
  | cons q after =>
    have isPlace : q.pos = i := by
      have head := List.head?_dropWhile_not (fun p : EntryPtr ℚ => decide (p.pos ≠ i))
        (sortedSide std l o.orderType)
      rw [rest] at head
      simpa using head
    have inSide : q ∈ sortedSide std l o.orderType := by
      rw [← split, rest]
      simp
    rw [rest, ptr_of_place inSide stands isPlace] at split
    exact ⟨after, split.symm⟩

/-- Whatever is ahead of an order that is itself ahead, is ahead. -/
theorem ahead_total_le {side : OrderBookType} (isAhead : (⟨j, o'⟩ : EntryPtr ℚ) ∈ ahead std l side i)
    (positive : 0 < o'.amount) : total (ahead std l side j) + o'.amount ≤ total (ahead std l side i) := by
  have notAhead : (⟨j, o'⟩ : EntryPtr ℚ) ∉ ahead std l side j := by
    intro member
    have := List.mem_takeWhile_imp member
    simp at this
  have before : ahead std l side j <+: ahead std l side i := by
    refine (List.prefix_or_prefix_of_prefix (List.takeWhile_prefix _)
      (List.takeWhile_prefix _)).resolve_right fun shorter => ?_
    exact notAhead (shorter.subset isAhead)
  obtain ⟨rest, split⟩ := before
  rw [← split] at isAhead ⊢
  have inRest := (List.mem_append.mp isAhead).resolve_left notAhead
  rw [total_append]
  refine add_le_add_right ?_ _
  unfold total
  refine List.single_le_sum ?_ _ (List.mem_map.mpr ⟨_, List.mem_filter.mpr ⟨inRest, ?_⟩, rfl⟩)
  · intro x member
    obtain ⟨p, inList, rfl⟩ := List.mem_map.mp member
    exact (of_decide_eq_true (List.mem_filter.mp inList).2).le
  · exact decide_eq_true positive

end Sides

section Consumed

variable (std : StdSort (EntryPtr ℚ)) (l : List (OrderBookEntry ℚ))

theorem getOrders_entries {R : Type} (l : List (OrderBookEntry R)) (type : OrderBookType) :
    (getOrders l type).map (fun p => p.entry) = l.filter (fun o => o.orderType = type) := by
  have filtered := List.filter_map (f := Prod.fst) (l := l.zipIdx) (p := fun o => decide (o.orderType = type))
  rw [List.zipIdx_map_fst] at filtered
  rw [filtered, getOrders, List.map_map]
  rfl

/-- The orders of a side, in some order. -/
theorem sortedSide_entries {side : OrderBookType} (isSide : side ≠ .sale) :
    ((sortedSide std l side).map (fun p => p.entry)).Perm (l.filter (fun o => o.orderType = side)) := by
  rw [← getOrders_entries]
  cases side with
  | bid => exact (std.perm _ _).map _
  | ask => exact (std.perm _ _).map _
  | sale => exact absurd rfl isSide

variable {std l}

theorem consume_pos_nodup (v : ℚ) (side : OrderBookType) :
    ((consume v (sortedSide std l side)).map (fun p => p.pos)).Nodup := by
  have places : ∀ (v : ℚ) (ps : List (EntryPtr ℚ)),
      (consume v ps).map (fun p => p.pos) = ps.map (fun p => p.pos) := by
    intro v ps
    induction ps generalizing v with
    | nil => rfl
    | cons p ps ih =>
      unfold consume
      split
      · rw [List.map_cons, List.map_cons, ih]
      · rw [List.map_cons, List.map_cons, ih]
        rfl
  rw [places]
  exact sortedSide_pos_nodup std l side

/-- What is left of an order when the orders of its side have been served in turn. -/
theorem leftOver_mem (std : StdSort (EntryPtr ℚ)) {v : ℚ} (nonneg : 0 ≤ v) {i : Nat}
    {o : OrderBookEntry ℚ} (stands : l[i]? = some o) (isOrder : o.orderType ≠ .sale) :
    leftOver v (ahead std l o.orderType i) ⟨i, o⟩ ∈ consume v (sortedSide std l o.orderType) ∧
      (leftOver v (ahead std l o.orderType i) (⟨i, o⟩ : EntryPtr ℚ)).pos = i := by
  constructor
  · obtain ⟨after, split⟩ := sortedSide_split std stands isOrder
    obtain ⟨after', consumed'⟩ := consume_append_cons nonneg (ahead std l o.orderType i)
      (⟨i, o⟩ : EntryPtr ℚ) after
    rw [split, consumed']
    simp
  · unfold leftOver
    split <;> rfl

/-- What no pointer refers to is left as it is. -/
theorem writeBack_other {ptrs : List (EntryPtr ℚ)}
    (same : List.Forall₂ SameNode (sortedBids std l ++ sortedAsks std l) ptrs) {i : Nat}
    {o : OrderBookEntry ℚ} (stands : l[i]? = some o) (isSale : o.orderType = .sale) :
    (writeBack l ptrs)[i]? = some o := by
  unfold writeBack
  rw [ListFacts.getElem?_putAll_of_notMem, stands]
  intro written
  obtain ⟨cell, inCells, rfl⟩ := List.mem_map.mp written
  obtain ⟨q, inPtrs, rfl⟩ := List.mem_map.mp inCells
  obtain ⟨p, inSorted, related⟩ := ListFacts.forall₂_mem_right same inPtrs
  have place := related.entry.1
  dsimp only at stands
  rcases List.mem_append.mp inSorted with isBid | isAsk
  · obtain ⟨stands', type⟩ := mem_sortedBids.mp isBid
    rw [place, stands'] at stands
    rw [Option.some.inj stands, isSale] at type
    cases type
  · obtain ⟨stands', type⟩ := mem_sortedAsks.mp isAsk
    rw [place, stands'] at stands
    rw [Option.some.inj stands, isSale] at type
    cases type

/-- What the matches of a pass amount to when all of them settle. -/
def passVolume (std : StdSort (EntryPtr ℚ)) (l : List (OrderBookEntry ℚ)) : ℚ := volume (passPlan std l)

theorem passVolume_nonneg (std : StdSort (EntryPtr ℚ)) (l : List (OrderBookEntry ℚ)) :
    0 ≤ passVolume std l :=
  volume_nonneg fun _ member => plan_positive member

variable (std l)

/-- The orders of both sides after the volume of the plan has been taken from each in turn. -/
def consumed : List (EntryPtr ℚ) :=
  consume (passVolume std l) (sortedBids std l) ++ consume (passVolume std l) (sortedAsks std l)

theorem consumed_same : List.Forall₂ SameNode (sortedBids std l ++ sortedAsks std l) (consumed std l) := by
  obtain ⟨bids, asks⟩ := plan_consumes (sortedAsks_pairwise std l) (sortedBids_pairwise std l)
  have same := crossList_sameNode std l accept ()
  have isBids : (crossList std l accept () : Outcome (EntryPtr ℚ) ℚ Unit Empty).bids = _ := bids
  have isAsks : (crossList std l accept () : Outcome (EntryPtr ℚ) ℚ Unit Empty).asks = _ := asks
  rw [isBids, isAsks] at same
  exact same

variable {std l}

theorem mem_consumed {side : OrderBookType} {p : EntryPtr ℚ}
    (member : p ∈ consume (passVolume std l) (sortedSide std l side)) : p ∈ consumed std l := by
  cases side with
  | bid => exact List.mem_append_left _ member
  | ask => exact List.mem_append_right _ member
  | sale => cases member

end Consumed

theorem afterLoops_eq (std : StdSort (EntryPtr ℚ)) (book : OrderBook ℚ) (product currentTimestamp : Str)
    (userStore : UserStore ℚ) (nextId : Nat) :
    afterLoops std (book.orders product) product currentTimestamp userStore nextId =
      passWritten std book product currentTimestamp userStore nextId := by
  unfold afterLoops
  rw [passLoop_eq]
  rfl

section Returned

variable {std : StdSort (EntryPtr ℚ)} {book : OrderBook ℚ} {product currentTimestamp : Str}
  {userStore : UserStore ℚ} {nextId : Nat} {sales : List (OrderBookEntry ℚ)}
  (returned : (book.matchAsksToBids std product currentTimestamp userStore nextId).result = .ok sales)

include returned

theorem error_of_returned :
    (passCross std (book.orders product) product currentTimestamp userStore nextId).error = none ∧
      sales =
        (passCross std (book.orders product) product currentTimestamp userStore nextId).state.sales := by
  obtain ⟨middle, -, -, -, -, ends⟩ := matchAsksToBids_cross std book product currentTimestamp userStore nextId
  cases ended : (passCross std (book.orders product) product currentTimestamp userStore nextId).error with
  | none =>
    rw [ended] at ends
    exact ⟨rfl, (Except.ok.inj (ends.1.symm.trans returned)).symm⟩
  | some e =>
    rw [ended] at ends
    cases ends.1.symm.trans returned

/-- A pass that returns has made every match of its plan. -/
theorem made_of_returned :
    (passCross std (book.orders product) product currentTimestamp userStore nextId).made =
      passPlan std (book.orders product) := by
  have run := passCross_settleAll std (book.orders product) product currentTimestamp userStore nextId
  have ended := (error_of_returned returned).1
  dsimp only at run
  rw [ended] at run
  have made := congrArg (fun r => r.2.1) run
  exact made.trans (settleAll_made (congrArg (fun r => r.2.2) run).symm)

/-- The trades of a pass that returns are the matches of its plan. -/
theorem trades_of_returned :
    (book.matchAsksToBids std product currentTimestamp userStore nextId).trades.map Prod.fst =
      (passPlan std (book.orders product)).map tradeOf := by
  obtain ⟨-, -, -, -, trades, -⟩ :=
    matchAsksToBids_cross std book product currentTimestamp userStore nextId
  have frame := passCross_frame std (book.orders product) product currentTimestamp userStore nextId
  rw [trades, frame.trades, made_of_returned returned]
  rfl

/-- It returns one sale for each of them. -/
theorem sales_of_returned :
    sales.map (fun sale => (sale.product, sale.price, sale.amount)) =
      (passPlan std (book.orders product)).map
        (fun t => (product, t.ask.entry.price, t.amount)) := by
  have frame := passCross_frame std (book.orders product) product currentTimestamp userStore nextId
  obtain ⟨-, rfl⟩ := error_of_returned returned
  have terms := frame.sales
  rw [made_of_returned returned, List.map_nil, List.nil_append] at terms
  have loops := askLoop_state product currentTimestamp
    (fun st st' : PassState ℚ => ∀ sale ∈ st'.sales, sale ∈ st.sales ∨ sale.product = product)
    (fun _ _ => Or.inl)
    (fun first second sale member => (second sale member).elim (first sale) Or.inr)
    (bidRound_sales product currentTimestamp)
    (sortedAsks std (book.orders product)) (sortedBids std (book.orders product))
    ⟨userStore, nextId, [], []⟩
  rw [askLoop_eq_cross] at loops
  have ofProduct : ∀ sale ∈ (passCross std (book.orders product) product currentTimestamp userStore
      nextId).state.sales, sale.product = product :=
    fun sale member => (loops sale member).resolve_left (List.not_mem_nil)
  generalize (passCross std (book.orders product) product currentTimestamp userStore
    nextId).state.sales = sales' at terms ofProduct ⊢
  have named : sales'.map (fun sale => (sale.product, sale.price, sale.amount)) =
      (sales'.map (fun sale => (sale.price, sale.amount))).map (fun x => (product, x)) := by
    rw [List.map_map]
    exact List.map_congr_left fun sale member => by simp [ofProduct sale member]
  rw [named, terms, List.map_map]
  rfl

/-- A pass that returns leaves of its product the orders with a positive amount, and the other lists
as they were. -/
theorem orders_of_returned (p : Str) :
    (book.matchAsksToBids std product currentTimestamp userStore nextId).book.orders p =
      if p = product then
        (afterLoops std (book.orders product) product currentTimestamp userStore nextId).filter
          (fun o => ¬ o.amount ≤ 0)
      else book.orders p := by
  obtain ⟨middle, ⟨-, -, lists, -⟩, -, -, -, ends⟩ :=
    matchAsksToBids_cross std book product currentTimestamp userStore nextId
  rw [(error_of_returned returned).1] at ends
  rw [ends.2.1, removeMatchedOrders_orders, lists, afterLoops_eq]
  by_cases here : p = product
  · rw [if_pos here, if_pos here, if_pos here]
  · rw [if_neg here, if_neg here, if_neg here]

/-- The orders of its product that a pass leaves behind are not filled. -/
theorem positive_of_returned : ∀ o ∈ (book.matchAsksToBids std product currentTimestamp userStore
    nextId).book.orders product, ¬ o.amount ≤ 0 := by
  intro o member
  rw [orders_of_returned returned, if_pos rfl] at member
  exact of_decide_eq_true (List.mem_filter.mp member).2

theorem afterLoops_of_returned :
    afterLoops std (book.orders product) product currentTimestamp userStore nextId =
      writeBack (book.orders product) (consumed std (book.orders product)) := by
  have left := (cross_settleAll (settleMatch product currentTimestamp)
    (sortedAsks std (book.orders product)) (sortedBids std (book.orders product))
    ⟨userStore, nextId, [], []⟩).2 (error_of_returned returned).1
  obtain ⟨bids, asks⟩ := plan_consumes (sortedAsks_pairwise std (book.orders product))
    (sortedBids_pairwise std (book.orders product))
  unfold afterLoops
  rw [passLoop_eq]
  dsimp only [ofOutcome]
  exact congrArg _ (congrArg₂ _ (left.2.trans bids) (left.1.trans asks))

/-- What a pass that returns leaves of an order: the orders ahead of it are served first. -/
theorem afterLoops_at {i : Nat} {o : OrderBookEntry ℚ} (stands : (book.orders product)[i]? = some o)
    (isOrder : o.orderType ≠ .sale) :
    (afterLoops std (book.orders product) product currentTimestamp userStore nextId)[i]? =
      some (leftOver (passVolume std (book.orders product))
        (ahead std (book.orders product) o.orderType i) ⟨i, o⟩).entry := by
  obtain ⟨member, place⟩ := leftOver_mem std (passVolume_nonneg std (book.orders product))
    stands isOrder
  have written := writeBack_at (consumed_same std _) (mem_consumed member)
  rw [place] at written
  rw [afterLoops_of_returned returned]
  exact written

/-- A recorded sale that stands in the list is no order and stays as it is. -/
theorem afterLoops_sale {i : Nat} {o : OrderBookEntry ℚ} (stands : (book.orders product)[i]? = some o)
    (isSale : o.orderType = .sale) :
    (afterLoops std (book.orders product) product currentTimestamp userStore nextId)[i]? = some o := by
  rw [afterLoops_of_returned returned]
  exact writeBack_other (consumed_same std _) stands isSale

section Amounts

variable {i : Nat} {o o' : OrderBookEntry ℚ} (stands : (book.orders product)[i]? = some o)
  (left : (afterLoops std (book.orders product) product currentTimestamp userStore nextId)[i]? = some o')

include stands left

/-- Only an order with a positive amount is reduced. -/
theorem positive_of_reduced (less : o'.amount < o.amount) : 0 < o.amount ∧ o.orderType ≠ .sale := by
  have isOrder : o.orderType ≠ .sale := by
    intro isSale
    rw [afterLoops_sale returned stands isSale] at left
    exact absurd less (Option.some.inj left ▸ lt_irrefl _)
  refine ⟨lt_of_not_ge fun empty => ?_, isOrder⟩
  rw [afterLoops_at returned stands isOrder] at left
  have same : leftOver (passVolume std (book.orders product))
      (ahead std (book.orders product) o.orderType i) (⟨i, o⟩ : EntryPtr ℚ) = ⟨i, o⟩ := if_pos empty
  rw [same] at left
  exact absurd less (Option.some.inj left ▸ lt_irrefl _)

variable (positive : 0 < o.amount) (isOrder : o.orderType ≠ .sale)

include positive isOrder

/-- An order is reduced when those ahead of it do not make up the volume of the pass. -/
theorem reduced_iff : o'.amount < o.amount ↔
    total (ahead std (book.orders product) o.orderType i) < passVolume std (book.orders product) := by
  rw [afterLoops_at returned stands isOrder] at left
  rw [← Option.some.inj left]
  exact amount_leftOver_lt_iff (a := (⟨i, o⟩ : EntryPtr ℚ)) positive

/-- It is filled when the volume reaches to its end. -/
theorem filled_iff : o'.amount ≤ 0 ↔
    total (ahead std (book.orders product) o.orderType i) + o.amount ≤
      passVolume std (book.orders product) := by
  rw [afterLoops_at returned stands isOrder] at left
  rw [← Option.some.inj left]
  exact amount_leftOver_nonpos_iff (a := (⟨i, o⟩ : EntryPtr ℚ)) positive

end Amounts

end Returned

section Idle

variable (std : StdSort (EntryPtr ℚ)) {book : OrderBook ℚ} {product : Str}

theorem removeMatchedLoop_of_positive {l : List (OrderBookEntry ℚ)} (positive : ∀ o ∈ l, ¬ o.amount ≤ 0)
    (m : KeyedMap Str (List Nat)) : removeMatchedLoop l m = (l, m) := by
  induction l with
  | nil => rfl
  | cons o l ih =>
    obtain ⟨head, tail⟩ := List.forall_mem_cons.mp positive
    rw [removeMatchedLoop, if_neg head, ih tail]

theorem removeMatchedOrders_index (positive : ∀ o ∈ book.orders product, ¬ o.amount ≤ 0) :
    (book.removeMatchedOrders product).userOrders = book.userOrders := by
  unfold removeMatchedOrders
  cases found : book.orderMap.lookup product with
  | none => rfl
  | some l =>
    rw [orders_of_lookup found] at positive
    dsimp only
    rw [removeMatchedLoop_of_positive positive]

/-- No match is planned among orders that do not cross. -/
theorem passPlan_of_uncrossed {l : List (OrderBookEntry ℚ)} (uncrossed : Uncrossed l)
    (positive : ∀ o ∈ l, ¬ o.amount ≤ 0) : passPlan std l = [] := by
  apply plan_of_ineligible
  intro a inAsks b inBids eligible
  obtain ⟨standsAsk, isAsk⟩ := mem_sortedAsks.mp inAsks
  obtain ⟨standsBid, isBid⟩ := mem_sortedBids.mp inBids
  have ask := List.mem_of_getElem? standsAsk
  exact uncrossed a.entry ask b.entry (List.mem_of_getElem? standsBid) isAsk isBid
    ⟨not_le.mp (positive a.entry ask), eligible.1, eligible.2⟩

/-- A pass that finds nothing to do. -/
structure IdlePass (book : OrderBook ℚ) (userStore : UserStore ℚ) (nextId : Nat) (pass : PassEnd ℚ) :
    Prop where
  result : pass.result = .ok []
  trades : pass.trades = []
  orders : ∀ p, pass.book.orders p = book.orders p
  userOrders : pass.book.userOrders = book.userOrders
  finalizedSales : pass.book.finalizedSales = book.finalizedSales
  userStore : pass.userStore = userStore
  nextId : pass.nextId = nextId

/-- A pass over orders with positive amounts that do not cross does nothing. -/
theorem idlePass (uncrossed : Uncrossed (book.orders product))
    (positive : ∀ o ∈ book.orders product, ¬ o.amount ≤ 0) (currentTimestamp : Str)
    (userStore : UserStore ℚ) (nextId : Nat) :
    IdlePass book userStore nextId
      (book.matchAsksToBids std product currentTimestamp userStore nextId) := by
  have none' := passPlan_of_uncrossed std uncrossed positive
  have run := passCross_settleAll std (book.orders product) product currentTimestamp userStore nextId
  rw [none', settleAll] at run
  have state := congrArg Prod.fst run
  have error := congrArg (fun r => r.2.2) run
  dsimp only at state error
  obtain ⟨middle, ⟨-, -, lists, index⟩, userStore', nextId', trades, ends⟩ :=
    matchAsksToBids_cross std book product currentTimestamp userStore nextId
  rw [error] at ends
  obtain ⟨result, after, sales⟩ := ends
  rw [state] at userStore' nextId' trades result sales
  -- nothing is traded, so the loops leave the list as it is
  have same : afterLoops std (book.orders product) product currentTimestamp userStore nextId =
      book.orders product := by
    have nothing : passVolume std (book.orders product) = 0 := congrArg volume none'
    rw [afterLoops_of_returned result, consumed, nothing, consume_zero, consume_zero]
    exact (writeBack_eq_iff (forall₂_sameNode_refl _)).mpr rfl
  have kept : middle.orders product = book.orders product := by
    rw [lists, if_pos rfl, ← afterLoops_eq, same]
  refine ⟨result, trades, fun p => ?_, ?_, ?_, userStore', nextId'⟩
  · rw [orders_of_returned result, same]
    split
    · subst_vars
      exact List.filter_eq_self.mpr fun o member => by simpa using positive o member
    · rfl
  · rw [after, removeMatchedOrders_index (by rwa [kept]), index]
  · rw [after, removeMatchedOrders_finalizedSales, sales, List.append_nil]

end Idle

end OrderBook

end MiniATS
