import MiniATS.Proofs.ReturnedPass

/-!
# The market-clearing volume

A pass that returns trades the largest amount that, at some price, both the bids at or above it and
the asks at or below it supply, and leaves orders that no second pass would match.
-/

namespace MiniATS

open Crossing

namespace OrderBook

/-- The amount of the bids at a price or above it. -/
def bidVolume (l : List (OrderBookEntry ℚ)) (p : ℚ) : ℚ :=
  ((l.filter (fun o => o.orderType = .bid ∧ 0 < o.amount ∧ p ≤ o.price)).map (fun o => o.amount)).sum

/-- The amount of the asks at a price or below it. -/
def askVolume (l : List (OrderBookEntry ℚ)) (p : ℚ) : ℚ :=
  ((l.filter (fun o => o.orderType = .ask ∧ 0 < o.amount ∧ o.price ≤ p)).map (fun o => o.amount)).sum

/-- The largest amount that both sides supply at the price of one of the orders. -/
def clearingVolume (l : List (OrderBookEntry ℚ)) : ℚ :=
  (l.map (fun o => min (bidVolume l o.price) (askVolume l o.price))).foldr max 0

section Volumes

variable (std : StdSort (EntryPtr ℚ)) (l : List (OrderBookEntry ℚ))

/-- What the orders of a side at selected prices amount to, whatever the sort has made of them. -/
theorem total_sortedSide (priced : ℚ → Prop) [DecidablePred priced] {side : OrderBookType}
    (isSide : side ≠ .sale) :
    total (atPrices priced (sortedSide std l side)) =
      ((l.filter (fun o => o.orderType = side ∧ 0 < o.amount ∧ priced o.price)).map
        (fun o => o.amount)).sum := by
  have entries : total (atPrices priced (sortedSide std l side)) =
      ((((sortedSide std l side).map (fun p => p.entry)).filter
        (fun o => decide (priced o.price) && decide (0 < o.amount))).map (fun o => o.amount)).sum := by
    rw [List.filter_map, List.map_map, total, atPrices, List.filter_filter]
    congr 2
    exact List.filter_congr fun p _ => Bool.and_comm _ _
  rw [entries, (((sortedSide_entries std l isSide).filter _).map _).sum_eq, List.filter_filter]
  congr 2
  apply List.filter_congr
  intro o _
  simp only [Bool.decide_and, Bool.and_comm]

theorem demand_eq (p : ℚ) : demand (sortedBids std l) p = bidVolume l p :=
  total_sortedSide std l (fun x => p ≤ x) (show OrderBookType.bid ≠ .sale by decide)

theorem supply_eq (p : ℚ) : supply (sortedAsks std l) p = askVolume l p :=
  total_sortedSide std l (fun x => x ≤ p) (show OrderBookType.ask ≠ .sale by decide)

/-- What a pass trades when every match settles. -/
theorem passVolume_isGreatest :
    IsGreatest (Set.range fun p => min (bidVolume l p) (askVolume l p)) (passVolume std l) := by
  have clears := plan_clears (sortedAsks_pairwise std l) (sortedBids_pairwise std l)
  simp only [demand_eq, supply_eq] at clears
  exact clears

theorem le_foldr_max {x : ℚ} {xs : List ℚ} (member : x ∈ xs) : x ≤ xs.foldr max 0 := by
  induction xs with
  | nil => cases member
  | cons y ys ih =>
    rcases List.mem_cons.mp member with rfl | later
    · exact le_max_left _ _
    · exact (ih later).trans (le_max_right _ _)

theorem foldr_max_le {x : ℚ} {xs : List ℚ} (nonneg : 0 ≤ x) (most : ∀ y ∈ xs, y ≤ x) :
    xs.foldr max 0 ≤ x := by
  induction xs with
  | nil => exact nonneg
  | cons y ys ih =>
    obtain ⟨head, tail⟩ := List.forall_mem_cons.mp most
    exact max_le head (ih tail)

theorem foldr_nonneg (xs : List ℚ) : 0 ≤ xs.foldr max 0 := by
  induction xs with
  | nil => exact le_rfl
  | cons y ys ih => exact ih.trans (le_max_right _ _)

/-- The volume of a pass is the clearing volume of its list. -/
theorem passVolume_eq : passVolume std l = clearingVolume l := by
  refine le_antisymm ?_ (foldr_max_le (passVolume_nonneg std l) fun y member => ?_)
  · rcases List.eq_nil_or_concat' (passPlan std l) with none' | ⟨ts, last, isLast⟩
    · have nothing : passVolume std l = 0 := congrArg volume none'
      rw [nothing]
      exact foldr_nonneg _
    · have attained := plan_attained (sortedAsks_pairwise std l) (sortedBids_pairwise std l) isLast
      rw [demand_eq, supply_eq] at attained
      have inPlan : last ∈ passPlan std l := by simp [isLast]
      obtain ⟨o, inList, -, ⟨x, same⟩, -⟩ := ask_order_of_sound (passPlan_sound inPlan)
      refine le_foldr_max (List.mem_map.mpr ⟨o, inList, ?_⟩)
      have price : o.price = last.ask.entry.price := by rw [same]; rfl
      rw [price]
      exact attained
  · obtain ⟨o, -, rfl⟩ := List.mem_map.mp member
    exact (passVolume_isGreatest std l).2 ⟨o.price, rfl⟩

end Volumes

section Sample

/-- An order of nobody in particular. -/
def sampleOrder (side : OrderBookType) (price amount : ℚ) (id : Nat) : OrderBookEntry ℚ :=
  ⟨price, amount, [], str "BTC/USD", side, defaultUser, id⟩

/-- A book with one list. -/
def sampleBook (orderList : List (OrderBookEntry ℚ)) : OrderBook ℚ :=
  ⟨[], [], (∅ : KeyedMap Str (List (OrderBookEntry ℚ))).insert (str "BTC/USD") orderList, ∅⟩

/-- Two bids at eleven and ten dollars, and an ask at nine that fills the first of them. -/
def sampleOrders : List (OrderBookEntry ℚ) :=
  [sampleOrder .bid 11 1 1, sampleOrder .bid 10 3 2, sampleOrder .ask 9 2 3]

/-- A pass over the sample, with a sort that keeps equal orders in their order. -/
def samplePass : PassEnd ℚ :=
  (sampleBook sampleOrders).matchAsksToBids (StdSort.insertion _) (str "BTC/USD") [] .empty 4

theorem samplePass_returned : ∃ sales, samplePass.result = .ok sales := by
  have returned : samplePass.result.isOk := by decide +kernel
  cases ended : samplePass.result with
  | ok sales => exact ⟨sales, rfl⟩
  | error e =>
    rw [ended] at returned
    cases returned

end Sample

section Returned

variable {std : StdSort (EntryPtr ℚ)} {book : OrderBook ℚ} {product currentTimestamp : Str}
  {userStore : UserStore ℚ} {nextId : Nat} {sales : List (OrderBookEntry ℚ)}

/-- The sales of a pass amount to the largest volume that both sides supply at some price. -/
theorem sales_clear
    (returned : (book.matchAsksToBids std product currentTimestamp userStore nextId).result = .ok sales) :
    IsGreatest (Set.range fun p =>
        min (bidVolume (book.orders product) p) (askVolume (book.orders product) p))
      (sales.map (fun sale => sale.amount)).sum := by
  have amounts : sales.map (fun sale => sale.amount) =
      (passPlan std (book.orders product)).map (fun t => t.amount) := by
    have terms := congrArg (List.map fun x : Str × ℚ × ℚ => x.2.2) (sales_of_returned returned)
    simpa only [List.map_map, Function.comp_def] using terms
  rw [amounts]
  exact passVolume_isGreatest std _

/-- In the sample two bitcoins are sold. -/
theorem sales_clear_sample : ∃ sales, samplePass.result = .ok sales ∧
    IsGreatest (Set.range fun p => min (bidVolume ((sampleBook sampleOrders).orders (str "BTC/USD")) p)
      (askVolume ((sampleBook sampleOrders).orders (str "BTC/USD")) p))
      (sales.map (fun sale => sale.amount)).sum := by
  obtain ⟨sales, returned⟩ := samplePass_returned
  exact ⟨sales, returned, sales_clear returned⟩

/-- After a pass that returns, every order of the product has a positive amount, no bid is priced at
or above an ask, and a second pass finds nothing to do. -/
theorem pass_settles
    (returned : (book.matchAsksToBids std product currentTimestamp userStore nextId).result = .ok sales) :
    let pass := book.matchAsksToBids std product currentTimestamp userStore nextId
    (∀ o ∈ pass.book.orders product, 0 < o.amount) ∧
    (∀ bid ∈ pass.book.orders product, ∀ ask ∈ pass.book.orders product, bid.orderType = .bid →
      ask.orderType = .ask → bid.price < ask.price) ∧
    ∀ (std' : StdSort (EntryPtr ℚ)) (currentTimestamp' : Str),
      IdlePass pass.book pass.userStore pass.nextId
        (pass.book.matchAsksToBids std' product currentTimestamp' pass.userStore pass.nextId) := by
  have uncrossed := matchAsksToBids_uncrossed returned
  have positive : ∀ o ∈ (book.matchAsksToBids std product currentTimestamp userStore
      nextId).book.orders product, ¬ o.amount ≤ 0 := by
    intro o member
    rw [orders_of_returned returned, if_pos rfl] at member
    exact of_decide_eq_true (List.mem_filter.mp member).2
  refine ⟨fun o member => not_le.mp (positive o member), ?_, ?_⟩
  · intro bid isBid ask isAsk typeBid typeAsk
    apply lt_of_not_ge
    intro crossed
    apply uncrossed ask isAsk bid isBid typeAsk typeBid
    exact ⟨not_le.mp (positive ask isAsk), not_le.mp (positive bid isBid), crossed⟩
  · intro std' currentTimestamp'
    exact idlePass std' uncrossed positive currentTimestamp' _ _

/-- A second pass over the sample finds nothing to do. -/
theorem pass_settles_sample : IdlePass samplePass.book samplePass.userStore samplePass.nextId
    (samplePass.book.matchAsksToBids (StdSort.insertion _) (str "BTC/USD") [] samplePass.userStore
      samplePass.nextId) := by
  obtain ⟨sales, returned⟩ := samplePass_returned
  exact (pass_settles returned).2.2 _ _

end Returned

end OrderBook

end MiniATS
