import MiniATS.Properties.MarketClearing

/-!
# The fills of a pass

The sales that a pass returns are fills of orders that stood in the list: what an order had is what
its fills took and what it has left.
-/

namespace MiniATS

open Crossing

namespace OrderBook

/-- A sale by the places of its two orders in the list of the product. -/
structure Fill where
  bid : Nat
  ask : Nat
  amount : ℚ

/-- What the fills took from the order of a side at a place. -/
def filled (fills : List Fill) (side : OrderBookType) (i : Nat) : ℚ :=
  match side with
  | .bid => ((fills.filter (fun f => f.bid = i)).map Fill.amount).sum
  | .ask => ((fills.filter (fun f => f.ask = i)).map Fill.amount).sum
  | .sale => 0

/-- A sale of the product between the orders of a fill, at the price of the ask. -/
structure FillOf (l : List (OrderBookEntry ℚ)) (product : Str) (fill : Fill) (sale : OrderBookEntry ℚ) :
    Prop where
  positive : 0 < fill.amount
  amount : sale.amount = fill.amount
  product : sale.product = product
  orders : ∃ bid ask, l[fill.bid]? = some bid ∧ bid.orderType = .bid ∧ 0 < bid.amount ∧
    l[fill.ask]? = some ask ∧ ask.orderType = .ask ∧ 0 < ask.amount ∧
    sale.price = ask.price ∧ ask.price ≤ bid.price

/-- How many orders of a side have a positive amount. -/
def openOrders (l : List (OrderBookEntry ℚ)) (side : OrderBookType) : Nat :=
  (l.filter (fun o => o.orderType = side ∧ 0 < o.amount)).length

/-- A match by the places of its orders. -/
def fillOf (t : Match (EntryPtr ℚ) ℚ) : Fill := ⟨t.bid.pos, t.ask.pos, t.amount⟩

/-- What a unit of an order counts for at a place. -/
def unitOf (i : Nat) (p : EntryPtr ℚ) : ℚ →+ ℚ := if p.pos = i then AddMonoidHom.id ℚ else 0

theorem unitOf_withAmount (i : Nat) (p : EntryPtr ℚ) (x : ℚ) :
    unitOf i (Offer.withAmount p x) = unitOf i p := rfl

section Places

variable {ps : List (EntryPtr ℚ)}

theorem sum_unitOf_of_notMem {i : Nat} (missing : i ∉ ps.map (fun p => p.pos)) :
    (ps.map (weight (unitOf i))).sum = 0 := by
  induction ps with
  | nil => rfl
  | cons p ps ih =>
    simp only [List.map_cons, List.mem_cons, not_or] at missing
    rw [List.map_cons, List.sum_cons, ih missing.2]
    simp [weight, unitOf, Ne.symm missing.1]

/-- Of the orders at distinct places one counts. -/
theorem sum_unitOf (distinct : (ps.map (fun p => p.pos)).Nodup) {p : EntryPtr ℚ} (member : p ∈ ps) :
    (ps.map (weight (unitOf p.pos))).sum = p.entry.amount := by
  induction ps with
  | nil => cases member
  | cons q ps ih =>
    obtain ⟨fresh, distinct'⟩ := List.nodup_cons.mp distinct
    rw [List.map_cons, List.sum_cons]
    rcases List.mem_cons.mp member with rfl | later
    · rw [sum_unitOf_of_notMem fresh]
      simp [weight, unitOf]
    · have other : q.pos ≠ p.pos := fun same => fresh (List.mem_map.mpr ⟨p, later, same.symm⟩)
      rw [ih distinct' later]
      simp [weight, unitOf, other]

theorem sum_unitOf_made (ts : List (Match (EntryPtr ℚ) ℚ)) (side : Match (EntryPtr ℚ) ℚ → EntryPtr ℚ)
    (i : Nat) : (ts.map (fun t => unitOf i (side t) t.amount)).sum =
      ((ts.filter (fun t => (side t).pos = i)).map (fun t => t.amount)).sum := by
  induction ts with
  | nil => rfl
  | cons t ts ih =>
    rw [List.map_cons, List.sum_cons, ih]
    by_cases here : (side t).pos = i <;> simp [unitOf, here]

end Places

section Plan

variable {std : StdSort (EntryPtr ℚ)} {l : List (OrderBookEntry ℚ)}

/-- The orders of a side lose what the fills of the plan took. -/
theorem filled_plan (std : StdSort (EntryPtr ℚ)) (l : List (OrderBookEntry ℚ)) {side : OrderBookType}
    (isSide : side ≠ .sale) (i : Nat) :
    ((consume (passVolume std l) (sortedSide std l side)).map (weight (unitOf i))).sum +
        filled ((passPlan std l).map fillOf) side i =
      ((sortedSide std l side).map (weight (unitOf i))).sum := by
  obtain ⟨bids, asks⟩ := plan_consumes (sortedAsks_pairwise std l) (sortedBids_pairwise std l)
  cases side with
  | bid =>
    have taken := cross_weight_bids (unitOf_withAmount i) accept (sortedAsks std l) (sortedBids std l) ()
    have made := sum_unitOf_made (passPlan std l) (fun t => t.bid) i
    have fills : filled ((passPlan std l).map fillOf) .bid i =
        (((passPlan std l).filter (fun t => t.bid.pos = i)).map (fun t => t.amount)).sum := by
      simp only [filled, List.filter_map, List.map_map]
      rfl
    rw [fills, ← made]
    dsimp only at taken
    rw [show (cross accept (sortedAsks std l) (sortedBids std l) () :
      Outcome (EntryPtr ℚ) ℚ Unit Empty).bids = _ from bids] at taken
    exact taken
  | ask =>
    have taken := cross_weight_asks (unitOf_withAmount i) accept (sortedAsks std l) (sortedBids std l) ()
    have made := sum_unitOf_made (passPlan std l) (fun t => t.ask) i
    have fills : filled ((passPlan std l).map fillOf) .ask i =
        (((passPlan std l).filter (fun t => t.ask.pos = i)).map (fun t => t.amount)).sum := by
      simp only [filled, List.filter_map, List.map_map]
      rfl
    rw [fills, ← made]
    dsimp only at taken
    rw [show (cross accept (sortedAsks std l) (sortedBids std l) () :
      Outcome (EntryPtr ℚ) ℚ Unit Empty).asks = _ from asks] at taken
    exact taken
  | sale => exact absurd rfl isSide

/-- An order has what its fills take and what is left of it. -/
theorem amount_eq {i : Nat} {o : OrderBookEntry ℚ} (stands : l[i]? = some o)
    (isOrder : o.orderType ≠ .sale) :
    o.amount = filled ((passPlan std l).map fillOf) o.orderType i +
      (leftOver (passVolume std l) (ahead std l o.orderType i) (⟨i, o⟩ : EntryPtr ℚ)).entry.amount := by
  obtain ⟨member, place⟩ := leftOver_mem std (passVolume_nonneg std l) stands isOrder
  have lost := filled_plan std l isOrder i
  have before := sum_unitOf (sortedSide_pos_nodup std l o.orderType)
    (p := ⟨i, o⟩) (mem_sortedSide.mpr ⟨stands, rfl, isOrder⟩)
  have after := sum_unitOf (consume_pos_nodup (passVolume std l) o.orderType) member
  rw [place] at after
  rw [before, after] at lost
  rw [← lost, add_comm]

/-- A match of the plan is a fill of two orders of the list. -/
theorem orders_of_plan {t : Match (EntryPtr ℚ) ℚ} (member : t ∈ passPlan std l) :
    ∃ bid ask, l[t.bid.pos]? = some bid ∧ bid.orderType = .bid ∧ 0 < bid.amount ∧
      l[t.ask.pos]? = some ask ∧ ask.orderType = .ask ∧ 0 < ask.amount ∧
      t.ask.entry.price = ask.price ∧ ask.price ≤ bid.price := by
  have sound := passPlan_sound member
  obtain ⟨b, inBids, toBid⟩ := sound.bid
  obtain ⟨a, inAsks, toAsk⟩ := sound.ask
  obtain ⟨standsBid, isBid⟩ := mem_sortedBids.mp inBids
  obtain ⟨standsAsk, isAsk⟩ := mem_sortedAsks.mp inAsks
  have crossed : t.ask.entry.price ≤ t.bid.entry.price := sound.crossed
  have bidPrice : t.bid.entry.price = b.entry.price := toBid.price_eq
  have askPrice : t.ask.entry.price = a.entry.price := toAsk.price_eq
  refine ⟨b.entry, a.entry, ?_, isBid, ?_, ?_, isAsk, ?_, askPrice, ?_⟩
  · rw [(shrunk_of_reduced toBid).1]
    exact standsBid
  · exact toBid.positive (sound.positive.trans_le sound.amount_bid)
  · rw [(shrunk_of_reduced toAsk).1]
    exact standsAsk
  · exact toAsk.positive (sound.positive.trans_le sound.amount_ask)
  · rwa [askPrice, bidPrice] at crossed

/-- The orders with a positive amount, counted in the sorted vectors. -/
theorem openCount_sortedSide (std : StdSort (EntryPtr ℚ)) (l : List (OrderBookEntry ℚ))
    {side : OrderBookType} (isSide : side ≠ .sale) :
    openCount (sortedSide std l side) = openOrders l side := by
  have entries : openCount (sortedSide std l side) =
      ((sortedSide std l side).map (fun p => p.entry)).countP (fun o => decide (0 < o.amount)) := by
    rw [List.countP_map]
    rfl
  rw [entries, (sortedSide_entries std l isSide).countP_eq, List.countP_filter, openOrders,
    List.countP_eq_length_filter]
  congr 1
  apply List.filter_congr
  intro o _
  simp only [Bool.decide_and, Bool.and_comm]

end Plan

section Returned

variable {std : StdSort (EntryPtr ℚ)} {book : OrderBook ℚ} {product currentTimestamp : Str}
  {userStore : UserStore ℚ} {nextId : Nat} {sales : List (OrderBookEntry ℚ)}

/-- The sales of a pass are fills between orders of the list, and what an order had before is what
its fills took and what it has after; the orders without a positive amount are taken out, the
others stay in their order, and nothing else in the book changes. -/
theorem pass_accounts
    (returned : (book.matchAsksToBids std product currentTimestamp userStore nextId).result = .ok sales) :
    let l := book.orders product
    let left := afterLoops std l product currentTimestamp userStore nextId
    let after := (book.matchAsksToBids std product currentTimestamp userStore nextId).book
    ∃ fills : List Fill,
      List.Forall₂ (FillOf l product) fills sales ∧
      List.Forall₂ Shrunk l left ∧
      (∀ (i : Nat) (o o' : OrderBookEntry ℚ), l[i]? = some o → left[i]? = some o' →
        o.amount = filled fills o.orderType i + o'.amount) ∧
      (∀ p, after.orders p =
        if p = product then left.filter (fun o => ¬ o.amount ≤ 0) else book.orders p) ∧
      after.finalizedSales = book.finalizedSales ++ sales ∧
      (1 ≤ openOrders l .bid → 1 ≤ openOrders l .ask →
        sales.length ≤ openOrders l .bid + openOrders l .ask - 1) := by
  intro l left after
  have terms := sales_of_returned returned
  refine ⟨(passPlan std l).map fillOf, ?_, ?_, ?_, orders_of_returned returned, ?_, ?_⟩
  · have pairs : List.Forall₂ (fun t sale => (product, t.ask.entry.price, t.amount) =
        (sale.product, sale.price, sale.amount)) (passPlan std l) sales := by
      have same := List.forall₂_eq_eq_eq ▸ terms.symm
      rw [List.forall₂_map_left_iff, List.forall₂_map_right_iff] at same
      exact same
    rw [List.forall₂_map_left_iff]
    refine List.Forall₂.imp ?_ ((List.forall₂_and_left (p := fun t => t ∈ passPlan std l) _ _).mpr
      ⟨fun _ => id, pairs⟩)
    rintro t sale ⟨member, same⟩
    rw [Prod.mk.injEq, Prod.mk.injEq] at same
    obtain ⟨sameProduct, price, amount⟩ := same
    refine ⟨plan_positive member, amount.symm, sameProduct.symm, ?_⟩
    rw [← price]
    exact orders_of_plan member
  · show List.Forall₂ Shrunk (book.orders product) (afterLoops _ _ _ _ _ _)
    rw [afterLoops_eq]
    exact crossWritten_shrunk _ _ _ _
  · intro i o o' stands stands'
    by_cases isSale : o.orderType = .sale
    · have same := (afterLoops_sale returned stands isSale).symm.trans stands'
      rw [← Option.some.inj same, isSale, filled, zero_add]
    · have left := (afterLoops_at returned stands isSale).symm.trans stands'
      rw [← Option.some.inj left]
      exact amount_eq stands isSale
  · obtain ⟨middle, -, -, -, -, ends⟩ :=
      matchAsksToBids_cross std book product currentTimestamp userStore nextId
    obtain ⟨ended, sold⟩ := error_of_returned returned
    rw [ended] at ends
    show (book.matchAsksToBids std product currentTimestamp userStore nextId).book.finalizedSales = _
    rw [ends.2.1, removeMatchedOrders_finalizedSales, ends.2.2, sold]
  · intro someBids someAsks
    have count : sales.length = (passPlan std l).length := by
      simpa using congrArg List.length terms
    rw [count]
    by_cases none' : passPlan std l = []
    · rw [none']
      exact Nat.zero_le _
    · have fewer := plan_length_lt none'
      have bids := openCount_sortedSide std l (show OrderBookType.bid ≠ .sale by decide)
      have asks := openCount_sortedSide std l (show OrderBookType.ask ≠ .sale by decide)
      have fewer' : (passPlan std l).length <
          openCount (sortedSide std l .bid) + openCount (sortedSide std l .ask) := fewer
      omega

/-- The sales of the sample are fills of its orders. -/
theorem pass_accounts_sample : ∃ sales fills, samplePass.result = .ok sales ∧
    List.Forall₂ (FillOf ((sampleBook sampleOrders).orders (str "BTC/USD")) (str "BTC/USD")) fills sales ∧
    sales.length ≤ 2 := by
  obtain ⟨sales, returned⟩ := samplePass_returned
  obtain ⟨fills, isFills, -, -, -, -, most⟩ := pass_accounts returned
  exact ⟨sales, fills, returned, isFills, most (by decide +kernel) (by decide +kernel)⟩

end Returned

end OrderBook

end MiniATS
