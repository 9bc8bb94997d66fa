import MiniATS.Proofs.PassEffect
import MiniATS.Properties.Fills

/-!
# What the trades of a pass take from each order

A pass records every match it makes, also the one whose settlement fails, and reduces its two
orders before it is settled (`OrderBook.cpp:245-262`): however the pass ends, what an order had is
what the trades took from it and what it is left with.
-/

namespace MiniATS

open Crossing

namespace OrderBook

/-- What trades took from an order. -/
def filledBy (trades : List (Trade ℚ)) (o : OrderBookEntry ℚ) : ℚ :=
  match o.orderType with
  | .bid => ((trades.filter (fun t => t.bid.entry.id = o.id)).map Trade.amount).sum
  | .ask => ((trades.filter (fun t => t.ask.entry.id = o.id)).map Trade.amount).sum
  | .sale => 0

section FilledBy

variable {trades : List (Trade ℚ)} {o o' : OrderBookEntry ℚ}

theorem filledBy_append (first second : List (Trade ℚ)) (o : OrderBookEntry ℚ) :
    filledBy (first ++ second) o = filledBy first o + filledBy second o := by
  unfold filledBy
  cases o.orderType with
  | bid => simp
  | ask => simp
  | sale => simp

@[simp] theorem filledBy_nil (o : OrderBookEntry ℚ) : filledBy [] o = 0 := by
  unfold filledBy
  cases o.orderType <;> rfl

@[simp] theorem filledBy_withAmount (trades : List (Trade ℚ)) (o : OrderBookEntry ℚ) (x : ℚ) :
    filledBy trades (o.withAmount x) = filledBy trades o := rfl

/-- Trades between other orders take nothing. -/
theorem filledBy_of_others (bids : ∀ t ∈ trades, t.bid.entry.id ≠ o.id)
    (asks : ∀ t ∈ trades, t.ask.entry.id ≠ o.id) : filledBy trades o = 0 := by
  have none' : ∀ side : Trade ℚ → Nat, (∀ t ∈ trades, side t ≠ o.id) →
      ((trades.filter (fun t => side t = o.id)).map Trade.amount).sum = 0 := by
    intro side others
    have empty : trades.filter (fun t => side t = o.id) = [] := by
      apply List.filter_eq_nil_iff.mpr
      intro t member
      simp [others t member]
    rw [empty]
    rfl
  unfold filledBy
  cases o.orderType with
  | bid => exact none' (fun t => t.bid.entry.id) bids
  | ask => exact none' (fun t => t.ask.entry.id) asks
  | sale => rfl

end FilledBy

section Crossing

variable {l : List (OrderBookEntry ℚ)} {i : Nat} {o o' : OrderBookEntry ℚ}

/-- The place of a matched order is that of its id. -/
theorem place_iff_id (distinct : (l.map (fun o => o.id)).Nodup) (stands : l[i]? = some o)
    {p q : EntryPtr ℚ} (there : l[p.pos]? = some p.entry) (reduced : Reduced p q) :
    q.pos = i ↔ q.entry.id = o.id := by
  obtain ⟨place, shrunk⟩ := shrunk_of_reduced reduced
  rw [place, shrunk.id]
  constructor
  · intro here
    rw [here, stands] at there
    rw [Option.some.inj there]
  · intro same
    have ids : (l.map (fun o => o.id))[p.pos]? = (l.map (fun o => o.id))[i]? := by
      rw [List.getElem?_map, List.getElem?_map, there, stands, Option.map_some, Option.map_some, same]
    have bound : p.pos < (l.map (fun o => o.id)).length := by
      rw [List.length_map]
      exact (List.getElem?_eq_some_iff.mp there).1
    exact (List.getElem?_inj bound distinct).mp ids

/-- What the matches took from one side, by the place of an order in the list. -/
theorem side_filled {sorted after : List (EntryPtr ℚ)} {made : List (Match (EntryPtr ℚ) ℚ)}
    {left : List (OrderBookEntry ℚ)} (of : Match (EntryPtr ℚ) ℚ → EntryPtr ℚ)
    (member : (⟨i, o⟩ : EntryPtr ℚ) ∈ sorted) (places : (sorted.map (fun p => p.pos)).Nodup)
    (reduced : List.Forall₂ Reduced sorted after)
    (written : ∀ q ∈ after, left[q.pos]? = some q.entry) (stands' : left[i]? = some o')
    (taken : (after.map (weight (unitOf i))).sum + (made.map (fun t => unitOf i (of t) t.amount)).sum =
      (sorted.map (weight (unitOf i))).sum) :
    o.amount = ((made.filter (fun t => (of t).pos = i)).map (fun t => t.amount)).sum + o'.amount := by
  have samePlaces : after.map (fun p => p.pos) = sorted.map (fun p => p.pos) :=
    (ListFacts.forall₂_map_eq (f := EntryPtr.pos) (g := EntryPtr.pos)
      (fun _ _ related => (shrunk_of_reduced related).1.symm) reduced).symm
  obtain ⟨q, inAfter, related⟩ := ListFacts.forall₂_mem_left reduced member
  have place : q.pos = i := (shrunk_of_reduced related).1
  have isLeft : q.entry = o' := by
    have there := written q inAfter
    rw [place, stands'] at there
    exact (Option.some.inj there).symm
  have before := sum_unitOf places member
  have later := sum_unitOf (samePlaces ▸ places) inAfter
  rw [place, isLeft] at later
  rw [before, later, sum_unitOf_made] at taken
  rw [← taken, add_comm]

variable {std : StdSort (EntryPtr ℚ)} {σ ε : Type}
  {settle : σ → Match (EntryPtr ℚ) ℚ → σ × Verdict ε} {s : σ}

section Sides

variable {made : List (Match (EntryPtr ℚ) ℚ)}

theorem filled_bid (bid : o.orderType = .bid) : filledBy (made.map tradeOf) o =
    ((made.filter (fun t => t.bid.entry.id = o.id)).map (fun t => t.amount)).sum := by
  simp only [filledBy, bid]
  rw [List.filter_map, List.map_map]
  rfl

theorem filled_ask (ask : o.orderType = .ask) : filledBy (made.map tradeOf) o =
    ((made.filter (fun t => t.ask.entry.id = o.id)).map (fun t => t.amount)).sum := by
  simp only [filledBy, ask]
  rw [List.filter_map, List.map_map]
  rfl

end Sides

/-- What an order had is what the matches took and what the loops leave it with. -/
theorem crossWritten_filled (distinct : (l.map (fun o => o.id)).Nodup) (stands : l[i]? = some o)
    (stands' : (crossWritten std l settle s)[i]? = some o') :
    o.amount = filledBy ((crossList std l settle s).made.map tradeOf) o + o'.amount := by
  have same := crossList_sameNode std l settle s
  have sound := crossList_sound std l settle s
  have written : ∀ q ∈ (crossList std l settle s).bids ++ (crossList std l settle s).asks,
      (crossWritten std l settle s)[q.pos]? = some q.entry := fun q member => writeBack_at same member
  cases type : o.orderType with
  | bid =>
    have took := side_filled (fun t => t.bid) (mem_sortedBids.mpr ⟨stands, type⟩)
      (sortedSide_pos_nodup std l .bid) (cross_reduced settle (sortedAsks std l) (sortedBids std l) s).1
      (fun q member => written q (List.mem_append_left _ member)) stands'
      (cross_weight_bids (unitOf_withAmount i) settle (sortedAsks std l) (sortedBids std l) s)
    have byId : ∀ t ∈ (crossList std l settle s).made,
        decide (t.bid.pos = i) = decide (t.bid.entry.id = o.id) := by
      intro t member
      obtain ⟨b, inBids, reduced⟩ := (sound t member).bid
      exact decide_eq_decide.mpr (place_iff_id distinct stands (mem_sortedBids.mp inBids).1 reduced)
    rw [took, filled_bid type]
    exact congrArg (fun ts => (ts.map (fun t => t.amount)).sum + o'.amount) (List.filter_congr byId)
  | ask =>
    have took := side_filled (fun t => t.ask) (mem_sortedAsks.mpr ⟨stands, type⟩)
      (sortedSide_pos_nodup std l .ask) (cross_reduced settle (sortedAsks std l) (sortedBids std l) s).2
      (fun q member => written q (List.mem_append_right _ member)) stands'
      (cross_weight_asks (unitOf_withAmount i) settle (sortedAsks std l) (sortedBids std l) s)
    have byId : ∀ t ∈ (crossList std l settle s).made,
        decide (t.ask.pos = i) = decide (t.ask.entry.id = o.id) := by
      intro t member
      obtain ⟨a, inAsks, reduced⟩ := (sound t member).ask
      exact decide_eq_decide.mpr (place_iff_id distinct stands (mem_sortedAsks.mp inAsks).1 reduced)
    rw [took, filled_ask type]
    exact congrArg (fun ts => (ts.map (fun t => t.amount)).sum + o'.amount) (List.filter_congr byId)
  | sale =>
    have kept : (crossWritten std l settle s)[i]? = some o := writeBack_other same stands type
    rw [filledBy, type, zero_add, Option.some.inj (kept.symm.trans stands')]

end Crossing

/-- A trade is between a bid and an ask among the orders, for a part of what they have, within the
prices of both. -/
structure Between (orders : List (OrderBookEntry ℚ)) (t : Trade ℚ) : Prop where
  positive : 0 < t.amount
  enough : t.amount ≤ t.bid.entry.amount ∧ t.amount ≤ t.ask.entry.amount
  parties : ∃ bid ∈ orders, ∃ ask ∈ orders, bid.orderType = .bid ∧ ask.orderType = .ask ∧
    bid.product = ask.product ∧ ask.price ≤ bid.price ∧ SameOrder bid t.bid.entry ∧
    SameOrder ask t.ask.entry

theorem Between.of_same {orders orders' : List (OrderBookEntry ℚ)} {t : Trade ℚ}
    (between : Between orders t) (came : ∀ o ∈ orders, ∃ o' ∈ orders', SameOrder o' o) :
    Between orders' t := by
  obtain ⟨positive, enough, bid, inOrders, ask, inOrders', isBid, isAsk, product, crossed, sameBid, sameAsk⟩ :=
    between
  obtain ⟨bid', member, x, rfl⟩ := came bid inOrders
  obtain ⟨ask', member', y, rfl⟩ := came ask inOrders'
  obtain ⟨x', sameBid⟩ := sameBid
  obtain ⟨y', sameAsk⟩ := sameAsk
  exact ⟨positive, enough, bid', member, ask', member', isBid, isAsk, product, crossed, ⟨x', sameBid⟩,
    ⟨y', sameAsk⟩⟩

section Pass

variable (env : Env ℚ) (std : StdSort (EntryPtr ℚ)) (now : Int) (srv : Server ℚ) (product : Str)

/-- The trades of a pass of a server. -/
def passTrades : List (Trade ℚ) :=
  (srv.orderBook.matchAsksToBids std product (Server.getCurrentTimestamp env now) srv.userStore
    srv.nextId).trades.map Prod.fst

theorem passTrades_eq : passTrades env std now srv product =
    (srv.passCross env std now product).made.map tradeOf := by
  obtain ⟨middle, -, -, -, trades, -⟩ := matchAsksToBids_cross std srv.orderBook product
    (Server.getCurrentTimestamp env now) srv.userStore srv.nextId
  have frame := passCross_frame std (srv.orderBook.orders product) product
    (Server.getCurrentTimestamp env now) srv.userStore srv.nextId
  unfold passTrades
  rw [trades, frame.trades]
  rfl

variable {env std now srv product}

theorem passTrades_between (mirrored : srv.orderBook.Mirrored) :
    ∀ t ∈ passTrades env std now srv product, Between (srv.orderBook.orders product) t := by
  rw [passTrades_eq]
  intro t member
  obtain ⟨m, made, rfl⟩ := List.mem_map.mp member
  have sound := crossList_sound _ _ _ _ m made
  obtain ⟨bid, inList, isBid, sameBid, -⟩ := bid_order_of_sound sound
  obtain ⟨ask, inList', isAsk, sameAsk, -⟩ := ask_order_of_sound sound
  refine ⟨sound.positive, ⟨sound.amount_bid, sound.amount_ask⟩, bid, inList, ask, inList', isBid,
    isAsk, ?_, ?_, sameBid, sameAsk⟩
  · rw [mirrored.filed product bid inList, mirrored.filed product ask inList']
  · have crossed : m.ask.entry.price ≤ m.bid.entry.price := sound.crossed
    obtain ⟨x, toBid⟩ := sameBid
    obtain ⟨y, toAsk⟩ := sameAsk
    rwa [toBid, toAsk] at crossed

/-- What becomes of an order in a pass. -/
structure LeftBy (trades : List (Trade ℚ)) (o o' : OrderBookEntry ℚ) : Prop where
  shrunk : Shrunk o o'
  taken : o.amount = filledBy trades o + o'.amount

theorem Shrunk.trans {o o' o'' : OrderBookEntry ℚ} (first : Shrunk o o') (second : Shrunk o' o'') :
    Shrunk o o'' := by
  obtain ⟨x, rfl, unchanged, bounds⟩ := first
  obtain ⟨y, rfl, unchanged', bounds'⟩ := second
  rw [OrderBookEntry.withAmount_amount] at unchanged' bounds'
  refine ⟨y, rfl, fun empty => ?_, fun positive => ?_⟩
  · have same := unchanged empty
    rw [unchanged' (same ▸ empty), same]
  · obtain ⟨nonneg, most⟩ := bounds positive
    rcases le_or_gt x 0 with none' | some'
    · rw [unchanged' none']
      exact ⟨nonneg, most⟩
    · exact ⟨(bounds' some').1, (bounds' some').2.trans most⟩

/-- The trades of one stretch of a run after those of another. -/
theorem LeftBy.trans {first second : List (Trade ℚ)} {o o' o'' : OrderBookEntry ℚ}
    (earlier : LeftBy first o o') (later : LeftBy second o' o'') : LeftBy (first ++ second) o o'' := by
  refine ⟨earlier.shrunk.trans later.shrunk, ?_⟩
  obtain ⟨x, same, -⟩ := earlier.shrunk
  have taken := later.taken
  rw [same, filledBy_withAmount, ← same] at taken
  rw [filledBy_append, earlier.taken, taken, add_assoc]

theorem LeftBy.refl_of_zero {trades : List (Trade ℚ)} {o : OrderBookEntry ℚ}
    (nothing : filledBy trades o = 0) : LeftBy trades o o :=
  ⟨Shrunk.refl o, by rw [nothing, zero_add]⟩

/-- The trades of a pass take nothing from an order that is not one of the product's. -/
theorem filledBy_passTrades_absent (mirrored : srv.orderBook.Mirrored) {o : OrderBookEntry ℚ}
    (fresh : ∀ o' ∈ srv.orderBook.orders product, o'.id ≠ o.id) :
    filledBy (passTrades env std now srv product) o = 0 := by
  apply filledBy_of_others
  · intro t member
    obtain ⟨bid, inList, -, -, -, -, -, -, ⟨x, same⟩, -⟩ := (passTrades_between mirrored t member).parties
    rw [same]
    exact fresh bid inList
  · intro t member
    obtain ⟨-, -, ask, inList, -, -, -, -, -, ⟨x, same⟩⟩ := (passTrades_between mirrored t member).parties
    rw [same]
    exact fresh ask inList

theorem filledBy_passTrades_other (mirrored : srv.orderBook.Mirrored) {p : Str}
    {o : OrderBookEntry ℚ} (inList : o ∈ srv.orderBook.orders p) (other : p ≠ product) :
    filledBy (passTrades env std now srv product) o = 0 := by
  apply filledBy_passTrades_absent mirrored
  intro o' inProduct same
  have eq := List.inj_on_of_nodup_map mirrored.distinct (mem_getAllOrders.mpr ⟨product, inProduct⟩)
    (mem_getAllOrders.mpr ⟨p, inList⟩) same
  rw [eq] at inProduct
  exact other ((mirrored.filed p o inList).symm.trans (mirrored.filed product o inProduct))

/-- The list of the product when the loops have ended, order by order. -/
theorem passWritten_left (mirrored : srv.orderBook.Mirrored) :
    List.Forall₂ (LeftBy (passTrades env std now srv product)) (srv.orderBook.orders product)
      (srv.passWritten env std now product) := by
  have shrunk : List.Forall₂ Shrunk (srv.orderBook.orders product)
      (srv.passWritten env std now product) := crossWritten_shrunk _ _ _ _
  have distinct : ((srv.orderBook.orders product).map (fun o => o.id)).Nodup := by
    have whole := ((getAllOrders_perm srv.orderBook product).map (fun o => o.id)).nodup_iff.mp
      mirrored.distinct
    rw [List.map_append] at whole
    exact whole.of_append_left
  rw [passTrades_eq]
  apply List.forall₂_iff_get.mpr
  refine ⟨shrunk.length_eq, fun i bound bound' => ⟨shrunk.get bound bound', ?_⟩⟩
  exact crossWritten_filled distinct (List.getElem?_eq_getElem bound) (List.getElem?_eq_getElem bound')

/-- An order that stands after a pass stood before it, and the trades took the difference. -/
theorem matchProduct_comes (mirrored : srv.orderBook.Mirrored) :
    ∀ o' ∈ (srv.matchProduct env std now product).1.orderBook.getAllOrders,
      ∃ o ∈ srv.orderBook.getAllOrders, LeftBy (passTrades env std now srv product) o o' := by
  intro o' member
  obtain ⟨p, inList⟩ := mem_getAllOrders.mp member
  rw [matchProduct_orders] at inList
  by_cases own : p = product
  · rw [if_pos own] at inList
    have written : o' ∈ srv.passWritten env std now product := by
      unfold leftOf at inList
      split at inList
      · exact List.mem_of_mem_filter inList
      · exact inList
    obtain ⟨o, was, left⟩ := ListFacts.forall₂_mem_right (passWritten_left mirrored) written
    exact ⟨o, mem_getAllOrders.mpr ⟨product, was⟩, left⟩
  · rw [if_neg own] at inList
    exact ⟨o', mem_getAllOrders.mpr ⟨p, inList⟩,
      .refl_of_zero (filledBy_passTrades_other mirrored inList own)⟩

variable (env std now product) in
/-- An order that stood before a pass stands after it with what the trades left, or had nothing left. -/
theorem matchProduct_leaves (mirrored : srv.orderBook.Mirrored) :
    ∀ o ∈ srv.orderBook.getAllOrders, ∃ o', LeftBy (passTrades env std now srv product) o o' ∧
      (o' ∈ (srv.matchProduct env std now product).1.orderBook.getAllOrders ∨ o'.amount ≤ 0) := by
  intro o member
  obtain ⟨p, inList⟩ := mem_getAllOrders.mp member
  have after := matchProduct_orders env std now srv product p
  by_cases own : p = product
  · subst own
    rw [if_pos rfl] at after
    obtain ⟨o', written, left⟩ := ListFacts.forall₂_mem_left (passWritten_left mirrored) inList
    refine ⟨o', left, ?_⟩
    by_cases empty : o'.amount ≤ 0
    · exact Or.inr empty
    · left
      apply mem_getAllOrders.mpr ⟨p, ?_⟩
      rw [after]
      unfold leftOf
      split
      · exact List.mem_filter.mpr ⟨written, by simpa using empty⟩
      · exact written
  · rw [if_neg own] at after
    exact ⟨o, .refl_of_zero (filledBy_passTrades_other mirrored inList own),
      Or.inl (mem_getAllOrders.mpr ⟨p, after ▸ inList⟩)⟩

end Pass

end OrderBook

end MiniATS
