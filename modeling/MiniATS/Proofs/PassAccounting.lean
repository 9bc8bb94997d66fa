import MiniATS.Proofs.Settlement
import Mathlib.Tactic.Ring

/-!
# What a pass takes from the claims

The claims of the list of a product fall by what the matches of the pass owe, whatever became
of their settlements: a match reduces the two orders before it is settled.
-/

namespace MiniATS

open Crossing Ledger CSVHandler OrderBookEntry

namespace OrderBook

/-- What the parties of a match have reserved for it. -/
def owedBy (product : Str) (t : Match (EntryPtr ℚ) ℚ) : Str → Str → ℚ :=
  match pairTokens invalidSaleProduct product with
  | .error _ => 0
  | .ok (base, quote') => (saleOf base quote' t).owed

theorem owedBy_of_pair {product base quote' : Str}
    (pair : pairTokens invalidSaleProduct product = .ok (base, quote'))
    (t : Match (EntryPtr ℚ) ℚ) : owedBy product t = (saleOf base quote' t).owed := by
  simp [owedBy, pair]

theorem owed_saleOf (base quote' : Str) (t : Match (EntryPtr ℚ) ℚ) :
    (saleOf base quote' t).owed =
      single t.bid.entry.username quote' (t.amount * t.bid.entry.price) +
        single t.ask.entry.username base t.amount := by
  have cost : (saleOf base quote' t).cost + (saleOf base quote' t).refund =
      t.amount * t.bid.entry.price := by
    simp only [saleOf]
    ring
  rw [Sale.owed, cost]
  rfl

section Tokens

variable {product : Str} {o : OrderBookEntry ℚ}

theorem reservedToken_of_error {e : Exn} (filed : o.product = product)
    (unpaired : pairTokens invalidSaleProduct product = .error e) : o.reservedToken = none := by
  unfold reservedToken
  cases pair : pairTokens Wallet.invalidProduct o.product with
  | error e => rfl
  | ok tokens =>
    rw [filed] at pair
    rw [pairTokens_ok pair invalidSaleProduct] at unpaired
    cases unpaired

theorem reservedToken_of_pair {base quote' : Str} (filed : o.product = product)
    (pair : pairTokens invalidSaleProduct product = .ok (base, quote')) :
    o.reservedToken = match o.orderType with
      | .ask => some base
      | .bid => some quote'
      | .sale => none := by
  unfold reservedToken
  rw [filed, pairTokens_ok pair Wallet.invalidProduct]
  cases o.orderType <;> rfl

end Tokens

/-- What a unit of a bid or an ask of the product claims. -/
def unitClaim (product : Str) (u c : Str) (p : EntryPtr ℚ) : ℚ →+ ℚ :=
  match pairTokens invalidSaleProduct product, p.entry.orderType with
  | .ok (_, quote'), .bid =>
    { toFun := fun x => single p.entry.username quote' (x * p.entry.price) u c
      map_zero' := by simp
      map_add' := fun x y => by rw [add_mul, single_add]; rfl }
  | .ok (base, _), .ask =>
    { toFun := fun x => single p.entry.username base x u c
      map_zero' := by simp
      map_add' := fun x y => by rw [single_add]; rfl }
  | _, _ => 0

variable {product : Str}

theorem weight_unitClaim {p : EntryPtr ℚ} (filed : p.entry.product = product) (u c : Str) :
    weight (unitClaim product u c) p = p.entry.claim u c := by
  unfold weight unitClaim
  cases pair : pairTokens invalidSaleProduct product with
  | error e => simp [claim, reservedToken_of_error filed pair]
  | ok tokens =>
    obtain ⟨base, quote'⟩ := tokens
    have token := reservedToken_of_pair filed pair
    cases type : p.entry.orderType with
    | bid =>
      rw [type] at token
      rw [claim_of_token token, need_of_bid type]
      rfl
    | ask =>
      rw [type] at token
      rw [claim_of_token token, need_of_ask type]
      rfl
    | sale =>
      rw [type] at token
      simp [claim, token]

theorem unitClaim_withAmount (product u c : Str) (p : EntryPtr ℚ) (x : ℚ) :
    unitClaim product u c (Offer.withAmount p x) = unitClaim product u c p := rfl

/-- What a match takes from its two orders is what its parties owe. -/
theorem unitClaim_match {t : Match (EntryPtr ℚ) ℚ} (bid : t.bid.entry.orderType = .bid)
    (ask : t.ask.entry.orderType = .ask) (u c : Str) :
    unitClaim product u c t.bid t.amount + unitClaim product u c t.ask t.amount =
      owedBy product t u c := by
  cases pair : pairTokens invalidSaleProduct product with
  | error e => simp [unitClaim, owedBy, pair]
  | ok tokens =>
    obtain ⟨base, quote'⟩ := tokens
    rw [owedBy_of_pair pair, owed_saleOf]
    unfold unitClaim
    rw [bid, ask, pair]
    rfl

/-- The same, for those orders only that `keep` selects. -/
def unitClaimOf (keep : OrderBookEntry ℚ → Bool) (product : Str) (u c : Str) (p : EntryPtr ℚ) : ℚ →+ ℚ :=
  if keep p.entry then unitClaim product u c p else 0

theorem unitClaimOf_withAmount {keep : OrderBookEntry ℚ → Bool}
    (fixed : ∀ o x, keep (o.withAmount x) = keep o) (product u c : Str) (p : EntryPtr ℚ) (x : ℚ) :
    unitClaimOf keep product u c (Offer.withAmount p x) = unitClaimOf keep product u c p := by
  have same : keep (Offer.withAmount p x : EntryPtr ℚ).entry = keep p.entry := fixed p.entry x
  unfold unitClaimOf
  rw [same, unitClaim_withAmount]

section Cells

variable {std : StdSort (EntryPtr ℚ)} {l : List (OrderBookEntry ℚ)} (keep : OrderBookEntry ℚ → Bool)

private theorem claims_entries (ptrs : List (EntryPtr ℚ))
    (filed : ∀ p ∈ ptrs, p.entry.product = product) (u c : Str) :
    claims ((ptrs.map (fun p => p.entry)).filter keep) u c =
      (ptrs.map (weight (unitClaimOf keep product u c))).sum := by
  induction ptrs with
  | nil => rfl
  | cons p ptrs ih =>
    have rest := ih fun q member => filed q (List.mem_cons_of_mem _ member)
    rw [List.map_cons, List.filter_cons, List.map_cons, List.sum_cons, ← rest]
    cases kept : keep p.entry with
    | true =>
      rw [if_pos rfl, claims_cons, Pi.add_apply, Pi.add_apply,
        ← weight_unitClaim (filed p List.mem_cons_self) u c]
      simp [weight, unitClaimOf, kept]
    | false => simp [weight, unitClaimOf, kept]

/-- The claims before and after pointers are written back differ by those of the pointers. -/
theorem claims_writeBack (filed : ∀ o ∈ l, o.product = product) {ptrs : List (EntryPtr ℚ)}
    (same : List.Forall₂ SameNode (sortedBids std l ++ sortedAsks std l) ptrs) (u c : Str) :
    claims ((writeBack l ptrs).filter keep) u c +
        ((sortedBids std l ++ sortedAsks std l).map (weight (unitClaimOf keep product u c))).sum =
      claims (l.filter keep) u c + (ptrs.map (weight (unitClaimOf keep product u c))).sum := by
  let cells := (sortedBids std l ++ sortedAsks std l).map (fun p => (p.pos, p.entry))
  let cells' := ptrs.map (fun p => (p.pos, p.entry))
  have positions : cells'.map Prod.fst = cells.map Prod.fst := by
    simp only [cells, cells', List.map_map, Function.comp_def]
    exact (ListFacts.forall₂_map_eq (fun _ _ related => related.entry.1.symm) same).symm
  have distinct : (cells.map Prod.fst).Nodup := by
    simpa only [cells, List.map_map, Function.comp_def] using sorted_pos_nodup std l
  have inSorted : ∀ p ∈ sortedBids std l ++ sortedAsks std l, l[p.pos]? = some p.entry := by
    intro p member
    rcases List.mem_append.mp member with isBid | isAsk
    · exact (mem_sortedBids.mp isBid).1
    · exact (mem_sortedAsks.mp isAsk).1
  have stand : ∀ cell ∈ cells, l[cell.1]? = some cell.2 := by
    intro cell member
    obtain ⟨p, inList, rfl⟩ := List.mem_map.mp member
    exact inSorted p inList
  have bounds : ∀ cell ∈ cells', cell.1 < l.length := by
    intro cell member
    have : cell.1 ∈ cells.map Prod.fst := positions ▸ List.mem_map_of_mem member
    obtain ⟨old, inCells, there⟩ := List.mem_map.mp this
    rw [← there]
    exact (List.getElem?_eq_some_iff.mp (stand old inCells)).1
  have before := ListFacts.perm_cells l distinct stand
  have after := ListFacts.putAll_perm l (positions ▸ distinct) bounds
  have filedSorted : ∀ p ∈ sortedBids std l ++ sortedAsks std l, p.entry.product = product :=
    fun p member => filed _ (List.mem_of_getElem? (inSorted p member))
  have filedPtrs : ∀ p ∈ ptrs, p.entry.product = product := by
    intro q member
    obtain ⟨p, inList, x, rfl⟩ := ListFacts.forall₂_mem_right same member
    exact filedSorted p inList
  rw [claims_perm (before.filter keep)]
  unfold writeBack
  rw [claims_perm (after.filter keep), positions]
  simp only [List.filter_append, claims_append, Pi.add_apply, cells, cells', List.map_map,
    Function.comp_def]
  rw [claims_entries keep ptrs filedPtrs, claims_entries keep _ filedSorted]
  ring

end Cells

section Shrunk

/-- An order of which a part may have been taken, as a pass does. -/
def Shrunk (o o' : OrderBookEntry ℚ) : Prop :=
  ∃ x, o' = o.withAmount x ∧ (o.amount ≤ 0 → x = o.amount) ∧ (0 < o.amount → 0 ≤ x ∧ x ≤ o.amount)

theorem Shrunk.refl (o : OrderBookEntry ℚ) : Shrunk o o :=
  ⟨o.amount, rfl, fun _ => rfl, fun positive => ⟨positive.le, le_rfl⟩⟩

section Fields

variable {o o' : OrderBookEntry ℚ} (shrunk : Shrunk o o')

include shrunk

theorem Shrunk.username : o'.username = o.username := by
  obtain ⟨x, rfl, -⟩ := shrunk
  rfl

theorem Shrunk.id : o'.id = o.id := by
  obtain ⟨x, rfl, -⟩ := shrunk
  rfl

theorem Shrunk.reservedToken : o'.reservedToken = o.reservedToken := by
  obtain ⟨x, rfl, -⟩ := shrunk
  rfl

end Fields

theorem shrunk_of_reduced {p q : EntryPtr ℚ} (reduced : Reduced p q) :
    q.pos = p.pos ∧ Shrunk p.entry q.entry := by
  obtain ⟨x, rfl, unchanged, bounds⟩ := reduced
  exact ⟨rfl, x, rfl, unchanged, bounds⟩

theorem Shrunk.need_nonneg {o o' : OrderBookEntry ℚ} (shrunk : Shrunk o o') (nonneg : 0 ≤ o.need) :
    0 ≤ o'.need := by
  obtain ⟨x, rfl, unchanged, bounds⟩ := shrunk
  rcases le_or_gt o.amount 0 with empty | positive
  · rw [unchanged empty, withAmount_self]
    exact nonneg
  · cases type : o.orderType with
    | ask =>
      rw [need_of_ask (o := o.withAmount x) type]
      exact (bounds positive).1
    | bid =>
      rw [need_of_bid type] at nonneg
      rw [need_of_bid (o := o.withAmount x) type]
      exact mul_nonneg (bounds positive).1 (nonneg_of_mul_nonneg_right nonneg positive)
    | sale => simp [need, type]

end Shrunk

section Pass

variable (std : StdSort (EntryPtr ℚ)) (l : List (OrderBookEntry ℚ)) {σ ε : Type}
  (settle : σ → Match (EntryPtr ℚ) ℚ → σ × Verdict ε) (s : σ)

/-- A crossing of the orders of a list. -/
def crossList : Outcome (EntryPtr ℚ) ℚ σ ε := cross settle (sortedAsks std l) (sortedBids std l) s

/-- The list as a crossing of its orders leaves it. -/
def crossWritten : List (OrderBookEntry ℚ) :=
  writeBack l ((crossList std l settle s).bids ++ (crossList std l settle s).asks)

theorem crossList_reduced : List.Forall₂ Reduced (sortedBids std l ++ sortedAsks std l)
    ((crossList std l settle s).bids ++ (crossList std l settle s).asks) :=
  List.rel_append (cross_reduced _ _ _ _).1 (cross_reduced _ _ _ _).2

theorem crossList_sameNode : List.Forall₂ SameNode (sortedBids std l ++ sortedAsks std l)
    ((crossList std l settle s).bids ++ (crossList std l settle s).asks) :=
  (crossList_reduced std l settle s).imp fun _ _ reduced =>
    ⟨reduced.choose, reduced.choose_spec.1⟩

theorem crossWritten_shrunk : List.Forall₂ Shrunk l (crossWritten std l settle s) :=
  writeBack_forall₂ Shrunk.refl
    ((crossList_reduced std l settle s).imp fun _ _ reduced => shrunk_of_reduced reduced)

/-- A match of a crossing is between a bid and an ask of the list, as far as they are left. -/
theorem crossList_sound :
    ∀ t ∈ (crossList std l settle s).made, Sound (sortedAsks std l) (sortedBids std l) t :=
  cross_sound _ _ _ _

end Pass

section Sides

variable {std : StdSort (EntryPtr ℚ)} {l : List (OrderBookEntry ℚ)} {t : Match (EntryPtr ℚ) ℚ}

/-- The order a matched bid was at the start of the pass. -/
theorem bid_order_of_sound (sound : Sound (sortedAsks std l) (sortedBids std l) t) :
    ∃ o ∈ l, o.orderType = .bid ∧ SameOrder o t.bid.entry ∧ 0 < o.amount := by
  obtain ⟨b, inBids, reduced⟩ := sound.bid
  obtain ⟨there, isBid⟩ := mem_sortedBids.mp inBids
  have positive := reduced.positive (lt_of_lt_of_le sound.positive sound.amount_bid)
  obtain ⟨x, left, -⟩ := reduced
  exact ⟨b.entry, List.mem_of_getElem? there, isBid, ⟨x, by rw [left]; rfl⟩, positive⟩

/-- The order a matched ask was at the start of the pass. -/
theorem ask_order_of_sound (sound : Sound (sortedAsks std l) (sortedBids std l) t) :
    ∃ o ∈ l, o.orderType = .ask ∧ SameOrder o t.ask.entry ∧ 0 < o.amount := by
  obtain ⟨a, inAsks, reduced⟩ := sound.ask
  obtain ⟨there, isAsk⟩ := mem_sortedAsks.mp inAsks
  have positive := reduced.positive (lt_of_lt_of_le sound.positive sound.amount_ask)
  obtain ⟨x, left, -⟩ := reduced
  exact ⟨a.entry, List.mem_of_getElem? there, isAsk, ⟨x, by rw [left]; rfl⟩, positive⟩

theorem types_of_sound (sound : Sound (sortedAsks std l) (sortedBids std l) t) :
    t.bid.entry.orderType = .bid ∧ t.ask.entry.orderType = .ask := by
  obtain ⟨o, -, bid, ⟨x, left⟩, -⟩ := bid_order_of_sound sound
  obtain ⟨o', -, ask, ⟨x', left'⟩, -⟩ := ask_order_of_sound sound
  rw [left, left']
  exact ⟨bid, ask⟩

end Sides

/-- The claims of the orders that `keep` selects fall by what the matches made owe, when these are
between selected orders. -/
theorem claims_crossWritten_filter (std : StdSort (EntryPtr ℚ)) {l : List (OrderBookEntry ℚ)}
    (filed : ∀ o ∈ l, o.product = product) (keep : OrderBookEntry ℚ → Bool)
    (fixed : ∀ o x, keep (o.withAmount x) = keep o) {σ ε : Type}
    (settle : σ → Match (EntryPtr ℚ) ℚ → σ × Verdict ε) (s : σ)
    (selected : ∀ t ∈ (crossList std l settle s).made, keep t.bid.entry ∧ keep t.ask.entry) (u c : Str) :
    claims ((crossWritten std l settle s).filter keep) u c +
        ((crossList std l settle s).made.map (fun t => owedBy product t u c)).sum =
      claims (l.filter keep) u c := by
  have balance := claims_writeBack keep filed (crossList_sameNode std l settle s) u c
  have bids := cross_weight_bids (unitClaimOf_withAmount fixed product u c) settle
    (sortedAsks std l) (sortedBids std l) s
  have asks := cross_weight_asks (unitClaimOf_withAmount fixed product u c) settle
    (sortedAsks std l) (sortedBids std l) s
  have owed : ((crossList std l settle s).made.map (fun t => owedBy product t u c)).sum =
      ((crossList std l settle s).made.map
        (fun t => unitClaimOf keep product u c t.bid t.amount)).sum +
      ((crossList std l settle s).made.map
        (fun t => unitClaimOf keep product u c t.ask t.amount)).sum := by
    rw [← List.sum_map_add]
    refine congrArg List.sum (List.map_congr_left fun t member => ?_)
    obtain ⟨bid, ask⟩ := types_of_sound (crossList_sound _ _ _ _ t member)
    obtain ⟨keepBid, keepAsk⟩ := selected t member
    simp only [unitClaimOf, keepBid, keepAsk, if_true]
    exact (unitClaim_match bid ask u c).symm
  simp only [List.map_append, List.sum_append] at balance
  unfold crossWritten
  unfold crossList at balance owed ⊢
  dsimp only at bids asks ⊢
  linarith

/-- The claims of the list fall by what the matches made owe. -/
theorem claims_crossWritten (std : StdSort (EntryPtr ℚ)) {l : List (OrderBookEntry ℚ)}
    (filed : ∀ o ∈ l, o.product = product) {σ ε : Type}
    (settle : σ → Match (EntryPtr ℚ) ℚ → σ × Verdict ε) (s : σ) (u c : Str) :
    claims (crossWritten std l settle s) u c +
        ((crossList std l settle s).made.map (fun t => owedBy product t u c)).sum =
      claims l u c := by
  have all := claims_crossWritten_filter std filed (fun _ => true) (fun _ _ => rfl) settle s
    (fun _ _ => ⟨rfl, rfl⟩) u c
  simpa only [List.filter_true] using all

end OrderBook

end MiniATS
