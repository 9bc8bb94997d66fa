import Mathlib.Algebra.Order.BigOperators.Group.List
import Mathlib.Order.Bounds.Basic
import MiniATS.Misc.Crossing

/-!
# The volume of a crossing

When the asks come from the lowest price and the bids from the highest, a crossing uses up
both sides from the front: each side is left as if the whole volume had been taken from its
offers in turn (`plan_consumes`). The volume is the market-clearing one: the largest amount
that, at some price, both the bids at or above it and the asks at or below it supply
(`plan_clears`).
-/

universe u v

namespace Crossing

open Offer

variable {α : Type u} {M : Type v} [LinearOrder M] [AddCommGroup M] [Offer α M]

/-- Take an amount from the offers in turn; those without a positive amount are passed over. -/
def consume : M → List α → List α
  | _, [] => []
  | v, a :: l =>
    if amount a ≤ 0 then a :: consume v l
    else remaining a (min v (amount a)) :: consume (v - min v (amount a)) l

/-- What the offers with a positive amount amount to. -/
def total (l : List α) : M := ((l.filter (fun a => decide ((0 : M) < amount a))).map amount).sum

/-- What the matches amount to. -/
def volume (ts : List (Match α M)) : M := (ts.map (fun t => t.amount)).sum

section Total

@[simp] theorem total_nil : total ([] : List α) = (0 : M) := rfl

theorem total_cons_of_pos {a : α} (positive : (0 : M) < amount a) (l : List α) :
    total (a :: l) = amount a + total l := by
  simp [total, positive]

theorem total_cons_of_empty {a : α} (empty : amount a ≤ (0 : M)) (l : List α) :
    total (a :: l) = total l := by
  simp [total, not_lt.mpr empty]

theorem total_append (l l' : List α) : total (l ++ l') = total l + total l' := by
  simp [total]

omit [LinearOrder M] [Offer α M] in
@[simp] theorem volume_nil : volume ([] : List (Match α M)) = 0 := rfl

omit [LinearOrder M] [Offer α M] in
theorem volume_cons (t : Match α M) (ts : List (Match α M)) :
    volume (t :: ts) = t.amount + volume ts := by
  simp [volume]

omit [LinearOrder M] [Offer α M] in
theorem volume_append (ts ts' : List (Match α M)) : volume (ts ++ ts') = volume ts + volume ts' := by
  simp [volume]

end Total

omit [LinearOrder M] in
theorem remaining_zero (a : α) : remaining a (0 : M) = a := by
  simp [remaining]

theorem consume_zero (l : List α) : consume (0 : M) l = l := by
  induction l with
  | nil => rfl
  | cons a l ih =>
    unfold consume
    split
    · rw [ih]
    · rename_i open'
      rw [min_eq_left (not_le.mp open').le, sub_zero, ih, remaining_zero]

variable [IsOrderedAddMonoid M]

theorem total_nonneg (l : List α) : 0 ≤ total l := by
  apply List.sum_nonneg
  intro x member
  obtain ⟨a, inList, rfl⟩ := List.mem_map.mp member
  exact (of_decide_eq_true (List.mem_filter.mp inList).2).le

section Consume

/-- Two amounts taken one after the other are their sum taken at once. -/
theorem consume_consume {v w : M} (nonneg : 0 ≤ v) (nonneg' : 0 ≤ w) (l : List α) :
    consume w (consume v l) = consume (v + w) l := by
  induction l generalizing v w with
  | nil => rfl
  | cons a l ih =>
    by_cases empty : amount a ≤ 0
    · simp only [consume, empty, if_true]
      rw [ih nonneg nonneg']
    rcases le_or_gt (amount a) v with all | part
    · -- the first amount takes the whole offer
      have used : amount (remaining a (amount a)) ≤ (0 : M) := by simp [remaining]
      have both : min (v + w) (amount a) = amount a :=
        min_eq_right (all.trans (le_add_of_nonneg_right nonneg'))
      simp only [consume, empty, if_false, min_eq_right all, used, if_true, both]
      rw [ih (sub_nonneg.mpr all) nonneg', add_sub_right_comm]
    · have left : ¬ amount a - v ≤ 0 := by simpa using part
      have rest : amount (remaining a v) = amount a - v := by simp [remaining]
      have both : min (v + w) (amount a) = v + min w (amount a - v) := by
        rw [← min_add_add_left, add_sub_cancel]
      have joined : remaining (remaining a v) (min w (amount a - v)) =
          remaining a (v + min w (amount a - v)) := by
        simp [remaining, sub_sub]
      simp only [consume, empty, if_false, min_eq_left part.le, rest, left, both, joined, sub_self]
      rw [ih le_rfl (sub_nonneg.mpr (min_le_left _ _)), zero_add, add_sub_add_left_eq_sub]

/-- What is taken from the first offers, and what is left to take from the others. -/
theorem consume_append {v : M} (nonneg : 0 ≤ v) (l l' : List α) :
    consume v (l ++ l') = consume v l ++ consume (v - min v (total l)) l' := by
  induction l generalizing v with
  | nil => simp [consume, min_eq_right nonneg]
  | cons a l ih =>
    by_cases empty : amount a ≤ 0
    · simp only [List.cons_append, consume, empty, if_true, total_cons_of_empty empty]
      rw [ih nonneg]
    · have positive := not_le.mp empty
      have later : 0 ≤ v - min v (amount a) := sub_nonneg.mpr (min_le_left _ _)
      simp only [List.cons_append, consume, empty, if_false, total_cons_of_pos positive]
      rw [ih later]
      congr 3
      rcases le_or_gt (amount a) v with all | part
      · rw [min_eq_right all]
        have split : min v (amount a + total l) = amount a + min (v - amount a) (total l) := by
          rw [← min_add_add_left, add_sub_cancel]
        rw [split, sub_add_eq_sub_sub]
      · have more : v ≤ amount a + total l := part.le.trans (le_add_of_nonneg_right (total_nonneg l))
        rw [min_eq_left part.le, min_eq_left more, sub_self, min_eq_left (total_nonneg l), sub_zero]

/-- What is left of an offer when an amount is taken from it after the offers `before` it. -/
def leftOver (v : M) (before : List α) (a : α) : α :=
  if amount a ≤ 0 then a else remaining a (min (v - min v (total before)) (amount a))

theorem consume_append_cons {v : M} (nonneg : 0 ≤ v) (before : List α) (a : α) (after : List α) :
    ∃ after', consume v (before ++ a :: after) = consume v before ++ leftOver v before a :: after' := by
  rw [consume_append nonneg]
  unfold leftOver
  rw [consume]
  split
  · exact ⟨_, rfl⟩
  · exact ⟨_, rfl⟩

variable {v : M} {before : List α} {a : α}

/-- Something is taken of an offer when the offers before it do not make up the amount. -/
theorem amount_leftOver_lt_iff (positive : 0 < amount a) :
    amount (leftOver v before a) < amount a ↔ total before < v := by
  simp only [leftOver, not_le.mpr positive, if_false, remaining, amount_withAmount, sub_lt_self_iff,
    lt_min_iff, positive, and_true, sub_pos]
  constructor
  · intro less
    exact lt_of_not_ge fun all => less.ne (min_eq_left all)
  · intro less
    rwa [min_eq_right less.le]

/-- All of it is taken when the amount reaches to its end. -/
theorem amount_leftOver_nonpos_iff (positive : 0 < amount a) :
    amount (leftOver v before a) ≤ 0 ↔ total before + amount a ≤ v := by
  simp only [leftOver, not_le.mpr positive, if_false, remaining, amount_withAmount, sub_nonpos,
    le_min_iff, le_refl, and_true]
  rcases le_or_gt v (total before) with all | part
  · rw [min_eq_left all, sub_self]
    have positive' := lt_add_of_le_of_pos all positive
    exact iff_of_false (not_le.mpr positive) (not_le.mpr positive')
  · rw [min_eq_right part.le, le_sub_iff_add_le']

end Consume

section Consumes

omit [Offer α M] in
theorem volume_nonneg {ts : List (Match α M)} (positive : ∀ t ∈ ts, 0 < t.amount) : 0 ≤ volume ts := by
  apply List.sum_nonneg
  intro x member
  obtain ⟨t, inList, rfl⟩ := List.mem_map.mp member
  exact (positive t inList).le

omit [IsOrderedAddMonoid M] in
/-- Offers that are reduced keep their order of price. -/
theorem sorted_of_reduced (rel : M → M → Prop) {l l' : List α} (reduced : List.Forall₂ Reduced l l')
    (sorted : l.Pairwise (fun a b => rel (price a) (price b))) :
    l'.Pairwise (fun a b => rel (price a) (price b)) := by
  have prices : l.map price = l'.map price :=
    ListFacts.forall₂_map_eq (fun _ _ related => related.price_eq.symm) reduced
  rw [← List.pairwise_map (f := price), prices] at sorted
  exact List.pairwise_map.mp sorted

omit [IsOrderedAddMonoid M] in
/-- An ask is filled from no bid of which none is eligible. -/
theorem fillAsk_of_ineligible {ask : α} {bids : List α} (none' : ∀ b ∈ bids, ¬ Eligible ask b) :
    (fillAsk accept ask bids () : Outcome α M Unit Empty).made = [] := by
  induction bids with
  | nil => rfl
  | cons bid bids ih =>
    obtain ⟨head, tail⟩ := List.forall_mem_cons.mp none'
    simp only [fillAsk, head, if_false]
    exact ih tail

/-- An ask takes the volume of its matches from the bids in turn, and there is a bid left for it
only if it is filled. -/
theorem fillAsk_consumes {ask : α} (positive : 0 < amount ask) {bids : List α}
    (sorted : bids.Pairwise (fun a b => price b ≤ price a)) :
    let r : Outcome α M Unit Empty := fillAsk accept ask bids ()
    volume r.made ≤ amount ask ∧ r.bids = consume (volume r.made) bids ∧
      r.asks = [remaining ask (volume r.made)] := by
  induction bids generalizing ask with
  | nil => simp [fillAsk, positive.le, consume, remaining_zero]
  | cons bid bids ih =>
    obtain ⟨most, sorted'⟩ := List.pairwise_cons.mp sorted
    by_cases eligible : Eligible ask bid
    · have some' := not_le.mpr eligible.1
      by_cases clears : amount ask ≤ amount bid
      · have met : (meet bid ask).amount = amount ask := min_eq_right clears
        simp only [fillAsk, eligible, accept, clears, if_true, volume_cons, volume_nil, add_zero, met,
          consume, some', if_false, min_eq_left clears, sub_self, consume_zero, le_refl, true_and]
      · have less := not_le.mp clears
        have met : (meet bid ask).amount = amount bid := min_eq_left less.le
        have positive' : 0 < amount (remaining ask (amount bid)) := by simpa [remaining] using less
        obtain ⟨most', bids', asks'⟩ := ih positive' sorted'
        have nonneg : 0 ≤ volume (fillAsk accept (remaining ask (amount bid)) bids () :
            Outcome α M Unit Empty).made :=
          volume_nonneg fun t member => (fillAsk_sound accept positive' bids () t member).positive
        simp only [fillAsk, eligible, accept, clears, if_true, if_false, volume_cons, met, consume,
          some', min_eq_right (le_add_of_nonneg_right nonneg), add_sub_cancel_left]
        rw [← bids', asks']
        refine ⟨?_, rfl, by simp [remaining, sub_sub]⟩
        rw [← le_sub_iff_add_le']
        simpa [remaining] using most'
    · obtain ⟨most', bids', asks'⟩ := ih positive sorted'
      simp only [fillAsk, eligible, if_false]
      refine ⟨most', ?_, asks'⟩
      by_cases empty : amount bid ≤ 0
      · simp only [consume, empty, if_true]
        rw [← bids']
      · -- this bid is priced below the ask, and so are all that come after it
        have low : price bid < price ask := lt_of_not_ge fun high => eligible ⟨not_le.mp empty, high⟩
        have none' : (fillAsk accept ask bids () : Outcome α M Unit Empty).made = [] :=
          fillAsk_of_ineligible fun b member good => not_lt.mpr good.2 ((most b member).trans_lt low)
        rw [none', volume_nil, consume_zero, (fillAsk_of_none none').2]

omit [IsOrderedAddMonoid M] in
/-- Asks that no bid meets are not filled. -/
theorem plan_of_ineligible {asks bids : List α} (none' : ∀ a ∈ asks, ∀ b ∈ bids, ¬ Eligible a b) :
    plan asks bids = [] := by
  unfold plan planOutcome
  induction asks with
  | nil => rfl
  | cons ask asks ih =>
    obtain ⟨head, tail⟩ := List.forall_mem_cons.mp none'
    by_cases empty : amount ask ≤ 0
    · simp only [cross, empty, if_true]
      exact ih tail
    · have idle := fillAsk_of_ineligible head
      simp only [cross, empty, if_false, fillAsk_accept_error, idle, (fillAsk_of_none idle).2,
        List.nil_append]
      exact ih tail

/-- Asks from the lowest price and bids from the highest: a crossing takes its volume from both
sides in turn. -/
theorem plan_consumes {asks bids : List α} (asksSorted : asks.Pairwise (fun a b => price a ≤ price b))
    (bidsSorted : bids.Pairwise (fun a b => price b ≤ price a)) :
    (planOutcome asks bids).bids = consume (volume (plan asks bids)) bids ∧
      (planOutcome asks bids).asks = consume (volume (plan asks bids)) asks := by
  induction asks generalizing bids with
  | nil => exact ⟨(consume_zero bids).symm, rfl⟩
  | cons ask asks ih =>
    obtain ⟨least, sorted'⟩ := List.pairwise_cons.mp asksSorted
    unfold plan planOutcome at ih ⊢
    by_cases empty : amount ask ≤ 0
    · obtain ⟨bids', asks'⟩ := ih sorted' bidsSorted
      simp only [cross, consume, empty, if_true]
      exact ⟨bids', by rw [asks']⟩
    have positive := not_le.mp empty
    obtain ⟨most, bids', asks'⟩ := fillAsk_consumes positive bidsSorted
    have reduced := (fillAsk_reduced accept positive bids ()).1
    obtain ⟨restBids, restAsks⟩ := ih sorted' (sorted_of_reduced (fun x y => y ≤ x) reduced bidsSorted)
    have nonneg := volume_nonneg fun t member => (fillAsk_sound accept positive bids () t member).positive
    have nonneg' := volume_nonneg fun t member => (cross_sound accept asks
      (fillAsk accept ask bids () : Outcome α M Unit Empty).bids () t member).positive
    have uncrossed := fillAsk_uncrossed accept positive bids () (fillAsk_accept_error ask bids ())
    simp only [cross, consume, empty, if_false, fillAsk_accept_error, volume_append]
    generalize (fillAsk accept ask bids () : Outcome α M Unit Empty) = r
      at most bids' asks' reduced restBids restAsks nonneg nonneg' uncrossed ⊢
    refine ⟨?_, ?_⟩
    · rw [← consume_consume nonneg nonneg', ← bids']
      exact restBids
    · rw [asks', List.singleton_append]
      rcases most.eq_or_lt with filled | left
      · rw [filled, min_eq_right (le_add_of_nonneg_right nonneg'), add_sub_cancel_left]
        exact congrArg _ restAsks
      · -- something of the ask is left, so no bid is left for it or for the asks after it
        have none' : plan asks r.bids = [] := by
          apply plan_of_ineligible
          intro a inAsks b inBids good
          have low := uncrossed (remaining ask (volume r.made)) (by simp [asks']) b inBids
            (by simpa [remaining] using left) good.1
          have high := (least a inAsks).trans good.2
          exact not_lt.mpr high (by simpa [remaining] using low)
        have rest : volume (cross accept asks r.bids () : Outcome α M Unit Empty).made = 0 :=
          congrArg volume none'
        rw [rest, add_zero, min_eq_left left.le, sub_self, consume_zero]
        exact congrArg _ (restAsks.trans (by rw [rest, consume_zero]))

end Consumes

section Order

/-- Bids that come from the highest price are matched in that order, and those with something left
are priced no higher than those that were matched. -/
theorem fillAsk_bids_sorted {ask : α} (positive : 0 < amount ask) {bids : List α}
    (sorted : bids.Pairwise (fun a b => price b ≤ price a)) :
    let r : Outcome α M Unit Empty := fillAsk accept ask bids ()
    r.made.Pairwise (fun t t' => price t'.bid ≤ price t.bid) ∧
      ∀ t ∈ r.made, ∀ b ∈ r.bids, 0 < amount b → price b ≤ price t.bid := by
  induction bids generalizing ask with
  | nil => simp [fillAsk]
  | cons bid bids ih =>
    obtain ⟨most, sorted'⟩ := List.pairwise_cons.mp sorted
    have below : ∀ {ask' : α}, 0 < amount ask' → ∀ b ∈ (fillAsk accept ask' bids () :
        Outcome α M Unit Empty).bids, price b ≤ price bid := by
      intro ask' positive' b member
      obtain ⟨b₀, inBids, toB⟩ :=
        ListFacts.forall₂_mem_right (fillAsk_reduced accept positive' bids ()).1 member
      exact toB.price_eq ▸ most b₀ inBids
    have before : ∀ {ask' : α}, 0 < amount ask' → ∀ t ∈ (fillAsk accept ask' bids () :
        Outcome α M Unit Empty).made, price t.bid ≤ price bid := by
      intro ask' positive' t member
      obtain ⟨b₀, inBids, toB⟩ := (fillAsk_sound accept positive' bids () t member).bid
      exact toB.price_eq ▸ most b₀ inBids
    by_cases eligible : Eligible ask bid
    · by_cases clears : amount ask ≤ amount bid
      · simp only [fillAsk, eligible, accept, clears, if_true]
        refine ⟨List.pairwise_singleton _ _, fun t isHead b member _ => ?_⟩
        obtain rfl := List.mem_singleton.mp isHead
        rcases List.mem_cons.mp member with rfl | later
        · exact (price_withAmount bid _).le
        · exact most b later
      · have positive' := remaining_pos clears
        obtain ⟨made, left⟩ := ih positive' sorted'
        simp only [fillAsk, eligible, accept, clears, if_true, if_false]
        refine ⟨List.pairwise_cons.mpr ⟨before positive', made⟩, fun t isMade b member some' => ?_⟩
        rcases List.mem_cons.mp member with rfl | later
        · -- the bid that was matched first is used up
          have spent : amount (remaining bid (meet bid ask).amount) = 0 := by
            simp [remaining, meet, (not_le.mp clears).le]
          exact absurd some' (spent ▸ lt_irrefl _)
        · rcases List.mem_cons.mp isMade with rfl | made'
          · exact below positive' b later
          · exact left t made' b later some'
    · obtain ⟨made, left⟩ := ih positive sorted'
      simp only [fillAsk, eligible, if_false]
      refine ⟨made, fun t isMade b member some' => ?_⟩
      rcases List.mem_cons.mp member with rfl | later
      · -- a bid that was passed over is priced below the ask that the others meet
        have low : price b < price ask := lt_of_not_ge fun high => eligible ⟨some', high⟩
        have sound := fillAsk_sound accept positive bids () t isMade
        obtain ⟨a, isAsk, toAsk⟩ := sound.ask
        obtain rfl := List.mem_singleton.mp isAsk
        exact (low.trans_le (toAsk.price_eq ▸ sound.crossed)).le
      · exact left t isMade b later some'

/-- Bids that come from the highest price are matched in order of price. -/
theorem plan_bids_sorted (asks : List α) {bids : List α}
    (sorted : bids.Pairwise (fun a b => price b ≤ price a)) :
    (plan asks bids).Pairwise (fun t t' => price t'.bid ≤ price t.bid) := by
  unfold plan planOutcome
  induction asks generalizing bids with
  | nil => exact .nil
  | cons ask asks ih =>
    by_cases empty : amount ask ≤ 0
    · simpa only [cross, empty, if_true] using ih sorted
    · have positive := not_le.mp empty
      obtain ⟨made, left⟩ := fillAsk_bids_sorted positive sorted
      have reduced := (fillAsk_reduced accept positive bids ()).1
      simp only [cross, empty, if_false, fillAsk_accept_error]
      refine List.pairwise_append.mpr
        ⟨made, ih (sorted_of_reduced (fun x y => y ≤ x) reduced sorted), fun t isMade t' later => ?_⟩
      have sound := cross_sound accept asks _ () t' later
      obtain ⟨b, inBids, toB⟩ := sound.bid
      rw [toB.price_eq]
      exact left t isMade b inBids (toB.positive (sound.positive.trans_le sound.amount_bid))

end Order

section Clears

variable (priced : M → Prop) [DecidablePred priced]

/-- The offers whose price is selected. -/
def atPrices (l : List α) : List α := l.filter (fun a => decide (priced (price a)))

/-- What a unit of an offer counts for when its price is selected. -/
def unitAt (a : α) : M →+ M := if priced (price a) then AddMonoidHom.id M else 0

omit [LinearOrder M] in
theorem unitAt_withAmount (a : α) (x : M) : unitAt priced (withAmount a x) = unitAt priced a := by
  simp [unitAt]

omit [IsOrderedAddMonoid M] in
/-- Offers of which a part is taken lose of their total what is taken from them. -/
theorem total_of_reduced {l l' : List α} (reduced : List.Forall₂ Reduced l l') :
    total (atPrices priced l) + (l'.map (weight (unitAt priced))).sum =
      total (atPrices priced l') + (l.map (weight (unitAt priced))).sum := by
  induction reduced with
  | nil => rfl
  | @cons a a' l l' head _ ih =>
    have price' : price a' = price a := head.price_eq
    simp only [atPrices, List.map_cons, List.sum_cons] at ih ⊢
    by_cases here : priced (price a)
    · have unit : weight (unitAt priced) a = amount a ∧ weight (unitAt priced) a' = amount a' := by
        simp [weight, unitAt, price', here]
      simp only [List.filter_cons, price', here, decide_true, if_true, unit]
      obtain ⟨x, rfl, unchanged, bounds⟩ := head
      rcases le_or_gt (amount a) 0 with empty | positive
      · rw [unchanged empty, withAmount_amount, total_cons_of_empty empty, total_cons_of_empty empty,
          add_left_comm, ih, add_left_comm]
      · have count : total (withAmount a x :: l'.filter (fun a => decide (priced (price a)))) =
            x + total (l'.filter (fun a => decide (priced (price a)))) := by
          rcases (bounds positive).1.eq_or_lt with rfl | some'
          · rw [total_cons_of_empty (by simp), zero_add]
          · rw [total_cons_of_pos (by simpa using some'), amount_withAmount]
        rw [total_cons_of_pos positive, count, amount_withAmount, add_add_add_comm, ih]
        abel
    · have unit : weight (unitAt priced) a = 0 ∧ weight (unitAt priced) a' = 0 := by
        simp [weight, unitAt, price', here]
      simp only [List.filter_cons, price', here, decide_false, Bool.false_eq_true, if_false, unit,
        zero_add]
      exact ih

omit [LinearOrder M] [IsOrderedAddMonoid M] in
private theorem sum_units (ts : List (Match α M)) (side : Match α M → α) :
    (ts.map (fun t => unitAt priced (side t) t.amount)).sum =
      volume (ts.filter (fun t => decide (priced (price (side t))))) := by
  induction ts with
  | nil => rfl
  | cons t ts ih =>
    rw [List.map_cons, List.sum_cons, ih]
    by_cases here : priced (price (side t)) <;> simp [unitAt, here, volume_cons]

theorem total_bids (asks bids : List α) :
    total (atPrices priced bids) = total (atPrices priced (planOutcome asks bids).bids) +
      volume ((plan asks bids).filter (fun t => decide (priced (price t.bid)))) := by
  have taken := cross_weight_bids (unitAt_withAmount priced) accept asks bids ()
  have left := total_of_reduced priced (cross_reduced accept asks bids ()).1
  dsimp only at taken
  rw [← taken, add_left_comm, add_comm] at left
  rw [add_left_cancel left, sum_units priced _ fun t => t.bid]
  rfl

theorem total_asks (asks bids : List α) :
    total (atPrices priced asks) = total (atPrices priced (planOutcome asks bids).asks) +
      volume ((plan asks bids).filter (fun t => decide (priced (price t.ask)))) := by
  have taken := cross_weight_asks (unitAt_withAmount priced) accept asks bids ()
  have left := total_of_reduced priced (cross_reduced accept asks bids ()).2
  dsimp only at taken
  rw [← taken, add_left_comm, add_comm] at left
  rw [add_left_cancel left, sum_units priced _ fun t => t.ask]
  rfl

/-- What the bids at a price or above it amount to. -/
def demand (bids : List α) (p : M) : M := total (atPrices (fun x => p ≤ x) bids)

/-- What the asks at a price or below it amount to. -/
def supply (asks : List α) (p : M) : M := total (atPrices (fun x => x ≤ p) asks)

variable {asks bids : List α}

omit [IsOrderedAddMonoid M] in
theorem exists_of_total_pos {l : List α} (positive : 0 < total (atPrices priced l)) :
    ∃ a ∈ l, priced (price a) ∧ 0 < amount a := by
  by_contra none'
  have empty : (atPrices priced l).filter (fun a => decide ((0 : M) < amount a)) = [] := by
    refine List.filter_eq_nil_iff.mpr fun a member some' => none' ⟨a, ?_⟩
    obtain ⟨inList, here⟩ := List.mem_filter.mp member
    exact ⟨inList, of_decide_eq_true here, of_decide_eq_true some'⟩
  simp [total, empty] at positive

theorem plan_positive {t : Match α M} (member : t ∈ plan asks bids) : 0 < t.amount :=
  (cross_sound accept asks bids () t member).positive

private theorem volume_filter_le (selected : Match α M → Bool) :
    volume ((plan asks bids).filter selected) ≤ volume (plan asks bids) := by
  have rest : volume (plan asks bids) = volume ((plan asks bids).filter selected) +
      volume ((plan asks bids).filter (fun t => !selected t)) := by
    rw [← volume_append]
    exact ((List.filter_append_perm selected _).map _).sum_eq.symm
  rw [rest]
  exact le_add_of_nonneg_right
    (volume_nonneg fun t member => plan_positive (List.mem_of_mem_filter member))

/-- At no price do both sides supply more than a crossing matches. -/
theorem min_demand_supply_le (asks bids : List α) (p : M) :
    min (demand bids p) (supply asks p) ≤ volume (plan asks bids) := by
  by_contra more
  obtain ⟨moreBids, moreAsks⟩ := lt_min_iff.mp (not_le.mp more)
  have leftBids : 0 < total (atPrices (fun x => p ≤ x) (planOutcome asks bids).bids) := by
    rw [demand, total_bids] at moreBids
    exact pos_of_lt_add_left (lt_of_le_of_lt (volume_filter_le _) moreBids)
  have leftAsks : 0 < total (atPrices (fun x => x ≤ p) (planOutcome asks bids).asks) := by
    rw [supply, total_asks] at moreAsks
    exact pos_of_lt_add_left (lt_of_le_of_lt (volume_filter_le _) moreAsks)
  obtain ⟨b, inBids, high, someBid⟩ := exists_of_total_pos _ leftBids
  obtain ⟨a, inAsks, low, someAsk⟩ := exists_of_total_pos _ leftAsks
  have apart := cross_uncrossed accept asks bids () (by
    cases (cross accept asks bids () : Outcome α M Unit Empty).error with
    | none => rfl
    | some e => exact e.elim) a inAsks b inBids someAsk someBid
  exact absurd (low.trans high) (not_le.mpr apart)

/-- Some price is below that of every offer with a positive amount. -/
theorem exists_below (l : List α) : ∃ p : M, ∀ a ∈ l, 0 < amount a → p < price a := by
  induction l with
  | nil => exact ⟨0, fun _ member => nomatch member⟩
  | cons a l ih =>
    obtain ⟨p, below⟩ := ih
    by_cases positive : 0 < amount a
    · refine ⟨min p (price a - amount a), List.forall_mem_cons.mpr ⟨fun _ => ?_, fun b member some' => ?_⟩⟩
      · exact (min_le_right _ _).trans_lt (sub_lt_self _ positive)
      · exact (min_le_left _ _).trans_lt (below b member some')
    · exact ⟨p, List.forall_mem_cons.mpr ⟨fun some' => absurd some' positive, below⟩⟩

section Sorted

variable (asksSorted : asks.Pairwise (fun a b => price a ≤ price b))
  (bidsSorted : bids.Pairwise (fun a b => price b ≤ price a))

include asksSorted bidsSorted

/-- At the price of the last ask matched, every match is between offers that are counted. -/
theorem plan_attained {ts : List (Match α M)} {last : Match α M} (isLast : plan asks bids = ts ++ [last]) :
    min (demand bids (price last.ask)) (supply asks (price last.ask)) = volume (plan asks bids) := by
  have asksUp := cross_made_sorted accept asksSorted bids ()
  have bidsDown := plan_bids_sorted asks bidsSorted
  change (plan asks bids).Pairwise _ at asksUp
  have inPlan : last ∈ plan asks bids := by simp [isLast]
  have crossed : price last.ask ≤ price last.bid := (cross_sound accept asks bids () last inPlan).crossed
  rw [isLast] at asksUp bidsDown
  have low : ∀ t ∈ plan asks bids, price t.ask ≤ price last.ask := by
    intro t member
    rw [isLast] at member
    rcases List.mem_append.mp member with earlier | same
    · exact (List.pairwise_append.mp asksUp).2.2 t earlier last (List.mem_singleton_self _)
    · rw [List.mem_singleton.mp same]
  have high : ∀ t ∈ plan asks bids, price last.ask ≤ price t.bid := by
    intro t member
    rw [isLast] at member
    rcases List.mem_append.mp member with earlier | same
    · exact crossed.trans
        ((List.pairwise_append.mp bidsDown).2.2 t earlier last (List.mem_singleton_self _))
    · rw [List.mem_singleton.mp same]
      exact crossed
  refine le_antisymm (min_demand_supply_le asks bids _) (le_min ?_ ?_)
  · have all := List.filter_eq_self.mpr fun t member => decide_eq_true (high t member)
    rw [demand, total_bids, all]
    exact le_add_of_nonneg_left (total_nonneg _)
  · have all := List.filter_eq_self.mpr fun t member => decide_eq_true (low t member)
    rw [supply, total_asks, all]
    exact le_add_of_nonneg_left (total_nonneg _)

/-- Asks from the lowest price and bids from the highest: a crossing matches as much as both sides
supply at the best price. -/
theorem plan_clears :
    IsGreatest (Set.range fun p => min (demand bids p) (supply asks p)) (volume (plan asks bids)) := by
  refine ⟨?_, ?_⟩
  · rcases List.eq_nil_or_concat' (plan asks bids) with none' | ⟨ts, last, isLast⟩
    · -- nothing is matched: below every ask there is no supply
      obtain ⟨p, below⟩ := exists_below asks
      have noSupply : supply asks p = 0 := by
        refine le_antisymm (not_lt.mp fun some' => ?_) (total_nonneg _)
        obtain ⟨a, inAsks, low, positive⟩ := exists_of_total_pos _ some'
        exact absurd low (not_le.mpr (below a inAsks positive))
      refine ⟨p, ?_⟩
      dsimp only
      rw [none', volume_nil, noSupply]
      exact min_eq_right (total_nonneg _)
    · exact ⟨price last.ask, plan_attained asksSorted bidsSorted isLast⟩
  · rintro _ ⟨p, rfl⟩
    exact min_demand_supply_le asks bids p

end Sorted

end Clears

section Count

/-- How many offers have a positive amount. -/
def openCount (l : List α) : Nat := l.countP (fun a => decide ((0 : M) < amount a))

omit [IsOrderedAddMonoid M] in
theorem openCount_cons_of_pos {a : α} (positive : (0 : M) < amount a) (l : List α) :
    openCount (a :: l) = openCount l + 1 := by
  simp [openCount, positive]

omit [IsOrderedAddMonoid M] in
theorem openCount_cons_of_empty {a : α} (empty : amount a ≤ (0 : M)) (l : List α) :
    openCount (a :: l) = openCount l := by
  simp [openCount, not_lt.mpr empty]

omit [IsOrderedAddMonoid M] in
theorem openCount_cons_le (a : α) (l : List α) :
    openCount l ≤ openCount (a :: l) ∧ openCount (a :: l) ≤ openCount l + 1 := by
  rcases le_or_gt (amount a) (0 : M) with empty | positive
  · rw [openCount_cons_of_empty empty]
    omega
  · rw [openCount_cons_of_pos positive]
    omega

omit [IsOrderedAddMonoid M] in
/-- Every match of an ask uses up a bid, but for the last one, which may use up the ask. -/
theorem fillAsk_count (ask : α) (bids : List α) :
    let r : Outcome α M Unit Empty := fillAsk accept ask bids ()
    r.made.length ≤ openCount bids ∧ r.made.length + openCount r.bids ≤ openCount bids + 1 := by
  induction bids generalizing ask with
  | nil => simp [fillAsk]
  | cons bid bids ih =>
    by_cases eligible : Eligible ask bid
    · by_cases clears : amount ask ≤ amount bid
      · have left := (openCount_cons_le (remaining bid (meet bid ask).amount) bids).2
        simp only [fillAsk, eligible, accept, clears, if_true, openCount_cons_of_pos eligible.1,
          List.length_singleton]
        omega
      · have spent : amount (remaining bid (meet bid ask).amount) ≤ 0 := by
          simp [remaining, meet, (not_le.mp clears).le]
        have rest := ih (remaining ask (meet bid ask).amount)
        simp only [fillAsk, eligible, accept, clears, if_true, if_false, List.length_cons,
          openCount_cons_of_empty spent, openCount_cons_of_pos eligible.1]
        omega
    · have rest := ih ask
      simp only [fillAsk, eligible, if_false]
      rcases le_or_gt (amount bid) 0 with empty | positive
      · rw [openCount_cons_of_empty empty, openCount_cons_of_empty empty]
        exact rest
      · rw [openCount_cons_of_pos positive, openCount_cons_of_pos positive]
        omega

omit [IsOrderedAddMonoid M] in
/-- A crossing makes fewer matches than there are offers. -/
theorem plan_length_lt {asks bids : List α} (some' : plan asks bids ≠ []) :
    (plan asks bids).length < openCount bids + openCount asks := by
  unfold plan planOutcome at some' ⊢
  induction asks generalizing bids with
  | nil => exact absurd rfl some'
  | cons ask asks ih =>
    by_cases empty : amount ask ≤ 0
    · simp only [cross, empty, if_true] at some' ⊢
      rw [openCount_cons_of_empty empty]
      exact ih some'
    · obtain ⟨most, left⟩ := fillAsk_count ask bids
      simp only [cross, empty, if_false, fillAsk_accept_error, List.length_append,
        openCount_cons_of_pos (not_le.mp empty)] at some' ⊢
      generalize (fillAsk accept ask bids () : Outcome α M Unit Empty) = r at most left some' ⊢
      by_cases later : (cross accept asks r.bids () : Outcome α M Unit Empty).made = []
      · have none' : (cross accept asks r.bids r.state : Outcome α M Unit Empty).made.length = 0 :=
          congrArg List.length later
        omega
      · have rest : (cross accept asks r.bids r.state : Outcome α M Unit Empty).made.length < _ := ih later
        omega

end Count

end Crossing
