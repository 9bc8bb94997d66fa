import MiniATS.Misc.Crossing
import MiniATS.Proofs.PassLists
import Mathlib.Algebra.Order.Ring.Rat

/-!
# A pass is a crossing

With exact rationals the loops of `matchAsksToBids` are `Crossing.cross` on the pointers of
the product, and a match is settled by `settleMatch`: the lookup of the two users may refuse
it, `processSale` may fail it.
-/

namespace MiniATS

open Crossing

instance : Offer (EntryPtr ℚ) ℚ where
  price p := p.entry.price
  amount p := p.entry.amount
  withAmount := EntryPtr.withAmount
  price_withAmount _ _ := rfl
  amount_withAmount _ _ := rfl
  withAmount_withAmount _ _ _ := rfl
  withAmount_amount _ := rfl

namespace OrderBook

@[simp] theorem offer_price (p : EntryPtr ℚ) : Offer.price p = p.entry.price := rfl

@[simp] theorem offer_amount (p : EntryPtr ℚ) : Offer.amount p = p.entry.amount := rfl

@[simp] theorem offer_withAmount (p : EntryPtr ℚ) (x : ℚ) :
    Offer.withAmount p x = p.withAmount x := rfl

@[simp] theorem withAmount_entry (p : EntryPtr ℚ) (x : ℚ) :
    (p.withAmount x).entry = p.entry.withAmount x := rfl

/-- How `processSale` ended. -/
def verdictOf : Except Exn Unit → Verdict Exn
  | .error e => .failed e
  | .ok () => .done

/-- What a pass does with a match: look up the users, then `processSale`. -/
def settleMatch (product currentTimestamp : Str) (st : PassState ℚ)
    (t : Match (EntryPtr ℚ) ℚ) : PassState ℚ × Verdict Exn :=
  let begun := beginSale st product currentTimestamp t.bid t.ask
  match begun.2 with
  | .error e => (begun.1, .refused e)
  | .ok sale =>
    let r := settle begun.1 (sale.withAmount t.amount) t.bid t.ask
    (r.1, verdictOf r.2)

/-- The round of an eligible bid, by what became of the match. -/
def roundOf (ask bid : EntryPtr ℚ) (r : PassState ℚ × Verdict Exn) : Round ℚ :=
  let rest := fun how : RoundEnd =>
    (⟨remaining ask (meet bid ask).amount, remaining bid (meet bid ask).amount, r.1, how⟩ : Round ℚ)
  match r.2 with
  | .refused e => ⟨ask, bid, r.1, .thrown e⟩
  | .failed e => rest (.thrown e)
  | .done => rest (if ask.entry.amount ≤ bid.entry.amount then .leave else .next)

/-- The end of a crossing as the end of a loop. -/
def ofOutcome (r : Outcome (EntryPtr ℚ) ℚ (PassState ℚ) Exn) : LoopEnd ℚ :=
  ⟨r.asks, r.bids, r.state, match r.error with
    | none => .ok ()
    | some e => .error e⟩

variable (product currentTimestamp : Str)

private theorem settled_eq {ask bid : EntryPtr ℚ} {how : RoundEnd}
    (ends : how = if ask.entry.amount ≤ bid.entry.amount then .leave else .next)
    (r : PassState ℚ × Except Exn Unit) :
    Round.settled (remaining ask (meet bid ask).amount) (remaining bid (meet bid ask).amount) r how =
      roundOf ask bid (r.1, verdictOf r.2) := by
  subst ends
  rcases r with ⟨st, e | ⟨⟩⟩ <;> rfl

/-- A round with an eligible bid settles the match. -/
theorem bidRound_of_eligible {ask bid : EntryPtr ℚ} (eligible : Eligible ask bid)
    (st : PassState ℚ) : bidRound product currentTimestamp ask bid st =
      roundOf ask bid (settleMatch product currentTimestamp st (meet bid ask)) := by
  have some' : ¬ bid.entry.amount ≤ 0 := not_le.mpr eligible.1
  have crossed : ask.entry.price ≤ bid.entry.price := eligible.2
  have bid_eq : (meet bid ask).bid = bid := rfl
  have ask_eq : (meet bid ask).ask = ask := rfl
  simp only [bidRound, some', crossed, if_true, if_false, settleMatch, bid_eq, ask_eq]
  cases begun : (beginSale st product currentTimestamp bid ask).2 with
  | error e => simp only [roundOf]
  | ok sale =>
    simp only
    rw [← settled_eq rfl]
    rcases lt_trichotomy bid.entry.amount ask.entry.amount with less | same | more
    · have amount : (meet bid ask).amount = bid.entry.amount := min_eq_left less.le
      simp only [beq_iff_eq, less.ne, not_lt_of_gt less, less, not_le_of_gt less, if_false, if_true,
        amount, remaining, offer_amount, offer_withAmount, sub_self]
    · have amount : (meet bid ask).amount = ask.entry.amount := by simp [meet, same]
      simp only [same, beq_self_eq_true, le_refl, if_true, amount, remaining, offer_amount,
        offer_withAmount, sub_self]
    · have amount : (meet bid ask).amount = ask.entry.amount := min_eq_right more.le
      simp only [beq_iff_eq, more.ne', more, more.le, if_false, if_true, amount, remaining,
        offer_amount, offer_withAmount, sub_self]

theorem bidRound_of_not_eligible {ask bid : EntryPtr ℚ} (ineligible : ¬ Eligible ask bid)
    (st : PassState ℚ) : bidRound product currentTimestamp ask bid st = ⟨ask, bid, st, .next⟩ := by
  unfold bidRound
  split
  · rfl
  · have uncrossed : ¬ ask.entry.price ≤ bid.entry.price :=
      fun crossed => ineligible ⟨not_le.mp ‹_›, crossed⟩
    rw [if_neg uncrossed]

theorem bidLoop_eq_fillAsk (ask : EntryPtr ℚ) (bids : List (EntryPtr ℚ)) (st : PassState ℚ) :
    bidLoop product currentTimestamp ask bids st =
      ofOutcome (fillAsk (settleMatch product currentTimestamp) ask bids st) := by
  induction bids generalizing ask st with
  | nil => rfl
  | cons bid bids ih =>
    by_cases eligible : Eligible ask bid
    · simp only [bidLoop, bidRound_of_eligible product currentTimestamp eligible, fillAsk,
        if_pos eligible, offer_amount]
      rcases settleMatch product currentTimestamp st (meet bid ask) with ⟨st', _ | e | e⟩
      · by_cases clears : ask.entry.amount ≤ bid.entry.amount
        · simp only [roundOf, clears, if_true, ofOutcome]
        · simp only [roundOf, clears, if_false, ih, ofOutcome]
      · simp only [roundOf, ofOutcome]
      · simp only [roundOf, ofOutcome]
    · simp only [bidLoop, bidRound_of_not_eligible product currentTimestamp eligible, fillAsk,
        if_neg eligible, ih, ofOutcome]

theorem askLoop_eq_cross (asks bids : List (EntryPtr ℚ)) (st : PassState ℚ) :
    askLoop product currentTimestamp asks bids st =
      ofOutcome (cross (settleMatch product currentTimestamp) asks bids st) := by
  induction asks generalizing bids st with
  | nil => rfl
  | cons ask asks ih =>
    unfold askLoop cross
    by_cases empty : ask.entry.amount ≤ 0
    · rw [if_pos empty, if_pos (show Offer.amount ask ≤ 0 from empty), ih]
      rfl
    · rw [if_neg empty, if_neg (show ¬ Offer.amount ask ≤ 0 from empty), bidLoop_eq_fillAsk]
      cases failed : (fillAsk (settleMatch product currentTimestamp) ask bids st).error with
      | some e => simp [ofOutcome, failed]
      | none =>
        simp only [ofOutcome, failed]
        rw [ih]
        rfl

section Sorted

variable (std : StdSort (EntryPtr ℚ)) (l : List (OrderBookEntry ℚ))

/-- The pass goes through the asks from the lowest price. -/
theorem sortedAsks_pairwise :
    (sortedAsks std l).Pairwise (fun a b => Offer.price a ≤ Offer.price b) := by
  apply (std.sort_pairwise (isStrictWeak_key fun p : EntryPtr ℚ => p.entry.price) _).imp
  intro a b order
  exact not_lt.mp (of_decide_eq_false order)

/-- It goes through the bids from the highest price. -/
theorem sortedBids_pairwise :
    (sortedBids std l).Pairwise (fun a b => Offer.price b ≤ Offer.price a) := by
  refine (std.sort_pairwise ?_ _).imp ?_
  · exact isStrictWeak_key (β := ℚᵒᵈ) fun p : EntryPtr ℚ => OrderDual.toDual p.entry.price
  · intro a b order
    exact not_lt.mp (of_decide_eq_false order)

/-- The matches of a pass when every one of them settles. -/
def passPlan : List (Match (EntryPtr ℚ) ℚ) := plan (sortedAsks std l) (sortedBids std l)

theorem passPlan_sorted :
    (passPlan std l).Pairwise (fun t t' => t.ask.entry.price ≤ t'.ask.entry.price) :=
  cross_made_sorted _ (sortedAsks_pairwise std l) _ ()

/-- The ask that a pass fills first: of those with a positive amount, the first in the order of
`std::sort`. -/
def bestAsk : Option (EntryPtr ℚ) := (sortedAsks std l).find? (fun p => decide (0 < p.entry.amount))

/-- The bid that a pass takes first. -/
def bestBid : Option (EntryPtr ℚ) := (sortedBids std l).find? (fun p => decide (0 < p.entry.amount))

theorem passPlan_head :
    (passPlan std l).head? = (bestAsk std l).bind fun ask => firstMatch ask (bestBid std l) :=
  plan_head (sortedAsks_pairwise std l) (sortedBids_pairwise std l)

variable {std l}

theorem best_of_first {t : Match (EntryPtr ℚ) ℚ} {ts : List (Match (EntryPtr ℚ) ℚ)}
    (first : passPlan std l = t :: ts) : bestAsk std l = some t.ask ∧ bestBid std l = some t.bid := by
  have head := passPlan_head std l
  rw [first, List.head?_cons] at head
  cases ask : bestAsk std l with
  | none => simp [ask] at head
  | some a =>
    cases bid : bestBid std l with
    | none => simp [ask, bid, firstMatch] at head
    | some b =>
      simp only [ask, bid, firstMatch, Option.bind_some] at head
      split at head
      · obtain rfl := Option.some.inj head
        exact ⟨rfl, rfl⟩
      · cases head

theorem first_of_best {a b : EntryPtr ℚ} (ask : bestAsk std l = some a) (bid : bestBid std l = some b)
    (crossed : a.entry.price ≤ b.entry.price) : ∃ ts, passPlan std l = meet b a :: ts := by
  have head := passPlan_head std l
  rw [ask, bid, Option.bind_some, firstMatch, offer_price, offer_price, if_pos crossed] at head
  exact List.head?_eq_some_iff.mp head

end Sorted

end OrderBook

end MiniATS
