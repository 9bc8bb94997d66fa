import MiniATS.Proofs.PassUncrosses

/-!
# The meetings of a pass

As long as every sale is settled, the amounts that the loops of a pass work with depend on the
orders only. `meetAsks` goes through the orders as the loops do and changes nothing but amounts; a
pass settles its meetings in turn until one of them throws (`askLoop_meetings`). This holds
whatever the numbers are.
-/

namespace MiniATS

/-- A bid that is not used up and an ask priced at or below it, as they stand when the loops come to
them, and what they trade: `none` when the amounts do not compare, as with NaN. -/
structure Meeting (R : Type) where
  bid : EntryPtr R
  ask : EntryPtr R
  amount : Option R

/-- What a meeting makes of its two orders, what they trade, and whether the ask is used up. -/
structure Deal (R : Type) where
  ask : EntryPtr R
  bid : EntryPtr R
  amount : Option R
  usesUp : Bool

/-- The meetings of one ask, and the orders after them. -/
structure AskMeetings (R : Type) where
  met : List (Meeting R)
  ask : EntryPtr R
  bids : List (EntryPtr R)

/-- The meetings of all asks, and the orders after them. -/
structure Meetings (R : Type) where
  met : List (Meeting R)
  asks : List (EntryPtr R)
  bids : List (EntryPtr R)

namespace OrderBook

variable {R : Type} [Zero R] [LE R]

/-- The inner loop begins a sale for the two orders. -/
def Meets (ask bid : EntryPtr R) : Prop :=
  ¬ bid.entry.amount ≤ 0 ∧ ask.entry.price ≤ bid.entry.price

variable [Sub R] [LT R] [DecidableLT R] [DecidableLE R] [BEq R]

instance (ask bid : EntryPtr R) : Decidable (Meets ask bid) := inferInstanceAs (Decidable (_ ∧ _))

/-- The smaller amount is taken from both orders. -/
def deal (ask bid : EntryPtr R) : Deal R :=
  if bid.entry.amount == ask.entry.amount then
    ⟨ask.withAmount 0, bid.withAmount 0, some ask.entry.amount, true⟩
  else if ask.entry.amount < bid.entry.amount then
    ⟨ask.withAmount 0, bid.withAmount (bid.entry.amount - ask.entry.amount), some ask.entry.amount, true⟩
  else if bid.entry.amount < ask.entry.amount then
    ⟨ask.withAmount (ask.entry.amount - bid.entry.amount), bid.withAmount 0, some bid.entry.amount, false⟩
  else ⟨ask, bid, none, false⟩

/-- An ask meets the bids in turn until it is used up. -/
def meetBids : EntryPtr R → List (EntryPtr R) → AskMeetings R
  | ask, [] => ⟨[], ask, []⟩
  | ask, bid :: bids =>
    if Meets ask bid then
      let d := deal ask bid
      if d.usesUp then ⟨[⟨bid, ask, d.amount⟩], d.ask, d.bid :: bids⟩
      else
        let r := meetBids d.ask bids
        { r with met := ⟨bid, ask, d.amount⟩ :: r.met, bids := d.bid :: r.bids }
    else
      let r := meetBids ask bids
      { r with bids := bid :: r.bids }

/-- The asks meet the bids in turn. -/
def meetAsks : List (EntryPtr R) → List (EntryPtr R) → Meetings R
  | [], bids => ⟨[], [], bids⟩
  | ask :: asks, bids =>
    if ask.entry.amount ≤ 0 then
      let r := meetAsks asks bids
      { r with asks := ask :: r.asks }
    else
      let m := meetBids ask bids
      let r := meetAsks asks m.bids
      ⟨m.met ++ r.met, m.ask :: r.asks, r.bids⟩

/-- The meetings of a pass over a list, in the order of `std::sort`. -/
def passMeetings (std : StdSort (EntryPtr R)) (l : List (OrderBookEntry R)) : Meetings R :=
  meetAsks (sortedAsks std l) (sortedBids std l)

section Idle

variable {ask bid : EntryPtr R} {bids : List (EntryPtr R)}

omit [LE R] [DecidableLE R] in
/-- Amounts that do not compare are not traded. -/
theorem deal_of_unordered (unordered : Unordered ask.entry.amount ∨ Unordered bid.entry.amount) :
    deal ask bid = ⟨ask, bid, none, false⟩ := by
  unfold deal
  rcases unordered with never | never
  · obtain ⟨less, more, -, same⟩ := never bid.entry.amount
    simp only [same, less, more, if_false, Bool.false_eq_true]
  · obtain ⟨more, less, same, -⟩ := never ask.entry.amount
    simp only [same, less, more, if_false, Bool.false_eq_true]

/-- An ask that trades with no bid leaves the bids as they are. -/
theorem meetBids_of_idle (idle : ∀ bid ∈ bids, Meets ask bid → deal ask bid = ⟨ask, bid, none, false⟩) :
    (meetBids ask bids).ask = ask ∧ (meetBids ask bids).bids = bids := by
  induction bids with
  | nil => exact ⟨rfl, rfl⟩
  | cons bid bids ih =>
    obtain ⟨isAsk, isBids⟩ := ih fun bid' member => idle bid' (List.mem_cons_of_mem _ member)
    unfold meetBids
    split
    · simp only [idle bid (List.mem_cons_self ..) ‹_›, Bool.false_eq_true, if_false, isAsk, isBids]
      exact ⟨trivial, trivial⟩
    · simp only [isAsk, isBids]
      exact ⟨trivial, trivial⟩

end Idle

section Settling

variable [Add R] [Mul R] (product currentTimestamp : Str)

/-- What a pass does at a meeting: look up the users, then settle what is traded. -/
def settleMeeting (st : PassState R) (t : Meeting R) : PassState R × Except Exn Unit :=
  let begun := beginSale st product currentTimestamp t.bid t.ask
  match begun.2, t.amount with
  | .error e, _ => (begun.1, .error e)
  | .ok _, none => (begun.1, .ok ())
  | .ok sale, some amount => settle begun.1 (sale.withAmount amount) t.bid t.ask

/-- Meetings settled in turn until one throws. -/
def settleMeetings : PassState R → List (Meeting R) → PassState R × Except Exn Unit
  | st, [] => (st, .ok ())
  | st, t :: ts =>
    match settleMeeting product currentTimestamp st t with
    | (st', .error e) => (st', .error e)
    | (st', .ok ()) => settleMeetings st' ts

omit [BEq R] in
theorem settleMeetings_append (st : PassState R) (first second : List (Meeting R)) :
    settleMeetings product currentTimestamp st (first ++ second) =
      match settleMeetings product currentTimestamp st first with
      | (st', .error e) => (st', .error e)
      | (st', .ok ()) => settleMeetings product currentTimestamp st' second := by
  induction first generalizing st with
  | nil => rfl
  | cons t ts ih =>
    rcases step : settleMeeting product currentTimestamp st t with ⟨st', e | ⟨⟩⟩
    · simp only [List.cons_append, settleMeetings, step]
    · simp only [List.cons_append, settleMeetings, step]
      exact ih st'

/-- A round of two orders that meet settles the meeting. -/
theorem bidRound_of_meets {ask bid : EntryPtr R} (meets : Meets ask bid) (st : PassState R) :
    match settleMeeting product currentTimestamp st ⟨bid, ask, (deal ask bid).amount⟩ with
    | (st', .error e) => ∃ ask' bid', bidRound product currentTimestamp ask bid st =
      ⟨ask', bid', st', .thrown e⟩
    | (st', .ok ()) => bidRound product currentTimestamp ask bid st =
      ⟨(deal ask bid).ask, (deal ask bid).bid, st', if (deal ask bid).usesUp then .leave else .next⟩ := by
  have settled : ∀ (ask' bid' : EntryPtr R) (s : PassState R × Except Exn Unit) (how : RoundEnd),
      match s with
      | (st', .error e) => ∃ ask'' bid'', Round.settled ask' bid' s how = ⟨ask'', bid'', st', .thrown e⟩
      | (st', .ok ()) => Round.settled ask' bid' s how = ⟨ask', bid', st', how⟩ := by
    rintro ask' bid' ⟨st', e | ⟨⟩⟩ how
    · exact ⟨ask', bid', rfl⟩
    · rfl
  simp only [bidRound, if_neg meets.1, if_pos meets.2, settleMeeting]
  cases begun : (beginSale st product currentTimestamp bid ask).2 with
  | error e => exact ⟨ask, bid, rfl⟩
  | ok sale =>
    unfold deal
    by_cases same : (bid.entry.amount == ask.entry.amount) = true
    · simp only [same, if_true]
      exact settled _ _ _ _
    by_cases less : ask.entry.amount < bid.entry.amount
    · simp only [same, less, if_true, if_false, Bool.false_eq_true]
      exact settled _ _ _ _
    by_cases more : bid.entry.amount < ask.entry.amount
    · simp only [same, less, more, if_true, if_false, Bool.false_eq_true]
      exact settled _ _ _ _
    · simp only [same, less, more, if_false, Bool.false_eq_true]

theorem bidRound_of_not_meets {ask bid : EntryPtr R} (apart : ¬ Meets ask bid) (st : PassState R) :
    bidRound product currentTimestamp ask bid st = ⟨ask, bid, st, .next⟩ := by
  unfold bidRound
  split
  · rfl
  · exact if_neg fun prices => apart ⟨‹_›, prices⟩

/-- The inner loop settles the meetings of its ask. -/
theorem bidLoop_meetings (ask : EntryPtr R) (bids : List (EntryPtr R)) (st : PassState R) :
    let m := meetBids ask bids
    let r := bidLoop product currentTimestamp ask bids st
    (r.st, r.result) = settleMeetings product currentTimestamp st m.met ∧
      (r.result = .ok () → r.asks = [m.ask] ∧ r.bids = m.bids) := by
  induction bids generalizing ask st with
  | nil => exact ⟨rfl, fun _ => ⟨rfl, rfl⟩⟩
  | cons bid bids ih =>
    unfold meetBids bidLoop
    by_cases meets : Meets ask bid
    swap
    · obtain ⟨run, left⟩ := ih ask st
      simp only [bidRound_of_not_meets product currentTimestamp meets, if_neg meets]
      exact ⟨run, fun returned => ⟨(left returned).1, congrArg _ (left returned).2⟩⟩
    have round := bidRound_of_meets product currentTimestamp meets st
    simp only [if_pos meets]
    rcases step : settleMeeting product currentTimestamp st ⟨bid, ask, (deal ask bid).amount⟩ with
      ⟨st', e | ⟨⟩⟩
    · rw [step] at round
      obtain ⟨ask', bid', thrown⟩ := round
      rw [thrown]
      by_cases last : (deal ask bid).usesUp = true
      · simp only [if_pos last, settleMeetings, step]
        exact ⟨trivial, nofun⟩
      · simp only [if_neg last, settleMeetings, step]
        exact ⟨trivial, nofun⟩
    · rw [step] at round
      dsimp only at round
      rw [round]
      by_cases last : (deal ask bid).usesUp = true
      · simp only [if_pos last, settleMeetings, step]
        exact ⟨trivial, fun _ => ⟨trivial, trivial⟩⟩
      · obtain ⟨run, left⟩ := ih (deal ask bid).ask st'
        simp only [if_neg last, settleMeetings, step]
        exact ⟨run, fun returned => ⟨(left returned).1, congrArg _ (left returned).2⟩⟩

/-- The loops settle the meetings in turn; when none throws, the orders are left as the meetings leave
them. -/
theorem askLoop_meetings (asks bids : List (EntryPtr R)) (st : PassState R) :
    let m := meetAsks asks bids
    let r := askLoop product currentTimestamp asks bids st
    (r.st, r.result) = settleMeetings product currentTimestamp st m.met ∧
      (r.result = .ok () → r.asks = m.asks ∧ r.bids = m.bids) := by
  induction asks generalizing bids st with
  | nil => exact ⟨rfl, fun _ => ⟨rfl, rfl⟩⟩
  | cons ask asks ih =>
    unfold meetAsks askLoop
    by_cases empty : ask.entry.amount ≤ 0
    · obtain ⟨run, left⟩ := ih bids st
      simp only [if_pos empty]
      exact ⟨run, fun returned => ⟨congrArg _ (left returned).1, (left returned).2⟩⟩
    obtain ⟨run, left⟩ := bidLoop_meetings product currentTimestamp ask bids st
    simp only [if_neg empty, settleMeetings_append, ← run]
    rcases inner : bidLoop product currentTimestamp ask bids st with ⟨asks', bids', st', e | ⟨⟩⟩
    · exact ⟨rfl, nofun⟩
    · rw [inner] at left
      obtain ⟨rfl, rfl⟩ := left rfl
      obtain ⟨run', left'⟩ := ih (meetBids ask bids).bids st'
      exact ⟨run', fun returned => ⟨congrArg _ (left' returned).1, (left' returned).2⟩⟩

end Settling

end OrderBook

end MiniATS
