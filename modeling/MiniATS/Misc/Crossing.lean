import Mathlib.Algebra.Order.Group.Defs
import Mathlib.Algebra.Order.Group.MinMax
import Mathlib.Algebra.BigOperators.Group.List.Basic
import Mathlib.Algebra.Group.Hom.Defs
import Mathlib.Order.MinMax
import Mathlib.Tactic.Abel
import MiniATS.Misc.ListFacts

/-!
# Crossing two lists of offers

The loop of a double auction: every ask, in the order given, is filled from the bids, in
the order given, as long as a bid with a positive amount is priced at or above it. A match
takes the smaller of the two amounts from both sides and is then handed to a settlement
step on a state of its own, which may refuse it (the amounts stay as they were) or fail
after the fact (the amounts have changed); either ends the crossing.

The list of matches does not depend on the settlement as long as it succeeds: `plan` is the
crossing with a settlement that always does, and every crossing is `settleAll` over its
plan (`cross_settleAll`).
-/

universe u v w

/-- A thing with a price and an amount of which a part can be taken. -/
class Offer (α : Type u) (M : outParam (Type v)) where
  price : α → M
  amount : α → M
  withAmount : α → M → α
  price_withAmount : ∀ a x, price (withAmount a x) = price a
  amount_withAmount : ∀ a x, amount (withAmount a x) = x
  withAmount_withAmount : ∀ a x y, withAmount (withAmount a x) y = withAmount a y
  withAmount_amount : ∀ a, withAmount a (amount a) = a

namespace Crossing

open Offer

attribute [simp] Offer.price_withAmount Offer.amount_withAmount Offer.withAmount_withAmount
  Offer.withAmount_amount

/-- A bid and an ask, as they stand before the match, and the amount that changes hands. -/
structure Match (α : Type u) (M : Type v) where
  bid : α
  ask : α
  amount : M

/-- What became of a match. -/
inductive Verdict (ε : Type w)
  | done
  | refused (error : ε)
  | failed (error : ε)

/-- The offers, the state and the matches made when a crossing ends, and what ended it. -/
structure Outcome (α : Type u) (M : Type v) (σ ε : Type w) where
  asks : List α
  bids : List α
  state : σ
  made : List (Match α M)
  error : Option ε

variable {α : Type u} {M : Type v} {σ ε : Type w}

/-- Settle matches in turn until one is not: the state, the matches made and the error. -/
def settleAll (settle : σ → Match α M → σ × Verdict ε) :
    σ → List (Match α M) → σ × List (Match α M) × Option ε
  | s, [] => (s, [], none)
  | s, t :: ts =>
    match settle s t with
    | (s', .refused e) => (s', [], some e)
    | (s', .failed e) => (s', [t], some e)
    | (s', .done) =>
      let r := settleAll settle s' ts
      (r.1, t :: r.2.1, r.2.2)

section SettleAll

variable {settle : σ → Match α M → σ × Verdict ε}

theorem settleAll_append (s : σ) (first second : List (Match α M)) :
    settleAll settle s (first ++ second) =
      match (settleAll settle s first).2.2 with
      | some e => ((settleAll settle s first).1, (settleAll settle s first).2.1, some e)
      | none =>
        let r := settleAll settle (settleAll settle s first).1 second
        (r.1, (settleAll settle s first).2.1 ++ r.2.1, r.2.2) := by
  induction first generalizing s with
  | nil => rfl
  | cons t ts ih =>
    rcases step : settle s t with ⟨s', _ | e | e⟩
    · simp only [List.cons_append, settleAll, step, ih]
      cases (settleAll settle s' ts).2.2 <;> rfl
    · simp [settleAll, step]
    · simp [settleAll, step]

/-- The matches that are made are the first ones of the list. -/
theorem settleAll_made_prefix (settle : σ → Match α M → σ × Verdict ε) (s : σ) (ts : List (Match α M)) :
    (settleAll settle s ts).2.1 <+: ts := by
  induction ts generalizing s with
  | nil => exact List.prefix_rfl
  | cons t ts ih =>
    rcases step : settle s t with ⟨s', _ | e | e⟩
    · simpa [settleAll, step] using ih s'
    · simp [settleAll, step]
    · simp [settleAll, step]

/-- Without an error all of them are made. -/
theorem settleAll_made {s : σ} {ts : List (Match α M)}
    (succeeded : (settleAll settle s ts).2.2 = none) : (settleAll settle s ts).2.1 = ts := by
  induction ts generalizing s with
  | nil => rfl
  | cons t ts ih =>
    rcases step : settle s t with ⟨s', _ | e | e⟩
    · simp only [settleAll, step] at succeeded ⊢
      rw [ih succeeded]
    · simp [settleAll, step] at succeeded
    · simp [settleAll, step] at succeeded

end SettleAll

variable [LinearOrder M] [AddCommGroup M] [Offer α M]

/-- The part of an offer that is left after `f` is taken. -/
def remaining (a : α) (f : M) : α := withAmount a (amount a - f)

/-- The match of a bid and an ask: the smaller amount. -/
def meet (bid ask : α) : Match α M := ⟨bid, ask, min (amount bid) (amount ask)⟩

/-- A bid that the ask trades with. -/
def Eligible (ask bid : α) : Prop := 0 < amount bid ∧ price ask ≤ price bid

instance (ask bid : α) : Decidable (Eligible ask bid) :=
  inferInstanceAs (Decidable (_ ∧ _))

/-- Fill one ask from the bids. -/
def fillAsk (settle : σ → Match α M → σ × Verdict ε) : α → List α → σ → Outcome α M σ ε
  | ask, [], s => ⟨[ask], [], s, [], none⟩
  | ask, bid :: bids, s =>
    if Eligible ask bid then
      let t := meet bid ask
      match settle s t with
      | (s', .refused e) => ⟨[ask], bid :: bids, s', [], some e⟩
      | (s', .failed e) =>
        ⟨[remaining ask t.amount], remaining bid t.amount :: bids, s', [t], some e⟩
      | (s', .done) =>
        if amount ask ≤ amount bid then
          ⟨[remaining ask t.amount], remaining bid t.amount :: bids, s', [t], none⟩
        else
          let r := fillAsk settle (remaining ask t.amount) bids s'
          { r with bids := remaining bid t.amount :: r.bids, made := t :: r.made }
    else
      let r := fillAsk settle ask bids s
      { r with bids := bid :: r.bids }

/-- Fill the asks one after the other. -/
def cross (settle : σ → Match α M → σ × Verdict ε) : List α → List α → σ → Outcome α M σ ε
  | [], bids, s => ⟨[], bids, s, [], none⟩
  | ask :: asks, bids, s =>
    if amount ask ≤ 0 then
      let r := cross settle asks bids s
      { r with asks := ask :: r.asks }
    else
      let r := fillAsk settle ask bids s
      match r.error with
      | some e => { r with asks := r.asks ++ asks, error := some e }
      | none =>
        let q := cross settle asks r.bids r.state
        { q with asks := r.asks ++ q.asks, made := r.made ++ q.made }

/-- The settlement that always succeeds. -/
def accept (_ : Unit) (_ : Match α M) : Unit × Verdict Empty := ((), .done)

/-- The crossing on offers alone. -/
def planOutcome (asks bids : List α) : Outcome α M Unit Empty := cross accept asks bids ()

/-- The matches of a crossing whose settlement always succeeds. -/
def plan (asks bids : List α) : List (Match α M) := (planOutcome asks bids).made

section Settlement

variable (settle : σ → Match α M → σ × Verdict ε)

theorem fillAsk_accept_error (ask : α) (bids : List α) (s : Unit) :
    (fillAsk accept ask bids s : Outcome α M Unit Empty).error = none := by
  cases (fillAsk accept ask bids s : Outcome α M Unit Empty).error with
  | none => rfl
  | some e => exact e.elim

/-- Filling one ask is settling its plan in turn; when nothing fails, the offers are left
as the plan leaves them. -/
theorem fillAsk_settleAll (ask : α) (bids : List α) (s : σ) :
    let r := fillAsk settle ask bids s
    let p : Outcome α M Unit Empty := fillAsk accept ask bids ()
    (r.state, r.made, r.error) = settleAll settle s p.made ∧
      (r.error = none → r.asks = p.asks ∧ r.bids = p.bids) := by
  induction bids generalizing ask s with
  | nil => exact ⟨rfl, fun _ => ⟨rfl, rfl⟩⟩
  | cons bid bids ih =>
    by_cases eligible : Eligible ask bid
    · rcases step : settle s (meet bid ask) with ⟨s', _ | e | e⟩
      · by_cases clears : amount ask ≤ amount bid
        · simp [fillAsk, eligible, accept, settleAll, step, clears]
        · have rest := ih (remaining ask (meet bid ask).amount) s'
          simp only [fillAsk, eligible, accept, settleAll, step, clears, if_true, if_false]
          refine ⟨?_, ?_⟩
          · rw [← rest.1]
          · intro succeeded
            exact ⟨(rest.2 succeeded).1, by rw [(rest.2 succeeded).2]⟩
      · simp only [fillAsk, eligible, accept, if_true, step]
        split <;> simp [settleAll, step]
      · simp only [fillAsk, eligible, accept, if_true, step]
        split <;> simp [settleAll, step]
    · have rest := ih ask s
      simp only [fillAsk, eligible, if_false]
      exact ⟨rest.1, fun succeeded => ⟨(rest.2 succeeded).1, by rw [(rest.2 succeeded).2]⟩⟩

/-- A crossing is its plan, settled in turn; when nothing fails, the offers are left as the
plan leaves them. -/
theorem cross_settleAll (asks bids : List α) (s : σ) :
    let r := cross settle asks bids s
    let p : Outcome α M Unit Empty := planOutcome asks bids
    (r.state, r.made, r.error) = settleAll settle s p.made ∧
      (r.error = none → r.asks = p.asks ∧ r.bids = p.bids) := by
  induction asks generalizing bids s with
  | nil => exact ⟨rfl, fun _ => ⟨rfl, rfl⟩⟩
  | cons ask asks ih =>
    by_cases empty : amount ask ≤ 0
    · have rest := ih bids s
      simp only [planOutcome, cross, empty, if_true] at rest ⊢
      exact ⟨rest.1, fun succeeded => ⟨by rw [(rest.2 succeeded).1], (rest.2 succeeded).2⟩⟩
    · have one := fillAsk_settleAll settle ask bids s
      simp only [planOutcome, cross, empty, if_false, fillAsk_accept_error] at one ⊢
      rw [settleAll_append, ← one.1]
      cases failed : (fillAsk settle ask bids s).error with
      | some e => exact ⟨rfl, fun succeeded => nomatch succeeded⟩
      | none =>
        obtain ⟨sameAsks, sameBids⟩ := one.2 failed
        have rest := ih (fillAsk settle ask bids s).bids (fillAsk settle ask bids s).state
        simp only [planOutcome, sameBids] at rest
        simp only [sameBids, ← rest.1]
        exact ⟨True.intro, fun succeeded =>
          ⟨by rw [(rest.2 succeeded).1, sameAsks], (rest.2 succeeded).2⟩⟩

end Settlement

section Idle

variable {settle : σ → Match α M → σ × Verdict ε}

/-- An ask for which nothing is matched is left as it is, and so are the bids. -/
theorem fillAsk_of_none {ask : α} {bids : List α} {s : σ}
    (none' : (fillAsk settle ask bids s).made = []) :
    (fillAsk settle ask bids s).asks = [ask] ∧ (fillAsk settle ask bids s).bids = bids := by
  induction bids with
  | nil => exact ⟨rfl, rfl⟩
  | cons bid bids ih =>
    by_cases eligible : Eligible ask bid
    · simp only [fillAsk, eligible, if_true] at none' ⊢
      rcases step : settle s (meet bid ask) with ⟨s', _ | e | e⟩
      · simp only [step] at none'
        split at none' <;> cases none'
      · exact ⟨rfl, rfl⟩
      · simp [step] at none'
    · simp only [fillAsk, eligible, if_false] at none' ⊢
      exact ⟨(ih none').1, by rw [(ih none').2]⟩

/-- A crossing that matches nothing leaves the offers as they are. -/
theorem cross_of_none {asks bids : List α} {s : σ} (none' : (cross settle asks bids s).made = []) :
    (cross settle asks bids s).asks = asks ∧ (cross settle asks bids s).bids = bids := by
  induction asks generalizing bids s with
  | nil => exact ⟨rfl, rfl⟩
  | cons ask asks ih =>
    by_cases empty : amount ask ≤ 0
    · simp only [cross, empty, if_true] at none' ⊢
      exact ⟨by rw [(ih none').1], (ih none').2⟩
    · simp only [cross, empty, if_false] at none' ⊢
      cases failed : (fillAsk settle ask bids s).error with
      | some e =>
        simp only [failed] at none' ⊢
        exact ⟨by rw [(fillAsk_of_none none').1]; rfl, (fillAsk_of_none none').2⟩
      | none =>
        simp only [failed] at none' ⊢
        obtain ⟨first, rest⟩ := List.append_eq_nil_iff.mp none'
        obtain ⟨sameAsk, sameBids⟩ := fillAsk_of_none first
        rw [(ih rest).1, (ih rest).2, sameAsk, sameBids]
        exact ⟨rfl, rfl⟩

end Idle

section Determined

variable {σ' ε' : Type w} {settle : σ → Match α M → σ × Verdict ε}
  {settle' : σ' → Match α M → σ' × Verdict ε'}

/-- What filling an ask leaves of the offers depends on the matches made only. -/
theorem fillAsk_of_made {ask : α} {bids : List α} {s : σ} {s' : σ'}
    (same : (fillAsk settle ask bids s).made = (fillAsk settle' ask bids s').made) :
    (fillAsk settle ask bids s).asks = (fillAsk settle' ask bids s').asks ∧
      (fillAsk settle ask bids s).bids = (fillAsk settle' ask bids s').bids := by
  induction bids generalizing ask s s' with
  | nil => exact ⟨rfl, rfl⟩
  | cons bid bids ih =>
    by_cases eligible : Eligible ask bid
    swap
    · simp only [fillAsk, eligible, if_false] at same ⊢
      exact ⟨(ih same).1, by rw [(ih same).2]⟩
    rcases step : settle s (meet bid ask) with ⟨t, _ | e | e⟩ <;>
      rcases step' : settle' s' (meet bid ask) with ⟨t', _ | e' | e'⟩ <;>
      by_cases clears : amount ask ≤ amount bid <;>
      simp only [fillAsk, eligible, step, step', clears, if_true, if_false, List.cons.injEq, true_and,
        reduceCtorEq] at same ⊢
    · exact ⟨(ih same).1, by rw [(ih same).2]⟩
    · exact ⟨(fillAsk_of_none same).1, by rw [(fillAsk_of_none same).2]⟩
    · exact ⟨(fillAsk_of_none same.symm).1.symm, by rw [(fillAsk_of_none same.symm).2]⟩

/-- A settlement that is not refused leaves no match of the ask's plan unmade. -/
private theorem fillAsk_made_of_ok {ask : α} {bids : List α} {s : σ}
    (ok : (fillAsk settle ask bids s).error = none) : (fillAsk settle ask bids s).made =
      (fillAsk accept ask bids () : Outcome α M Unit Empty).made := by
  have run := (fillAsk_settleAll settle ask bids s).1
  have error : _ = (settleAll settle s _).2.2 := congrArg (fun r => r.2.2) run
  exact (congrArg (fun r => r.2.1) run).trans (settleAll_made (error.symm.trans ok))

private theorem fillAsk_made_prefix (ask : α) (bids : List α) (s : σ) :
    (fillAsk settle ask bids s).made <+: (fillAsk accept ask bids () : Outcome α M Unit Empty).made := by
  have made : (fillAsk settle ask bids s).made = (settleAll settle s _).2.1 :=
    congrArg (fun r => r.2.1) (fillAsk_settleAll settle ask bids s).1
  rw [made]
  exact settleAll_made_prefix _ _ _

/-- A crossing that failed on this ask, and one that went on to the next without a match. -/
private theorem cross_of_made_failed {ask : α} {asks bids : List α} {s : σ} {s' : σ'}
    (same : (fillAsk settle ask bids s).made = (fillAsk settle' ask bids s').made ++
      (cross settle' asks (fillAsk settle' ask bids s').bids (fillAsk settle' ask bids s').state).made)
    (ok : (fillAsk settle' ask bids s').error = none) :
    let q := cross settle' asks (fillAsk settle' ask bids s').bids (fillAsk settle' ask bids s').state
    (fillAsk settle ask bids s).asks ++ asks = (fillAsk settle' ask bids s').asks ++ q.asks ∧
      (fillAsk settle ask bids s).bids = q.bids := by
  have whole := fillAsk_made_of_ok ok
  have part : (fillAsk settle ask bids s).made <+: _ := fillAsk_made_prefix ask bids s
  rw [same, ← whole] at part
  have none' := List.append_right_eq_self.mp (part.eq_of_length_le (by simp))
  rw [none', List.append_nil] at same
  obtain ⟨sameAsks, sameBids⟩ := fillAsk_of_made same
  obtain ⟨keptAsks, keptBids⟩ := cross_of_none none'
  exact ⟨by rw [keptAsks, sameAsks], by rw [keptBids, sameBids]⟩

/-- What a crossing leaves of the offers depends on the matches made only. -/
theorem cross_of_made {asks bids : List α} {s : σ} {s' : σ'}
    (same : (cross settle asks bids s).made = (cross settle' asks bids s').made) :
    (cross settle asks bids s).asks = (cross settle' asks bids s').asks ∧
      (cross settle asks bids s).bids = (cross settle' asks bids s').bids := by
  induction asks generalizing bids s s' with
  | nil => exact ⟨rfl, rfl⟩
  | cons ask asks ih =>
    by_cases empty : amount ask ≤ 0
    · simp only [cross, empty, if_true] at same ⊢
      exact ⟨by rw [(ih same).1], (ih same).2⟩
    cases failed : (fillAsk settle ask bids s).error with
    | some e =>
      cases failed' : (fillAsk settle' ask bids s').error with
      | some e' =>
        simp only [cross, empty, if_false, failed, failed'] at same ⊢
        obtain ⟨sameAsks, sameBids⟩ := fillAsk_of_made same
        exact ⟨by rw [sameAsks], sameBids⟩
      | none =>
        simp only [cross, empty, if_false, failed, failed'] at same ⊢
        exact cross_of_made_failed same failed'
    | none =>
      cases failed' : (fillAsk settle' ask bids s').error with
      | some e' =>
        simp only [cross, empty, if_false, failed, failed'] at same ⊢
        obtain ⟨sameAsks, sameBids⟩ := cross_of_made_failed same.symm failed
        exact ⟨sameAsks.symm, sameBids.symm⟩
      | none =>
        simp only [cross, empty, if_false, failed, failed'] at same ⊢
        have whole := (fillAsk_made_of_ok failed).trans (fillAsk_made_of_ok failed').symm
        rw [whole] at same
        obtain ⟨sameAsks, sameBids⟩ := fillAsk_of_made whole
        rw [sameAsks, sameBids]
        rw [sameBids] at same
        have rest := List.append_cancel_left same
        exact ⟨by rw [(ih rest).1], (ih rest).2⟩

end Determined

section Accounting

variable {N : Type*} [AddCommGroup N]

/-- What an offer weighs when a unit of it weighs `w`. -/
def weight (w : α → M →+ N) (a : α) : N := w a (amount a)

variable {w : α → M →+ N} (fixed : ∀ a x, w (withAmount a x) = w a)
variable (settle : σ → Match α M → σ × Verdict ε)

omit [LinearOrder M] in
include fixed in
theorem weight_remaining (a : α) (f : M) : weight w (remaining a f) = weight w a - w a f := by
  simp [weight, remaining, fixed]

include fixed in
/-- The bids lose what the matches took from them. -/
theorem fillAsk_weight_bids (ask : α) (bids : List α) (s : σ) :
    let r := fillAsk settle ask bids s
    (r.bids.map (weight w)).sum + (r.made.map (fun t => w t.bid t.amount)).sum =
      (bids.map (weight w)).sum := by
  induction bids generalizing ask s with
  | nil => simp [fillAsk]
  | cons bid bids ih =>
    have taken := weight_remaining fixed bid (meet bid ask).amount
    by_cases eligible : Eligible ask bid
    · rcases step : settle s (meet bid ask) with ⟨s', _ | e | e⟩
      · by_cases clears : amount ask ≤ amount bid
        · simp only [fillAsk, eligible, step, clears, if_true, List.map_cons, List.sum_cons, taken]
          simp [meet]
          abel
        · have rest := ih (remaining ask (meet bid ask).amount) s'
          simp only [fillAsk, eligible, step, clears, if_true, if_false, List.map_cons,
            List.sum_cons, taken]
          rw [← rest]
          simp only [meet]
          abel
      · simp [fillAsk, eligible, step]
      · simp only [fillAsk, eligible, step, if_true, List.map_cons, List.sum_cons, taken]
        simp [meet]
        abel
    · have rest := ih ask s
      simp only [fillAsk, eligible, if_false, List.map_cons, List.sum_cons]
      rw [← rest, add_assoc]

include fixed in
/-- The ask loses what the matches took from it. -/
theorem fillAsk_weight_asks (ask : α) (bids : List α) (s : σ) :
    let r := fillAsk settle ask bids s
    (r.asks.map (weight w)).sum + (r.made.map (fun t => w t.ask t.amount)).sum = weight w ask := by
  induction bids generalizing ask s with
  | nil => simp [fillAsk]
  | cons bid bids ih =>
    have taken := weight_remaining fixed ask (meet bid ask).amount
    by_cases eligible : Eligible ask bid
    · rcases step : settle s (meet bid ask) with ⟨s', _ | e | e⟩
      · by_cases clears : amount ask ≤ amount bid
        · simp only [fillAsk, eligible, step, clears, if_true, List.map_cons, List.map_nil,
            List.sum_cons, List.sum_nil, taken]
          simp [meet]
        · have rest := ih (remaining ask (meet bid ask).amount) s'
          simp only [fillAsk, eligible, step, clears, if_true, if_false, List.map_cons,
            List.sum_cons]
          rw [taken] at rest
          rw [← sub_eq_iff_eq_add'.mp rest.symm |>.symm]
          simp only [meet]
          abel
      · simp [fillAsk, eligible, step]
      · simp only [fillAsk, eligible, step, if_true, List.map_cons, List.map_nil,
            List.sum_cons, List.sum_nil, taken]
        simp [meet]
    · simpa only [fillAsk, eligible, if_false] using ih ask s

include fixed in
theorem cross_weight_bids (asks bids : List α) (s : σ) :
    let r := cross settle asks bids s
    (r.bids.map (weight w)).sum + (r.made.map (fun t => w t.bid t.amount)).sum =
      (bids.map (weight w)).sum := by
  induction asks generalizing bids s with
  | nil => simp [cross]
  | cons ask asks ih =>
    by_cases empty : amount ask ≤ 0
    · simpa only [cross, empty, if_true] using ih bids s
    · have one := fillAsk_weight_bids fixed settle ask bids s
      simp only [cross, empty, if_false]
      cases (fillAsk settle ask bids s).error with
      | some e => exact one
      | none =>
        have rest := ih (fillAsk settle ask bids s).bids (fillAsk settle ask bids s).state
        simp only [List.map_append, List.sum_append]
        rw [← one, ← rest]
        abel

include fixed in
theorem cross_weight_asks (asks bids : List α) (s : σ) :
    let r := cross settle asks bids s
    (r.asks.map (weight w)).sum + (r.made.map (fun t => w t.ask t.amount)).sum =
      (asks.map (weight w)).sum := by
  induction asks generalizing bids s with
  | nil => simp [cross]
  | cons ask asks ih =>
    by_cases empty : amount ask ≤ 0
    · have rest := ih bids s
      simp only [cross, empty, if_true, List.map_cons, List.sum_cons]
      rw [← rest, add_assoc]
    · have one := fillAsk_weight_asks fixed settle ask bids s
      simp only [cross, empty, if_false]
      cases (fillAsk settle ask bids s).error with
      | some e =>
        simp only [List.map_append, List.sum_append, List.map_cons, List.sum_cons]
        rw [← one]
        abel
      | none =>
        have rest := ih (fillAsk settle ask bids s).bids (fillAsk settle ask bids s).state
        simp only [List.map_append, List.sum_append, List.map_cons, List.sum_cons]
        rw [← one, ← rest]
        abel

end Accounting

section Order

/-- What a crossing does to one offer: nothing if its amount is not positive, otherwise a
part of the amount may be gone. -/
def Reduced (a a' : α) : Prop :=
  ∃ x, a' = withAmount a x ∧ (amount a ≤ 0 → x = amount a) ∧ (0 < amount a → 0 ≤ x ∧ x ≤ amount a)

theorem Reduced.refl (a : α) : Reduced a a :=
  ⟨amount a, (withAmount_amount a).symm, fun _ => rfl, fun positive => ⟨le_of_lt positive, le_rfl⟩⟩

theorem Reduced.trans {a b c : α} (first : Reduced a b) (second : Reduced b c) : Reduced a c := by
  obtain ⟨x, rfl, unchanged, bounds⟩ := first
  obtain ⟨y, rfl, unchanged', bounds'⟩ := second
  simp only [amount_withAmount] at unchanged' bounds'
  refine ⟨y, by simp, ?_, ?_⟩
  · intro empty
    rw [unchanged' (by rw [unchanged empty]; exact empty), unchanged empty]
  · intro positive
    obtain ⟨low, high⟩ := bounds positive
    rcases lt_or_eq_of_le low with some' | none'
    · exact ⟨(bounds' some').1, le_trans (bounds' some').2 high⟩
    · subst none'
      rw [unchanged' le_rfl]
      exact ⟨le_rfl, high⟩

theorem Reduced.price_eq {a a' : α} (reduced : Reduced a a') : price a' = price a := by
  obtain ⟨x, rfl, -⟩ := reduced
  simp

theorem Reduced.positive {a a' : α} (reduced : Reduced a a') (positive : 0 < amount a') :
    0 < amount a := by
  obtain ⟨x, rfl, unchanged, -⟩ := reduced
  by_contra empty
  simp only [amount_withAmount] at positive
  rw [unchanged (not_lt.mp empty)] at positive
  exact empty positive

theorem forall₂_reduced_refl (l : List α) : List.Forall₂ Reduced l l :=
  List.forall₂_same.mpr fun a _ => Reduced.refl a

theorem meet_amount_pos {ask bid : α} (positive : 0 < amount ask) (eligible : Eligible ask bid) :
    0 < (meet bid ask).amount :=
  lt_min eligible.1 positive

/-- No bid with something left meets an ask with something left. -/
def Uncrossed (asks bids : List α) : Prop :=
  ∀ a ∈ asks, ∀ b ∈ bids, 0 < amount a → 0 < amount b → price b < price a

theorem Uncrossed.reduced {asks bids bids' : List α} (uncrossed : Uncrossed asks bids)
    (reduced : List.Forall₂ Reduced bids bids') : Uncrossed asks bids' := by
  intro a inAsks b' inBids' positive positive'
  obtain ⟨b, inBids, toB⟩ := ListFacts.forall₂_mem_right reduced inBids'
  rw [toB.price_eq]
  exact uncrossed a inAsks b inBids positive (toB.positive positive')

variable [IsOrderedAddMonoid M] (settle : σ → Match α M → σ × Verdict ε)

theorem reduced_remaining {a : α} {f : M} (some' : 0 ≤ f) (most : f ≤ amount a) :
    Reduced a (remaining a f) := by
  refine ⟨amount a - f, rfl, ?_, ?_⟩
  · intro empty
    have : f = 0 := le_antisymm (le_trans most empty) some'
    simp [this]
  · intro _
    exact ⟨sub_nonneg.mpr most, sub_le_self _ some'⟩

theorem reduced_meet_bid {ask bid : α} (positive : 0 < amount ask)
    (eligible : Eligible ask bid) : Reduced bid (remaining bid (meet bid ask).amount) :=
  reduced_remaining (le_of_lt (meet_amount_pos positive eligible)) (min_le_left _ _)

theorem reduced_meet_ask {ask bid : α} (positive : 0 < amount ask)
    (eligible : Eligible ask bid) : Reduced ask (remaining ask (meet bid ask).amount) :=
  reduced_remaining (le_of_lt (meet_amount_pos positive eligible)) (min_le_right _ _)

/-- A partly filled ask keeps a positive amount. -/
theorem remaining_pos {ask bid : α} (partly : ¬ amount ask ≤ amount bid) :
    0 < amount (remaining ask (meet bid ask).amount) := by
  have less : amount bid < amount ask := not_le.mp partly
  simp [remaining, meet, less]

theorem fillAsk_reduced {ask : α} (positive : 0 < amount ask) (bids : List α) (s : σ) :
    let r := fillAsk settle ask bids s
    List.Forall₂ Reduced bids r.bids ∧ List.Forall₂ Reduced [ask] r.asks := by
  induction bids generalizing ask s with
  | nil => exact ⟨.nil, forall₂_reduced_refl _⟩
  | cons bid bids ih =>
    by_cases eligible : Eligible ask bid
    · have headBid := reduced_meet_bid positive eligible
      have headAsk := reduced_meet_ask positive eligible
      rcases step : settle s (meet bid ask) with ⟨s', _ | e | e⟩
      · by_cases clears : amount ask ≤ amount bid
        · simp only [fillAsk, eligible, step, clears, if_true]
          exact ⟨.cons headBid (forall₂_reduced_refl _), .cons headAsk .nil⟩
        · have rest := ih (remaining_pos clears) s'
          simp only [fillAsk, eligible, step, clears, if_true, if_false]
          exact ⟨.cons headBid rest.1,
            ListFacts.forall₂_trans (.cons headAsk .nil) rest.2 Reduced.trans⟩
      · simp only [fillAsk, eligible, step, if_true]
        exact ⟨forall₂_reduced_refl _, forall₂_reduced_refl _⟩
      · simp only [fillAsk, eligible, step, if_true]
        exact ⟨.cons headBid (forall₂_reduced_refl _), .cons headAsk .nil⟩
    · have rest := ih positive s
      simp only [fillAsk, eligible, if_false]
      exact ⟨.cons (Reduced.refl bid) rest.1, rest.2⟩

theorem cross_reduced (asks bids : List α) (s : σ) :
    let r := cross settle asks bids s
    List.Forall₂ Reduced bids r.bids ∧ List.Forall₂ Reduced asks r.asks := by
  induction asks generalizing bids s with
  | nil => exact ⟨forall₂_reduced_refl _, .nil⟩
  | cons ask asks ih =>
    by_cases empty : amount ask ≤ 0
    · simp only [cross, empty, if_true]
      exact ⟨(ih bids s).1, .cons (Reduced.refl ask) (ih bids s).2⟩
    · have one := fillAsk_reduced settle (not_le.mp empty) bids s
      simp only [cross, empty, if_false]
      cases (fillAsk settle ask bids s).error with
      | some e => exact ⟨one.1, List.rel_append one.2 (forall₂_reduced_refl asks)⟩
      | none =>
        have rest := ih (fillAsk settle ask bids s).bids (fillAsk settle ask bids s).state
        exact ⟨ListFacts.forall₂_trans one.1 rest.1 Reduced.trans, List.rel_append one.2 rest.2⟩

/-- A match of offers among `asks` and `bids`, as far as they are left. -/
structure Sound (asks bids : List α) (t : Match α M) : Prop where
  positive : 0 < t.amount
  crossed : price t.ask ≤ price t.bid
  amount_bid : t.amount ≤ amount t.bid
  amount_ask : t.amount ≤ amount t.ask
  bid : ∃ b ∈ bids, Reduced b t.bid
  ask : ∃ a ∈ asks, Reduced a t.ask

theorem fillAsk_sound {ask : α} (positive : 0 < amount ask) (bids : List α) (s : σ) :
    ∀ t ∈ (fillAsk settle ask bids s).made, Sound [ask] bids t := by
  induction bids generalizing ask s with
  | nil => simp [fillAsk]
  | cons bid bids ih =>
    by_cases eligible : Eligible ask bid
    · have head : Sound [ask] (bid :: bids) (meet bid ask) :=
        ⟨meet_amount_pos positive eligible, eligible.2, min_le_left _ _, min_le_right _ _,
          ⟨bid, by simp, Reduced.refl bid⟩, ⟨ask, by simp, Reduced.refl ask⟩⟩
      rcases step : settle s (meet bid ask) with ⟨s', _ | e | e⟩
      · by_cases clears : amount ask ≤ amount bid
        · simp only [fillAsk, eligible, step, clears, if_true, List.mem_singleton]
          rintro t rfl
          exact head
        · simp only [fillAsk, eligible, step, clears, if_true, if_false, List.mem_cons]
          rintro t (rfl | member)
          · exact head
          · obtain ⟨pos, crossed, most, most', ⟨b, inBids, fromBid⟩, ⟨a, inAsks, fromAsk⟩⟩ :=
              ih (remaining_pos clears) s' t member
            obtain rfl := List.mem_singleton.mp inAsks
            exact ⟨pos, crossed, most, most', ⟨b, by simp [inBids], fromBid⟩,
              ⟨ask, by simp, (reduced_meet_ask positive eligible).trans fromAsk⟩⟩
      · simp [fillAsk, eligible, step]
      · simp only [fillAsk, eligible, step, if_true, List.mem_singleton]
        rintro t rfl
        exact head
    · simp only [fillAsk, eligible, if_false]
      intro t member
      obtain ⟨pos, crossed, most, most', ⟨b, inBids, fromBid⟩, fromAsk⟩ := ih positive s t member
      exact ⟨pos, crossed, most, most', ⟨b, by simp [inBids], fromBid⟩, fromAsk⟩

/-- Every match made has a positive amount, which both sides have, at an ask price the bid
meets, between offers of the two lists. -/
theorem cross_sound (asks bids : List α) (s : σ) :
    ∀ t ∈ (cross settle asks bids s).made, Sound asks bids t := by
  induction asks generalizing bids s with
  | nil => simp [cross]
  | cons ask asks ih =>
    have later : ∀ {bids' : List α} {t : Match α M}, List.Forall₂ Reduced bids bids' →
        Sound asks bids' t → Sound (ask :: asks) bids t := by
      rintro bids' t reduced ⟨pos, crossed, most, most', ⟨b, inBids, fromBid⟩, ⟨a, inAsks, fromAsk⟩⟩
      obtain ⟨b', inBids', toB⟩ := ListFacts.forall₂_mem_right reduced inBids
      exact ⟨pos, crossed, most, most', ⟨b', inBids', toB.trans fromBid⟩,
        ⟨a, by simp [inAsks], fromAsk⟩⟩
    by_cases empty : amount ask ≤ 0
    · simp only [cross, empty, if_true]
      intro t member
      exact later (forall₂_reduced_refl bids) (ih bids s t member)
    · have one := fillAsk_sound settle (not_le.mp empty) bids s
      have reduced := fillAsk_reduced settle (not_le.mp empty) bids s
      have first : ∀ t ∈ (fillAsk settle ask bids s).made, Sound (ask :: asks) bids t := by
        intro t member
        obtain ⟨pos, crossed, most, most', fromBid, ⟨a, inAsks, fromAsk⟩⟩ := one t member
        obtain rfl := List.mem_singleton.mp inAsks
        exact ⟨pos, crossed, most, most', fromBid, ⟨a, by simp, fromAsk⟩⟩
      simp only [cross, empty, if_false]
      cases (fillAsk settle ask bids s).error with
      | some e => exact first
      | none =>
        intro t member
        rcases List.mem_append.mp member with made | made
        · exact first t made
        · exact later reduced.1 (ih _ _ t made)

theorem fillAsk_uncrossed {ask : α} (positive : 0 < amount ask) (bids : List α) (s : σ)
    (succeeded : (fillAsk settle ask bids s).error = none) :
    Uncrossed (fillAsk settle ask bids s).asks (fillAsk settle ask bids s).bids := by
  induction bids generalizing ask s with
  | nil => simp [fillAsk, Uncrossed]
  | cons bid bids ih =>
    by_cases eligible : Eligible ask bid
    · rcases step : settle s (meet bid ask) with ⟨s', _ | e | e⟩
      · by_cases clears : amount ask ≤ amount bid
        · simp only [fillAsk, eligible, step, clears, if_true]
          intro a inAsks b _ positive'
          obtain rfl := List.mem_singleton.mp inAsks
          simp [remaining, meet, clears] at positive'
        · simp only [fillAsk, eligible, step, clears, if_true, if_false] at succeeded ⊢
          have rest := ih (remaining_pos clears) s' succeeded
          intro a inAsks b inBids positive' positive''
          rcases List.mem_cons.mp inBids with rfl | inBids
          · have empty : amount (remaining bid (meet bid ask).amount) = 0 := by
              simp [remaining, meet, le_of_lt (not_le.mp clears)]
            rw [empty] at positive''
            exact absurd positive'' (lt_irrefl _)
          · exact rest a inAsks b inBids positive' positive''
      · simp [fillAsk, eligible, step] at succeeded
      · simp [fillAsk, eligible, step] at succeeded
    · simp only [fillAsk, eligible, if_false] at succeeded ⊢
      have rest := ih positive s succeeded
      have reduced := (fillAsk_reduced settle positive bids s).2
      intro a inAsks b inBids positive' positive''
      rcases List.mem_cons.mp inBids with rfl | inBids
      · obtain ⟨ask', isAsk, toA⟩ := ListFacts.forall₂_mem_right reduced inAsks
        obtain rfl := List.mem_singleton.mp isAsk
        rw [toA.price_eq]
        exact not_le.mp fun crossed => eligible ⟨positive'', crossed⟩
      · exact rest a inAsks b inBids positive' positive''

/-- A crossing in which nothing fails leaves the two lists uncrossed. -/
theorem cross_uncrossed (asks bids : List α) (s : σ)
    (succeeded : (cross settle asks bids s).error = none) :
    Uncrossed (cross settle asks bids s).asks (cross settle asks bids s).bids := by
  induction asks generalizing bids s with
  | nil => simp [cross, Uncrossed]
  | cons ask asks ih =>
    by_cases empty : amount ask ≤ 0
    · simp only [cross, empty, if_true] at succeeded ⊢
      intro a inAsks b inBids positive
      rcases List.mem_cons.mp inAsks with rfl | inAsks
      · exact absurd empty (not_le.mpr positive)
      · exact ih bids s succeeded a inAsks b inBids positive
    · simp only [cross, empty, if_false] at succeeded ⊢
      cases failed : (fillAsk settle ask bids s).error with
      | some e => simp [failed] at succeeded
      | none =>
        simp only [failed] at succeeded ⊢
        have one := fillAsk_uncrossed settle (not_le.mp empty) bids s failed
        have reduced := (cross_reduced settle asks (fillAsk settle ask bids s).bids
          (fillAsk settle ask bids s).state).1
        intro a inAsks b inBids positive
        rcases List.mem_append.mp inAsks with first | later
        · exact one.reduced reduced a first b inBids positive
        · exact ih _ _ succeeded a later b inBids positive

/-- Asks that come in order of price are matched in order of price. -/
theorem cross_made_sorted {asks : List α} (sorted : asks.Pairwise (fun a b => price a ≤ price b))
    (bids : List α) (s : σ) :
    (cross settle asks bids s).made.Pairwise (fun t t' => price t.ask ≤ price t'.ask) := by
  induction asks generalizing bids s with
  | nil => simp [cross]
  | cons ask asks ih =>
    obtain ⟨least, sorted'⟩ := List.pairwise_cons.mp sorted
    by_cases empty : amount ask ≤ 0
    · simpa only [cross, empty, if_true] using ih sorted' bids s
    · have one : ∀ t ∈ (fillAsk settle ask bids s).made, price t.ask = price ask := by
        intro t member
        obtain ⟨a, isAsk, toA⟩ := (fillAsk_sound settle (not_le.mp empty) bids s t member).ask
        obtain rfl := List.mem_singleton.mp isAsk
        exact toA.price_eq
      have same : (fillAsk settle ask bids s).made.Pairwise (fun t t' => price t.ask ≤ price t'.ask) :=
        List.pairwise_iff_getElem.mpr fun i j _ _ _ => by
          rw [one _ (List.getElem_mem _), one _ (List.getElem_mem _)]
      simp only [cross, empty, if_false]
      cases (fillAsk settle ask bids s).error with
      | some e => exact same
      | none =>
        refine List.pairwise_append.mpr ⟨same, ih sorted' _ _, ?_⟩
        intro t ht t' ht'
        obtain ⟨a, inAsks, toA⟩ := (cross_sound settle asks _ _ t' ht').ask
        rw [one t ht, toA.price_eq]
        exact least a inAsks

end Order

section Lead

/-- The first offer of a list with a positive amount. -/
def lead (l : List α) : Option α := l.find? (fun a => decide (0 < amount a))

theorem lead_cons_of_pos {a : α} (positive : 0 < amount a) (l : List α) : lead (a :: l) = some a := by
  simp [lead, positive]

theorem lead_cons_of_empty {a : α} (empty : amount a ≤ 0) (l : List α) : lead (a :: l) = lead l := by
  simp [lead, not_lt.mpr empty]

theorem lead_mem {l : List α} {a : α} (first : lead l = some a) : a ∈ l ∧ 0 < amount a :=
  ⟨List.mem_of_find?_eq_some first, by simpa using List.find?_some first⟩

/-- The match of an ask and the first bid, when they cross. -/
def firstMatch (ask : α) : Option α → Option (Match α M)
  | some bid => if price ask ≤ price bid then some (meet bid ask) else none
  | none => none

theorem firstMatch_of_lower {ask : α} {bids : List α} {x : M} (lower : x < price ask)
    (least : ∀ b ∈ bids, price b ≤ x) : firstMatch ask (lead bids) = none := by
  cases first : lead bids with
  | none => rfl
  | some bid =>
    have below := (least bid (lead_mem first).1).trans_lt lower
    simp [firstMatch, not_le.mpr below]

/-- Bids that come from the highest price are taken from the first one on. -/
theorem fillAsk_head {bids : List α} (sorted : bids.Pairwise (fun a b => price b ≤ price a)) (ask : α) :
    (fillAsk accept ask bids () : Outcome α M Unit Empty).made.head? = firstMatch ask (lead bids) := by
  induction bids with
  | nil => rfl
  | cons bid bids ih =>
    obtain ⟨most, sorted'⟩ := List.pairwise_cons.mp sorted
    by_cases empty : amount bid ≤ 0
    · have eligible : ¬ Eligible ask bid := fun eligible => not_lt.mpr empty eligible.1
      simp only [fillAsk, eligible, if_false, lead_cons_of_empty empty]
      exact ih sorted'
    · rw [lead_cons_of_pos (not_le.mp empty)]
      by_cases crossed : price ask ≤ price bid
      · have eligible : Eligible ask bid := ⟨not_le.mp empty, crossed⟩
        simp only [fillAsk, eligible, if_true, accept, firstMatch, crossed]
        split <;> rfl
      · have eligible : ¬ Eligible ask bid := fun eligible => crossed eligible.2
        simp only [fillAsk, eligible, if_false, firstMatch, crossed]
        rw [ih sorted']
        exact firstMatch_of_lower (not_le.mp crossed) most

/-- Asks from the lowest price and bids from the highest: the first match is between the first
ask and the first bid with a positive amount, if these cross, and otherwise there is none. -/
theorem plan_head {asks bids : List α} (asksSorted : asks.Pairwise (fun a b => price a ≤ price b))
    (bidsSorted : bids.Pairwise (fun a b => price b ≤ price a)) :
    (plan asks bids).head? = (lead asks).bind fun ask => firstMatch ask (lead bids) := by
  induction asks with
  | nil => rfl
  | cons ask asks ih =>
    obtain ⟨least, sorted'⟩ := List.pairwise_cons.mp asksSorted
    unfold plan planOutcome at ih ⊢
    by_cases empty : amount ask ≤ 0
    · simp only [cross, empty, if_true, lead_cons_of_empty empty]
      exact ih sorted'
    · simp only [cross, empty, if_false, fillAsk_accept_error, List.head?_append,
        lead_cons_of_pos (not_le.mp empty), fillAsk_head bidsSorted, Option.bind_some]
      cases first : firstMatch ask (lead bids) with
      | some t => rfl
      | none =>
        -- nothing was taken for this ask, and the later ones are priced no lower
        have none' : (fillAsk accept ask bids () : Outcome α M Unit Empty).made = [] :=
          List.head?_eq_none_iff.mp ((fillAsk_head bidsSorted ask).trans first)
        simp only [Option.none_or, (fillAsk_of_none none').2]
        rw [ih sorted']
        cases later : lead asks with
        | none => rfl
        | some ask' =>
          have above := least ask' (lead_mem later).1
          cases best : lead bids with
          | none => rfl
          | some bid =>
            rw [best] at first
            have apart : ¬ price ask ≤ price bid := by
              intro crossed
              simp [firstMatch, crossed] at first
            have apart' : ¬ price ask' ≤ price bid := fun crossed => apart (above.trans crossed)
            simp [firstMatch, apart']

end Lead

end Crossing
