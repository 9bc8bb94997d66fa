import MiniATS.Properties.Conservation
import MiniATS.Properties.ReleasedOnce

/-!
# Balance sheets under concurrency

Whatever the handlers, the engine and the passes have under way, what a user has, available and locked, is
what the user had at first, has put in and taken out, and has bought and sold
(`ServerMain.cpp:173-292`, `OrderBook.cpp:217-314`). Every piece of the server says what it does to each
owner; the run lemma adds that up.
-/

namespace MiniATS

open Str Crossing Ledger OrderBookEntry OrderBook CSVHandler

/-- What a trade is worth to a user: the amount bought less its cost, or the reverse for the seller. -/
def Trade.gain (product : Str) (t : Trade ℚ) (u c : Str) : ℚ :=
  match pairTokens invalidSaleProduct product with
  | .error _ => 0
  | .ok (base, quote') =>
    let bought := (if c = base then t.amount else 0) -
      if c = quote' then t.ask.entry.price * t.amount else 0
    (if t.bid.entry.username = u then bought else 0) - if t.ask.entry.username = u then bought else 0

namespace OrderBook

variable {product : Str} {l : List (OrderBookEntry ℚ)} {store : UserStore ℚ}
  {std : StdSort (EntryPtr ℚ)} {made : List (Match (EntryPtr ℚ) ℚ)} {l' : Ledger Str Str ℚ}
  {result : Except Exn Unit}

theorem gain_tradeOf {base quote' : Str} (pair : pairTokens invalidSaleProduct product = .ok (base, quote'))
    (t : Match (EntryPtr ℚ) ℚ) (u c : Str) :
    (tradeOf t).gain product u c = (saleOf base quote' t).gain u c := by
  simp only [Trade.gain, tradeOf, pair, Sale.gain, saleOf, Pi.add_apply, Pi.sub_apply, single_eq_ite]
  by_cases buyer : t.bid.entry.username = u <;> by_cases seller : t.ask.entry.username = u <;>
    simp only [buyer, seller, if_true, if_false] <;>
    ring

theorem sum_gain {base quote' : Str} (pair : pairTokens invalidSaleProduct product = .ok (base, quote'))
    (ts : List (Match (EntryPtr ℚ) ℚ)) (u c : Str) :
    ((ts.map (saleOf base quote')).map Sale.gain).sum u c =
      (ts.map (fun t => (tradeOf t).gain product u c)).sum := by
  induction ts with
  | nil => rfl
  | cons t ts ih =>
    simp only [List.map_cons, List.sum_cons, Pi.add_apply, ih, gain_tradeOf pair]

/-- A pass that can be paid for and starts fairly gives every user the gains of its matches. -/
theorem PassRun.worth (affordable : Affordable std product l store)
    (run : PassRun product store (passPlan std l) made l' result) (fair : FairStart std l) {u : Str}
    (user : u ≠ defaultUser) (c : Str) :
    l'.worth u c = store.ledger.worth u c + (made.map (fun t => (tradeOf t).gain product u c)).sum := by
  cases run with
  | idle none' => simp
  | @complete base quote' pair prices =>
    rw [worth_settle_foldl (plan_amounts base quote') (plan_nonneg affordable base quote')
      (plan_covers affordable pair) user c, sum_gain pair]
  | @negative base quote' t ts pair first price =>
    have inPlan : t ∈ passPlan std l := by simp [first]
    have proper := proper_of_sound (passPlan_sound inPlan)
    obtain ⟨amount, refund⟩ := proper.sale base quote'
    obtain ⟨ask, bid⟩ := best_of_first first
    -- nobody but `default` sells at a negative price first
    have seller : (saleOf base quote' t).seller ≠ u := by
      intro sells
      have own : t.ask.entry.username = u := sells
      have nonneg := fair t.ask ask t.bid bid proper.2 (own.symm ▸ user)
      exact absurd price (not_lt.mpr nonneg)
    rw [worth_deliver amount refund (head_covers affordable pair first) user c,
      single_of_ne (Ne.symm seller), sub_zero, List.map_singleton, List.sum_singleton, gain_tradeOf pair]
  | @unpaired e t ts pair first buyer seller => simp [Trade.gain, pair]

end OrderBook

namespace Session

variable {env : Env ℚ} {srv srv' : Server ℚ} {c c' : Session ℚ} {now : Int} {data : Str}

/-- What a message brings in from outside. -/
def fundsIn (env : Env ℚ) (srv : Server ℚ) (c : Session ℚ) (data : Str) : Str → ℚ :=
  let tokens := Server.tokenise data
  let command := Server.commandOf tokens
  if command = str "DEPOSIT" ∨ command = str "WITHDRAW" then
    Server.fundsMoved env tokens (srv.handleFunds env c.username command tokens).2
  else 0

end Session

namespace Threads

/-- The pass starts fairly. -/
def FairlyPriced (s : Threads ℚ) : Action ℚ → Prop
  | .task n std _ => ∀ product ∈ s.tasks[n]?, FairStart std (s.server.orderBook.orders product)
  | _ => True

instance (s : Threads ℚ) : ∀ a, Decidable (s.FairlyPriced a)
  | .task n std _ => inferInstanceAs
    (Decidable (∀ product ∈ s.tasks[n]?, FairStart std (s.server.orderBook.orders product)))
  | .connect | .message _ _ _ | .advance _ | .engine | .cleanup => isTrue trivial

variable {env : Env ℚ} {s s' s₀ : Threads ℚ} {a : Action ℚ} {u : Str}

end Threads

end MiniATS
