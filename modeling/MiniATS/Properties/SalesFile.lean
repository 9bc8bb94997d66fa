import MiniATS.Proofs.Generations
import MiniATS.Properties.SalesLedger
import MiniATS.Properties.SavedBook

/-!
# `sales.csv` over restarts

`cleanup` appends the sales of the book to `sales.csv` in its first step, and `orders.csv` has no sales
for the next process to read (`ServerMain.cpp:16-17`, `CSVHandler.cpp:79-93`). So the file grows by the
trades of the passes that had returned when the shutdown began, each once and in order; what is traded
after that, or in a process without a shutdown, is in no file.
-/

namespace MiniATS

open Str CSVHandler

/-- The step of the shutdown handler. -/
def Action.isCleanup {R : Type} : Action R → Bool
  | .cleanup => true
  | _ => false

section Handler

variable {R : Type} [Zero R] [Add R] [Sub R] [Mul R] [Div R] [LT R] [LE R] [DecidableLT R]
  [DecidableLE R] [BEq R]

variable {env : Env R} {s s' : Threads R} {actions : List (Action R)}

theorem Threads.shutdown_of_other {a : Action R} (taken : Taken env s a s') (other : a.isCleanup = false) :
    s'.shutdown = s.shutdown := by
  cases taken with
  | cleanup moved => cases other
  | _ => rfl

/-- The handler does not begin by itself. -/
theorem Threads.running_run (running : s.shutdown = .running)
    (others : ∀ a ∈ actions, Action.isCleanup a = false)
    (ran : Machine.exec (next env) s actions = some s') : s'.shutdown = .running :=
  Machine.exec_invariant (fun s => s.shutdown = .running)
    (fun _ _ _ running other step => (shutdown_of_other (taken_of_next step) other).trans running) running
    (Machine.along_of_mem (fun a member _ => others a member) s) ran

/-- The sales are read once. -/
theorem Threads.sales_run {sales : List (OrderBookEntry R)} (read : s.shutdown.sales = some sales)
    (ran : Machine.exec (next env) s actions = some s') : s'.shutdown.sales = some sales := by
  refine Machine.exec_keeps (fun s : Threads R => s.shutdown.sales = some sales)
    (fun s a s' read step => ?_) read ran
  rcases shutdown_step (taken_of_next step) with same | ⟨-, reads⟩
  · rw [same]
    exact read
  · generalize s.shutdown = shutdown at read reads
    generalize s'.shutdown = shutdown' at reads
    cases reads with
    | sales => cases read
    | _ => exact read

end Handler

namespace Disk

variable {Text : Type} {env : Env ℚ} {json : JsonText ℚ Text} {disk disk' : Disk Text}

/-- What a process sells up to its shutdown, by product, price and amount; nothing when it has none. -/
def soldIn (env : Env ℚ) (json : JsonText ℚ Text) (disk : Disk Text) (life : List (Action ℚ)) :
    List (Str × ℚ × ℚ) :=
  match disk.boot env json with
  | none => []
  | some s =>
    if life.any Action.isCleanup then
      Threads.sold env (Machine.trace (Threads.next env) s (life.takeWhile fun a => !a.isCleanup))
    else []

/-- These are recorded sales of these terms. -/
structure Sales (sales : List (OrderBookEntry ℚ)) (terms : List (Str × ℚ × ℚ)) : Prop where
  terms : sales.map (fun sale => (sale.product, sale.price, sale.amount)) = terms
  default' : ∀ sale ∈ sales, sale.orderType = .sale ∧ sale.username = defaultUser

theorem sales_of_live {life : List (Action ℚ)} (lived : disk.live env json life = some disk') :
    ∃ sales, Sales sales (disk.soldIn env json life) ∧
      disk'.sales = disk.sales ++ sales.flatMap (entryToLine env) := by
  obtain ⟨s, s', booted, ran, rfl⟩ := live_eq_some.mp lived
  obtain ⟨book, nextId, store, made, -, rfl⟩ := boot_eq_some.mp booted
  rw [after_sales]
  refine ⟨_, ?_, rfl⟩
  unfold soldIn
  rw [booted]
  dsimp only
  split
  · -- the run up to the first step of the handler, and from there on
    rename_i cleaned
    obtain ⟨a, after, is, cut⟩ := ListFacts.takeWhile_first cleaned
    obtain rfl : a = .cleanup := by
      cases a with
      | cleanup => rfl
      | _ => cases is
    rw [cut, Machine.exec_append] at ran
    obtain ⟨moment, ran, ran'⟩ := Option.bind_eq_some_iff.mp ran
    obtain ⟨begun, step, ran'⟩ := Machine.exec_cons_some.mp ran'
    have running : moment.shutdown = .running := Threads.running_run rfl
      (fun a member => by simpa using List.mem_takeWhile_imp member) ran
    have ledgered := Threads.ledgered_run made store ran
    have read : begun.shutdown.sales = some moment.server.orderBook.getSales := by
      have moved : moment.cleanupStep = some begun := step
      unfold Threads.cleanupStep at moved
      rw [running] at moved
      rw [← Option.some.inj moved]
      rfl
    rw [Threads.sales_run read ran']
    exact ⟨ledgered.sales, ledgered.default'⟩
  · rename_i cleaned
    have running : s'.shutdown = .running := Threads.running_run rfl
      (fun a member => by
        by_contra is
        exact cleaned (List.any_eq_true.mpr ⟨a, member, by simpa using is⟩)) ran
    rw [running]
    exact ⟨rfl, fun _ member => absurd member List.not_mem_nil⟩

/-- Over any chain of processes `sales.csv` grows by the lines of what each of them sold before its
shutdown. -/
theorem sales_appended (env : Env ℚ) (json : JsonText ℚ Text) (lives : List (List (Action ℚ)))
    (ran : Machine.exec (live env json) disk lives = some disk') :
    ∃ sales, Sales sales
        ((Machine.trace (live env json) disk lives).flatMap fun t => t.1.soldIn env json t.2) ∧
      disk'.sales = disk.sales ++ sales.flatMap (entryToLine env) := by
  refine Machine.exec_invariant_trace
    (fun past d => ∃ sales, Sales sales (past.flatMap fun t => t.1.soldIn env json t.2) ∧
      d.sales = disk.sales ++ sales.flatMap (entryToLine env))
    (fun past d life d' holds _ lived => ?_)
    ⟨[], ⟨rfl, fun _ member => absurd member List.not_mem_nil⟩, (List.append_nil _).symm⟩
    (Machine.along_of_mem (fun _ _ _ => trivial) _) ran
  obtain ⟨sales, recorded, file⟩ := holds
  obtain ⟨new, recorded', file'⟩ := sales_of_live lived
  refine ⟨sales ++ new, ⟨?_, ?_⟩, ?_⟩
  · rw [List.map_append, recorded.terms, recorded'.terms, List.flatMap_append, List.flatMap_singleton]
  · intro sale member
    exact (List.mem_append.mp member).elim (recorded.default' sale) (recorded'.default' sale)
  · rw [file', file, List.flatMap_append, List.append_assoc]

/-- The files of a server with an ask and a bid that cross. -/
def crossedDisk : Disk (Option (Json ℚ)) :=
  ⟨[], some (str "1,BTC/USD,ask,4,1\n2,BTC/USD,bid,6,1\n"), none⟩

/-- The orders are matched and the process is ended before the users are saved; the second process is
shut down before it has matched anything. -/
def soldOnce : List (List (Action ℚ)) :=
  [List.replicate 4 .engine ++ [.task 0 (StdSort.insertion _) 0, .cleanup, .cleanup],
    [.engine, .engine, .cleanup, .cleanup, .cleanup, .cleanup]]

theorem sales_appended_once : ∃ disk', Machine.exec (live exactEnv BookRun.exactFiles) crossedDisk soldOnce =
    some disk' ∧ ∃ sales, Sales sales [(str "BTC/USD", 4, 1)] ∧
      disk'.sales = sales.flatMap (entryToLine exactEnv) := by
  obtain ⟨disk', ran, sold⟩ := (Option.any_eq_true _ _).mp
    (show (Machine.exec (live exactEnv BookRun.exactFiles) crossedDisk soldOnce).any (fun _ =>
      decide (((Machine.trace (live exactEnv BookRun.exactFiles) crossedDisk soldOnce).flatMap
        fun t => t.1.soldIn exactEnv BookRun.exactFiles t.2) = [(str "BTC/USD", 4, 1)])) by decide +kernel)
  refine ⟨disk', ran, ?_⟩
  rw [← of_decide_eq_true sold]
  exact sales_appended exactEnv BookRun.exactFiles soldOnce ran

end Disk

end MiniATS
