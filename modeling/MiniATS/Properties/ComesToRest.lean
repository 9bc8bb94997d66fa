import MiniATS.Properties.NoOrderForgotten
import MiniATS.Proofs.Figures
import MiniATS.Proofs.ReturnedPass
import MiniATS.Proofs.Work

/-!
# The server comes to rest

Between two messages the server has a bounded amount of work (`Threads.work`): whatever order the
threads are scheduled in, they answer what they have been sent, the engine empties its queue and
every task runs (`ServerMain.cpp:95-403`). When nothing can move any more, no product whose passes
have all returned is crossed, and what `MARKET` shows of it is a spread.
-/

namespace MiniATS

open OrderBook

variable {R : Type}

namespace Threads

/-- Every client waits for a message or is gone, nothing is queued and no pass is to be run. -/
structure Drained (s : Threads R) : Prop where
  sessions : ∀ c ∈ s.sessions, c.phase.resting
  engine : s.engine = .waiting
  pending : s.server.pendingProducts = []
  tasks : s.tasks = []

instance (s : Threads R) : Decidable s.Drained :=
  have (c : Session R) : Decidable c.phase.resting := decidable_of_iff _ (Phase.resting_iff c.phase).symm
  decidable_of_iff ((∀ c ∈ s.sessions, c.phase.resting) ∧ s.engine = .waiting ∧
      s.server.pendingProducts = [] ∧ s.tasks = [])
    ⟨fun ⟨sessions, engine, pending, tasks⟩ => ⟨sessions, engine, pending, tasks⟩,
      fun rest => ⟨rest.sessions, rest.engine, rest.pending, rest.tasks⟩⟩

theorem Drained.not_awake {s : Threads R} {p : Str} (rest : s.Drained) : ¬ s.Awake p := by
  intro awake
  cases awake with
  | starting engine => cases rest.engine.symm.trans engine
  | enqueuing engine => cases rest.engine.symm.trans engine
  | pending queued => simp [rest.pending] at queued
  | holding engine => cases rest.engine.symm.trans engine
  | launched task => simp [rest.tasks] at task
  | inserted session =>
    obtain ⟨c, member, phase⟩ := session
    have resting := rest.sessions c member
    rw [phase] at resting
    exact resting

variable [Zero R] [Add R] [Sub R] [Mul R] [Div R] [LT R] [LE R] [DecidableLT R] [DecidableLE R] [BEq R]

variable {env : Env R} {s s' : Threads R} {a : Action R} {p : Str}

/-- A server that is not stopped is at rest when no thread has a step to take. -/
theorem drained_of_stuck (runs : s.isStopped = false)
    (stuck : ∀ a : Action R, a.Internal → next env s a = none) : s.Drained := by
  have engine := stuck .engine trivial
  simp only [next, engineStep] at engine
  have waiting : s.engine = .waiting := by
    cases at' : s.engine with
    | waiting => rfl
    | _ => simp [at'] at engine
  refine ⟨fun c member => ?_, waiting, ?_, ?_⟩
  · by_contra busy
    obtain ⟨sid, bound, rfl⟩ := List.getElem_of_mem member
    have still := stuck (.advance sid) trivial
    obtain ⟨r, moved⟩ := Option.isSome_iff_exists.mp (Session.advance_isSome env s.server busy)
    simp [next, List.getElem?_eq_getElem bound, moved] at still
  · cases pending : s.server.pendingProducts with
    | nil => rfl
    | cons product products => simp [waiting, runs, pending] at engine
  · cases tasks : s.tasks with
    | nil => rfl
    | cons product products =>
      have still := stuck (.task 0 (StdSort.insertion _) 0) trivial
      simp [next, tasks] at still

/-- Steps the server takes by itself do not stop it. -/
theorem isStopped_step (internal : a.Internal) (taken : Taken env s a s') :
    s'.isStopped = s.isStopped := by
  cases taken with
  | cleanup moved => exact internal.elim
  | _ => rfl

/-- A step wakes a product, runs a pass over it or leaves no more orders of it than there were. -/
theorem orders_step (filed : s.Filed) (taken : Taken env s a s') (p : Str) :
    s'.Awake p ∨ (∃ ended, s.pass env a = some (p, ended)) ∨
      s'.server.orderBook.orders p ⊆ s.server.orderBook.orders p := by
  have same : s'.server.orderBook = s.server.orderBook →
      s'.server.orderBook.orders p ⊆ s.server.orderBook.orders p := by
    intro book
    rw [book]
    exact List.Subset.refl _
  cases taken with
  | @message sid now data c before after found sessions idle =>
    exact Or.inr (Or.inr (same (Session.receive_book env now s.server c data).book))
  | @advance sid c c' srv before after found sessions moved =>
    cases Session.advanced_book (Session.advanced_of_advance moved) with
    | kept book => exact Or.inr (Or.inr (same book))
    | @inserted o phase server session =>
      by_cases own : p = o.product
      · refine Or.inl (.inserted ⟨c', by simp, ?_⟩)
        rw [session, own]
      · right; right
        rw [server]
        have kept := insertOrder_orders s.server.orderBook o p
        rw [if_neg own] at kept
        intro o' member
        rw [← kept]
        exact member
    | started phase server =>
      right; right
      apply same
      rw [server]
      exact Server.startMatchingProduct_orderBook _ _
    | @removed id phase server =>
      right; right
      rw [server]
      exact (removeOrderById_orders filed.mirrored _ id p).subset
  | @task n std now product before after found tasks =>
    right
    by_cases own : product = p
    · subst own
      exact Or.inl ⟨_, congrArg (Option.map _) found⟩
    · right
      have other := matchAsksToBids_other std s.server.orderBook product
        (Server.getCurrentTimestamp env now) s.server.userStore s.server.nextId (Ne.symm own)
      intro o member
      rw [← other]
      exact member
  | _ => exact Or.inr (Or.inr (same rfl))

/-- Every pass over the product that the steps have run has returned. -/
def Returned (env : Env R) (past : List (Threads R × Action R)) (p : Str) : Prop :=
  ∀ t ∈ past, ∀ ended, t.1.pass env t.2 = some (p, ended) → ∃ sales, ended.result = .ok sales

/-- The same as a computation. -/
def returned (env : Env R) (past : List (Threads R × Action R)) (p : Str) : Bool :=
  past.all fun t => (t.1.pass env t.2).all fun ran => ran.1 != p || ran.2.result.isOk

omit [Div R] in
theorem returned_iff (env : Env R) (past : List (Threads R × Action R)) (p : Str) :
    Returned env past p ↔ returned env past p = true := by
  have ok : ∀ result : Except Exn (List (OrderBookEntry R)),
      result.isOk = true ↔ ∃ sales, result = .ok sales := by
    intro result
    cases result with
    | error e => simp [Except.isOk, Except.toBool]
    | ok sales => simp [Except.isOk, Except.toBool]
  unfold Returned returned
  rw [List.all_eq_true]
  apply forall₂_congr
  intro t member
  cases t.1.pass env t.2 with
  | none => simp
  | some ran =>
    obtain ⟨product, ended⟩ := ran
    by_cases own : product = p <;> simp [own, ok]

instance (env : Env R) (past : List (Threads R × Action R)) (p : Str) : Decidable (Returned env past p) :=
  decidable_of_iff _ (returned_iff env past p).symm

/-- What every pass that returns leaves of its product, and fewer orders still have, holds of every
product that is not awake. -/
theorem awake_or [AmountOrder R] (holds : List (OrderBookEntry R) → Prop)
    (fewer : ∀ {l l'}, l' ⊆ l → holds l → holds l') (nothing : holds [])
    (passed : ∀ (std : StdSort (EntryPtr R)) (book : OrderBook R) (product currentTimestamp : Str)
      (userStore : UserStore R) (nextId : Nat) (sales : List (OrderBookEntry R)),
      (book.matchAsksToBids std product currentTimestamp userStore nextId).result = .ok sales →
      holds ((book.matchAsksToBids std product currentTimestamp userStore nextId).book.orders product))
    {filename : Str} {file : Option Str} {book : OrderBook R} {nextId : Nat}
    (made : OrderBook.make env filename file 1 = .ok (book, nextId)) (store : UserStore R)
    {actions : List (Action R)}
    (ran : Machine.exec (next env) (start book nextId store) actions = some s) :
    ∀ p, s.Awake p ∨ (Returned env (Machine.trace (next env) (start book nextId store) actions) p →
      holds (s.server.orderBook.orders p)) := by
  have both := Machine.exec_invariant_trace
    (fun past s => s.Filed ∧ ∀ p, s.Awake p ∨ (Returned env past p → holds (s.server.orderBook.orders p)))
    (fun past s a s' kept _ step => by
      have taken := taken_of_next step
      refine ⟨kept.1.step taken, fun p => ?_⟩
      have earlier : Returned env (past ++ [(s, a)]) p → Returned env past p :=
        fun returned t member => returned t (List.mem_append_left _ member)
      -- the pass itself, if the step ran one over the product
      have own : (∃ ended, s.pass env a = some (p, ended)) → Returned env (past ++ [(s, a)]) p →
          holds (s'.server.orderBook.orders p) := by
        rintro ⟨ended, ran⟩ returned
        obtain ⟨sales, ok⟩ := returned (s, a) (by simp) ended ran
        cases taken with
        | @task n std now product before after found tasks =>
          simp only [pass, found, Option.map_some, Option.some.injEq, Prod.mk.injEq] at ran
          obtain ⟨rfl, rfl⟩ := ran
          exact passed std _ _ _ _ _ sales ok
        | _ => cases ran
      rcases orders_step kept.1 taken p with awake | ran | less
      · exact Or.inl awake
      · exact Or.inr (own ran)
      rcases kept.2 p with awake | held
      · have stepped : s'.Awake p ∨ Settled env ([] ++ [(s, a)]) s'.server.orderBook p :=
          awake_step awake taken
        rcases stepped with awake | settled
        · exact Or.inl awake
        · right
          intro returned
          by_cases ran : ∃ ended, s.pass env a = some (p, ended)
          · exact own ran returned
          · -- nothing has been passed over, so the list was empty
            have none' : s'.server.orderBook.orders p = [] := by
              apply List.eq_nil_iff_forall_not_mem.mpr
              intro o member
              obtain ⟨t, taken, ended, -⟩ := settled.seen o member
              obtain rfl := List.mem_singleton.mp taken
              exact ran ended
            rw [none']
            exact nothing
      · exact Or.inr fun returned => fewer less (held (earlier returned)))
    ⟨.start (make_loaded made) store, fun p => Or.inl (.starting rfl)⟩
    (Machine.along_of_mem (fun _ _ _ => trivial) _) ran
  exact both.2

/-- What is left to do bounds every run of the server by itself, some such run ends at rest, and every
one that no thread can go on with does, with no product crossed whose passes have all returned. -/
theorem comes_to_rest [AmountOrder R] (env : Env R) {filename : Str} {file : Option Str}
    {book : OrderBook R} {nextId : Nat}
    (made : OrderBook.make env filename file 1 = .ok (book, nextId)) (store : UserStore R)
    (actions : List (Action R))
    (ran : Machine.exec (next env) (start book nextId store) actions = some s)
    (runs : s.isStopped = false) :
    (∃ more s', (∀ a ∈ more, a.Internal) ∧ Machine.exec (next env) s more = some s' ∧ s'.Drained) ∧
    ∀ more s', (∀ a ∈ more, a.Internal) → Machine.exec (next env) s more = some s' →
      more.length + s'.work ≤ s.work ∧
      ((∀ a : Action R, a.Internal → next env s' a = none) → s'.Drained ∧ ∀ p,
        Returned env (Machine.trace (next env) (start book nextId store) (actions ++ more)) p →
          Uncrossed (s'.server.orderBook.orders p)) := by
  have lowers : ∀ s a s', True → Action.Internal a → next env s a = some s' → s'.work < s.work :=
    fun _ _ _ _ internal step => work_step internal (taken_of_next step)
  have still : ∀ {more : List (Action R)} {s'}, (∀ a ∈ more, a.Internal) →
      Machine.exec (next env) s more = some s' → s'.isStopped = false := by
    intro more s' internal ran'
    exact Machine.exec_invariant (fun s => s.isStopped = false)
      (fun _ _ _ running may step => (isStopped_step may (taken_of_next step)).trans running) runs
      (Machine.along_of_mem (fun a member _ => internal a member) s) ran'
  constructor
  · obtain ⟨more, s', internal, ran', stuck⟩ :=
      Machine.exists_stuck work (fun _ => True) (fun _ _ _ _ _ _ => trivial) lowers s trivial
    exact ⟨more, s', internal, ran', drained_of_stuck (still internal ran') stuck⟩
  · intro more s' internal ran'
    constructor
    · have spent := Machine.exec_spends work (fun _ => True) (fun _ => 1)
        (fun _ _ _ _ _ _ => trivial)
        (fun s a s' holds may step => by have := lowers s a s' holds may step; omega)
        trivial internal ran'
      simpa using spent
    · intro stuck
      have rest := drained_of_stuck (still internal ran') stuck
      have whole : Machine.exec (next env) (start book nextId store) (actions ++ more) = some s' := by
        rw [Machine.exec_append, ran]
        exact ran'
      refine ⟨rest, fun p returned => ?_⟩
      exact (awake_or Uncrossed
        (fun fewer held ask isAsk bid isBid => held ask (fewer isAsk) bid (fewer isBid))
        (fun _ member => absurd member List.not_mem_nil)
        (fun _ _ _ _ _ _ _ => matchAsksToBids_uncrossed) made store whole p).resolve_left
        rest.not_awake returned

/-- Alice's bid has its funds reserved and is still to be inserted. -/
def aliceBids : List (Action ℚ) :=
  [.connect, .message 0 0 (str "REGISTER alice pw"), .advance 0,
    .message 0 0 (str "DEPOSIT usd 9"), .message 0 0 (str "BID btc/usd 1 4")]

theorem comes_to_rest_inserting : ∃ s, Machine.exec (next exactEnv) fresh aliceBids = some s ∧
    0 < s.inflight.length ∧ ∃ more s', (∀ a ∈ more, a.Internal) ∧
      Machine.exec (next exactEnv) s more = some s' ∧ s'.Drained := by
  obtain ⟨s, ran, found⟩ := (Option.any_eq_true _ _).mp
    (show (Machine.exec (next exactEnv) fresh aliceBids).any (fun s =>
      0 < s.inflight.length && s.isStopped == false) by decide +kernel)
  obtain ⟨flies, runs⟩ := (Bool.and_eq_true _ _).mp found
  exact ⟨s, ran, of_decide_eq_true flies,
    (comes_to_rest exactEnv (System.fresh_book exactEnv) .empty aliceBids ran (beq_iff_eq.mp runs)).1⟩

section Quotes

variable {env : Env ℚ} {s : Threads ℚ} {p : Str}

/-- What `STATS` and `MARKET` show of a product when the server has come to rest and every pass over
it has returned: the bids are below the asks, and each average is on its own side of the spread. -/
theorem quotes_apart (env : Env ℚ) {filename : Str} {file : Option Str} {book : OrderBook ℚ}
    {nextId : Nat} (made : OrderBook.make env filename file 1 = .ok (book, nextId))
    (store : UserStore ℚ) (actions : List (Action ℚ))
    (ran : Machine.exec (next env) (start book nextId store) actions = some s) (rest : s.Drained)
    (returned : Returned env (Machine.trace (next env) (start book nextId store) actions) p)
    (someBids : getOrders (s.server.orderBook.orders p) .bid ≠ [])
    (someAsks : getOrders (s.server.orderBook.orders p) .ask ≠ []) :
    let bids := getOrders (s.server.orderBook.orders p) .bid
    let asks := getOrders (s.server.orderBook.orders p) .ask
    0 < Server.getTotalVolume bids ∧ 0 < Server.getTotalVolume asks ∧
      Server.getAvgPrice bids ≤ Server.getHighPrice bids ∧
      Server.getHighPrice bids < Server.getLowPrice asks ∧
      Server.getLowPrice asks ≤ Server.getAvgPrice asks := by
  intro bids asks
  have uncrossed := ((awake_or Uncrossed
    (fun fewer held ask isAsk bid isBid => held ask (fewer isAsk) bid (fewer isBid))
    (fun _ member => absurd member List.not_mem_nil)
    (fun _ _ _ _ _ _ _ => matchAsksToBids_uncrossed) made store ran p).resolve_left
    rest.not_awake) returned
  have positive := ((awake_or (fun l => ∀ o ∈ l, ¬ o.amount ≤ 0)
    (fun fewer held o member => held o (fewer member))
    (fun _ member => absurd member List.not_mem_nil)
    (fun _ _ _ _ _ _ _ => positive_of_returned) made store ran p).resolve_left
    rest.not_awake) returned
  have stands : ∀ {type : OrderBookType} {e : EntryPtr ℚ},
      e ∈ getOrders (s.server.orderBook.orders p) type →
      e.entry ∈ s.server.orderBook.orders p ∧ e.entry.orderType = type := by
    intro type e member
    obtain ⟨there, isType⟩ := mem_getOrders.mp member
    exact ⟨List.mem_of_getElem? there, isType⟩
  have bidsPositive : ∀ e ∈ bids, 0 < e.entry.amount :=
    fun e member => not_le.mp (positive e.entry (stands member).1)
  have asksPositive : ∀ e ∈ asks, 0 < e.entry.amount :=
    fun e member => not_le.mp (positive e.entry (stands member).1)
  obtain ⟨highest, best, isBid, high⟩ := Server.getHighPrice_best someBids
  obtain ⟨lowest, cheapest, isAsk, low⟩ := Server.getLowPrice_best someAsks
  refine ⟨Server.getTotalVolume_pos someBids bidsPositive,
    Server.getTotalVolume_pos someAsks asksPositive, ?_, ?_, ?_⟩
  · obtain ⟨lowest', least, -⟩ := Server.getLowPrice_best someBids
    exact (Server.getAvgPrice_between someBids bidsPositive
      fun e member => ⟨lowest' e member, highest e member⟩).2
  · -- the best bid and the best ask are two of the orders, which do not cross
    have apart := uncrossed cheapest.entry (stands isAsk).1 best.entry (stands isBid).1
      (stands isAsk).2 (stands isBid).2
    rw [high, low]
    by_contra crossed
    exact apart ⟨asksPositive _ isAsk, bidsPositive _ isBid, not_lt.mp crossed⟩
  · obtain ⟨highest', most, -⟩ := Server.getHighPrice_best someAsks
    exact (Server.getAvgPrice_between someAsks asksPositive
      fun e member => ⟨lowest e member, highest' e member⟩).1

/-- Alice has placed a bid and an ask that do not cross, and everything has run. -/
def aliceQuotes : List (Action ℚ) :=
  [.engine, .engine] ++ aliceBids ++ [.advance 0, .advance 0, .message 0 0 (str "DEPOSIT btc 2"),
    .message 0 0 (str "ASK btc/usd 1 6"), .advance 0, .advance 0, .engine, .engine,
    .task 0 (StdSort.insertion _) 0]

theorem quotes_apart_alice : ∃ s, Machine.exec (next exactEnv) fresh aliceQuotes = some s ∧
    let bids := getOrders (s.server.orderBook.orders (str "BTC/USD")) .bid
    let asks := getOrders (s.server.orderBook.orders (str "BTC/USD")) .ask
    Server.getHighPrice bids < Server.getLowPrice asks := by
  obtain ⟨s, ran, found⟩ := (Option.any_eq_true _ _).mp
    (show (Machine.exec (next exactEnv) fresh aliceQuotes).any (fun s => decide (s.Drained) &&
      !(getOrders (s.server.orderBook.orders (str "BTC/USD")) .bid).isEmpty &&
      !(getOrders (s.server.orderBook.orders (str "BTC/USD")) .ask).isEmpty) by decide +kernel)
  simp only [Bool.and_eq_true, decide_eq_true_eq, Bool.not_eq_true', List.isEmpty_eq_false_iff] at found
  obtain ⟨⟨rest, someBids⟩, someAsks⟩ := found
  obtain ⟨-, -, -, apart, -⟩ := quotes_apart exactEnv (System.fresh_book exactEnv) .empty aliceQuotes ran
    rest (show Returned exactEnv (Machine.trace (next exactEnv) fresh aliceQuotes) (str "BTC/USD") by
      decide +kernel) someBids someAsks
  exact ⟨s, ran, apart⟩

end Quotes

end Threads

end MiniATS
