import MiniATS.Proofs.PassSpares
import MiniATS.Proofs.PassUncrosses
import MiniATS.Proofs.SerialSound
import MiniATS.Proofs.ThreadBook

/-!
# No order is forgotten

An order is followed by a wake-up of its product, and a wake-up is never lost: a product for which
an order has been inserted is in the queue, in the engine's hand or in a task until a pass over it
begins (`ServerMain.cpp:186-197`, `350-403`). `Awake` says where the wake-up is, `Settled` what the
last pass has left; every step keeps every product in one of the two.
-/

namespace MiniATS

open Str OrderBook

variable {R : Type}

namespace OrderBook

/-- The list of a product in one book has come from its list in another: orders have gone and
amounts have changed, nothing else. -/
def CameFrom (book was : OrderBook R) (p : Str) : Prop :=
  ∀ o ∈ book.orders p, ∃ o' ∈ was.orders p, SameOrder o' o

end OrderBook

section

variable [Zero R] [Add R] [Sub R] [Mul R] [LT R] [LE R] [DecidableLT R] [DecidableLE R] [BEq R]

/-- A pass brings in no order. -/
theorem OrderBook.matchAsksToBids_cameFrom (std : StdSort (EntryPtr R)) (book : OrderBook R)
    (product currentTimestamp : Str) (userStore : UserStore R) (nextId : Nat) (p : Str) :
    (book.matchAsksToBids std product currentTimestamp userStore nextId).book.CameFrom book p := by
  intro o member
  have blank := matchAsksToBids_fields (f := fun o : OrderBookEntry R => o.withAmount 0)
    (fun _ _ => rfl) std book product currentTimestamp userStore nextId p
  obtain ⟨o', was, same⟩ := List.mem_map.mp (blank.subset (List.mem_map_of_mem member))
  refine ⟨o', was, o.amount, ?_⟩
  exact (congrArg (·.withAmount o.amount) same).symm

end

namespace Threads

/-- The product is in the queue, on its way there, in the engine's hand or in a task. -/
inductive Awake (s : Threads R) (p : Str) : Prop
  | starting (engine : s.engine = .starting)
  | enqueuing {products : List Str} (engine : s.engine = .enqueuing products) (listed : p ∈ products)
  | pending (queued : p ∈ s.server.pendingProducts)
  | holding (engine : s.engine = .holding p)
  | launched (task : p ∈ s.tasks)
  | inserted (session : ∃ c ∈ s.sessions, c.phase = .starting p)

/-- The steps that leave the engine where it is. -/
theorem Awake.mono {s s' : Threads R} {p : Str} (awake : s.Awake p) (engine : s'.engine = s.engine)
    (queued : p ∈ s.server.pendingProducts → p ∈ s'.server.pendingProducts)
    (task : p ∈ s.tasks → p ∈ s'.tasks)
    (session : (∃ c ∈ s.sessions, c.phase = .starting p) → ∃ c ∈ s'.sessions, c.phase = .starting p) :
    s'.Awake p := by
  cases awake with
  | starting at' => exact .starting (engine.trans at')
  | enqueuing at' listed => exact .enqueuing (engine.trans at') listed
  | pending was => exact .pending (queued was)
  | holding at' => exact .holding (engine.trans at')
  | launched was => exact .launched (task was)
  | inserted was => exact .inserted (session was)

/-- The engine has put the known products into the queue. -/
def Enqueued (s : Threads R) : Prop :=
  s.engine ≠ .starting ∧ ∀ products, s.engine ≠ .enqueuing products

/-- The product is not pending, the engine does not hold it, no task is still to run its pass, and
no client is between `insertOrder` and `startMatchingProduct` for it. -/
structure Quiet (s : Threads R) (p : Str) : Prop where
  pending : p ∉ s.server.pendingProducts
  holding : s.engine ≠ .holding p
  tasks : p ∉ s.tasks
  sessions : ∀ c ∈ s.sessions, c.phase ≠ .starting p

theorem Quiet.not_awake {s : Threads R} {p : Str} (quiet : s.Quiet p) (enqueued : s.Enqueued) :
    ¬ s.Awake p := by
  intro awake
  cases awake with
  | starting engine => exact enqueued.1 engine
  | enqueuing engine => exact enqueued.2 _ engine
  | pending queued => exact quiet.pending queued
  | holding engine => exact quiet.holding engine
  | launched task => exact quiet.tasks task
  | inserted session =>
    obtain ⟨c, member, phase⟩ := session
    exact quiet.sessions c member phase

variable [Zero R] [Add R] [Sub R] [Mul R] [Div R] [LT R] [LE R] [DecidableLT R] [DecidableLE R]
  [BEq R]

/-- Some step taken so far ran a pass over the product, and the product's orders have come from
the book it began with; if no pass over it threw, none of them cross. -/
structure Settled (env : Env R) (past : List (Threads R × Action R)) (book : OrderBook R) (p : Str) :
    Prop where
  seen : ∀ o ∈ book.orders p, ∃ t ∈ past, (∃ ended, t.1.pass env t.2 = some (p, ended)) ∧
    ∃ o' ∈ t.1.server.orderBook.orders p, SameOrder o' o
  uncrossed : (∀ t ∈ past, ∀ ended, t.1.pass env t.2 = some (p, ended) →
    ∃ sales, ended.result = .ok sales) → Uncrossed (book.orders p)

namespace Settled

variable {env : Env R} {past past' : List (Threads R × Action R)} {book book' : OrderBook R} {p : Str}

omit [Div R] in
theorem mono (settled : Settled env past book p) (more : past ⊆ past')
    (fewer : book'.orders p ⊆ book.orders p) : Settled env past' book' p where
  seen := by
    intro o member
    obtain ⟨t, taken, found⟩ := settled.seen o (fewer member)
    exact ⟨t, more taken, found⟩
  uncrossed := by
    intro returned ask isAsk bid isBid
    exact settled.uncrossed (fun t taken => returned t (more taken)) ask (fewer isAsk) bid (fewer isBid)

omit [Div R] in
theorem of_empty (empty : book.orders p = []) : Settled env past book p where
  seen := by
    rw [empty]
    exact fun _ member => nomatch member
  uncrossed := by
    rw [empty]
    exact fun _ _ member => nomatch member

omit [Div R] in
/-- A product is settled when its pass has run. -/
theorem of_pass [AmountOrder R] {s : Threads R} {n : Nat} {std : StdSort (EntryPtr R)} {now : Int}
    (found : s.tasks[n]? = some p) :
    Settled env (past ++ [(s, .task n std now)]) (s.server.matchProduct env std now p).1.orderBook p where
  seen := by
    intro o member
    refine ⟨(s, .task n std now), by simp, ⟨_, congrArg (Option.map _) found⟩, ?_⟩
    exact matchAsksToBids_cameFrom std _ p _ _ _ p o member
  uncrossed := by
    intro returned
    obtain ⟨sales, ok⟩ := returned (s, .task n std now) (by simp) _ (congrArg (Option.map _) found)
    exact matchAsksToBids_uncrossed ok

end Settled

variable {env : Env R} {s s' : Threads R} {a : Action R} {p : Str} {past : List (Threads R × Action R)}

omit [Zero R] [Add R] [Sub R] [Mul R] [Div R] [LT R] [LE R] [DecidableLT R] [DecidableLE R] [BEq R] in
/-- What a session is about to wake when only another one moves. -/
theorem starting_of_sessions {before after : List (Session R)} {c c' : Session R}
    (sessions : s.sessions = before ++ c :: after) (idle : c.phase ≠ .starting p)
    (starting : ∃ d ∈ s.sessions, d.phase = .starting p) :
    ∃ d ∈ before ++ c' :: after, d.phase = .starting p := by
  obtain ⟨d, member, phase⟩ := starting
  rw [sessions] at member
  refine ⟨d, ?_, phase⟩
  rcases List.mem_append.mp member with earlier | rest
  · exact List.mem_append_left _ earlier
  · rcases List.mem_cons.mp rest with rfl | later
    · exact absurd phase idle
    · exact List.mem_append_right _ (List.mem_cons_of_mem _ later)

/-- A step keeps the wake-up of a product, or it is the pass over the product. -/
theorem awake_step [AmountOrder R] (awake : s.Awake p) (taken : Taken env s a s') :
    s'.Awake p ∨ Settled env (past ++ [(s, a)]) s'.server.orderBook p := by
  cases taken with
  | connect =>
    exact Or.inl (awake.mono rfl id id fun ⟨c, member, phase⟩ =>
      ⟨c, List.mem_append_left _ member, phase⟩)
  | @message sid now data c before after found sessions idle =>
    have received := Session.receive_book env now s.server c data
    refine Or.inl (awake.mono rfl (fun queued => ?_) id (starting_of_sessions sessions (by simp [idle])))
    rw [received.pending]
    exact queued
  | @advance sid c c' srv before after found sessions moved =>
    left
    cases Session.advanced_book (Session.advanced_of_advance moved) with
    | kept book pending nextId flew lands notStarted =>
      refine awake.mono rfl (fun queued => ?_) id (starting_of_sessions sessions (notStarted p))
      rw [pending]
      exact queued
    | inserted phase server session =>
      refine awake.mono rfl (fun queued => ?_) id (starting_of_sessions sessions (by simp [phase]))
      rw [server]
      exact queued
    | @started product phase server lands =>
      have pending : product ∈ srv.pendingProducts ∧ s.server.pendingProducts ⊆ srv.pendingProducts := by
        rw [server]
        unfold Server.startMatchingProduct
        split
        · exact ⟨‹_›, List.Subset.refl _⟩
        · exact ⟨by simp, List.subset_append_left _ _⟩
      by_cases own : product = p
      · exact .pending (own ▸ pending.1)
      · exact awake.mono rfl (fun queued => pending.2 queued) id
          (starting_of_sessions sessions (by simpa [phase] using own))
    | removed phase server lands =>
      refine awake.mono rfl (fun queued => ?_) id (starting_of_sessions sessions (by simp [phase]))
      rw [server]
      exact queued
  | readProducts engine =>
    by_cases known : p ∈ s.server.orderBook.getKnownProducts
    · exact Or.inl (.enqueuing rfl known)
    · -- a product without a list has no orders
      refine Or.inr (.of_empty (orders_of_lookup_none ?_))
      exact AList.lookup_eq_none.mpr known
  | @enqueue products engine =>
    left
    cases awake with
    | starting at' => cases engine.symm.trans at'
    | enqueuing at' listed =>
      cases engine.symm.trans at'
      exact .pending (List.mem_append_right _ listed)
    | pending queued => exact .pending (List.mem_append_left _ queued)
    | holding at' => cases engine.symm.trans at'
    | launched task => exact .launched task
    | inserted session => exact .inserted session
  | @pop product products engine pending =>
    left
    cases awake with
    | starting at' => cases engine.symm.trans at'
    | enqueuing at' => cases engine.symm.trans at'
    | pending queued =>
      rw [pending] at queued
      rcases List.mem_cons.mp queued with rfl | later
      · exact .holding rfl
      · exact .pending later
    | holding at' => cases engine.symm.trans at'
    | launched task => exact .launched task
    | inserted session => exact .inserted session
  | @launch product engine =>
    left
    cases awake with
    | starting at' => cases engine.symm.trans at'
    | enqueuing at' => cases engine.symm.trans at'
    | pending queued => exact .pending queued
    | holding at' =>
      cases engine.symm.trans at'
      exact .launched (List.mem_append_right _ (List.mem_singleton_self p))
    | launched task => exact .launched (List.mem_append_left _ task)
    | inserted session => exact .inserted session
  | @task n std now product before after found tasks =>
    by_cases own : product = p
    · subst own
      exact Or.inr (.of_pass found)
    · refine Or.inl (awake.mono rfl id (fun launched => ?_) id)
      rw [tasks] at launched
      rcases List.mem_append.mp launched with earlier | rest
      · exact List.mem_append_left _ earlier
      · exact List.mem_append_right _ ((List.mem_cons.mp rest).resolve_left (Ne.symm own))
  | cleanup moved => exact Or.inl (awake.mono rfl id id id)

/-- A step leaves a settled product settled, or it inserts an order. -/
theorem settled_step [AmountOrder R] (filed : s.Filed) (settled : Settled env past s.server.orderBook p)
    (taken : Taken env s a s') :
    s'.Awake p ∨ Settled env (past ++ [(s, a)]) s'.server.orderBook p := by
  have more : past ⊆ past ++ [(s, a)] := List.subset_append_left _ _
  cases taken with
  | @message sid now data c before after found sessions idle =>
    right
    rw [(Session.receive_book env now s.server c data).book]
    exact settled.mono more (List.Subset.refl _)
  | @advance sid c c' srv before after found sessions moved =>
    cases Session.advanced_book (Session.advanced_of_advance moved) with
    | kept book =>
      right
      rw [book]
      exact settled.mono more (List.Subset.refl _)
    | @inserted o phase server session =>
      by_cases own : p = o.product
      · refine Or.inl (.inserted ⟨c', by simp, ?_⟩)
        rw [session, own]
      · right
        rw [server]
        have same := insertOrder_orders s.server.orderBook o p
        rw [if_neg own] at same
        exact settled.mono more fun _ => same ▸ id
    | started phase server =>
      right
      rw [server]
      apply settled.mono more
      rw [Server.startMatchingProduct_orderBook]
      exact List.Subset.refl _
    | @removed id phase server =>
      right
      rw [server]
      exact settled.mono more (removeOrderById_orders filed.mirrored _ id p).subset
  | @task n std now product before after found tasks =>
    right
    by_cases own : product = p
    · subst own
      exact .of_pass found
    · have other := matchAsksToBids_other std s.server.orderBook product
        (Server.getCurrentTimestamp env now) s.server.userStore s.server.nextId (Ne.symm own)
      apply settled.mono more
      intro o member
      rw [← other]
      exact member
  | _ => exact Or.inr (settled.mono more (List.Subset.refl _))

/-- After every run every product is awake or settled. -/
theorem awake_or_settled [AmountOrder R] (env : Env R) {filename : Str} {file : Option Str}
    {book : OrderBook R} {nextId : Nat}
    (made : OrderBook.make env filename file 1 = .ok (book, nextId)) (store : UserStore R)
    (actions : List (Action R))
    (ran : Machine.exec (next env) (start book nextId store) actions = some s) :
    s.Filed ∧ ∀ p, s.Awake p ∨
      Settled env (Machine.trace (next env) (start book nextId store) actions) s.server.orderBook p :=
  Machine.exec_invariant_trace
    (fun past s => s.Filed ∧ ∀ p, s.Awake p ∨ Settled env past s.server.orderBook p)
    (fun past s a s' holds _ step => by
      have taken := taken_of_next step
      refine ⟨holds.1.step taken, fun p => ?_⟩
      rcases holds.2 p with awake | settled
      · exact awake_step awake taken
      · exact settled_step holds.1 settled taken)
    ⟨.start (make_loaded made) store, fun p => Or.inl (.starting rfl)⟩
    (Machine.along_of_mem (fun _ _ _ => trivial) _) ran

/-- No order is forgotten: a product that nothing is to be done for holds only orders that a pass
over it has begun with, and if every pass over it has returned, none of them cross. -/
theorem no_order_forgotten [AmountOrder R] (env : Env R) {filename : Str} {file : Option Str}
    {book : OrderBook R} {nextId : Nat}
    (made : OrderBook.make env filename file 1 = .ok (book, nextId)) (store : UserStore R)
    (actions : List (Action R))
    (ran : Machine.exec (next env) (start book nextId store) actions = some s)
    (enqueued : s.Enqueued) (quiet : s.Quiet p) :
    Settled env (Machine.trace (next env) (start book nextId store) actions) s.server.orderBook p :=
  ((awake_or_settled env made store actions ran).2 p).resolve_left (quiet.not_awake enqueued)

/-- Bob's bid is inserted while the task for the ask and the bid of the orders file is still to run,
and the engine takes it up later. -/
def bidWhileLaunched : List (Action ℚ) :=
  [.engine, .engine, .connect, .message 0 0 (str "REGISTER bob pw"), .advance 0,
    .message 0 0 (str "DEPOSIT usd 9"), .engine, .engine, .message 0 0 (str "BID btc/usd 1 6"),
    .advance 0, .task 0 (StdSort.insertion _) 0, .advance 0, .engine, .engine,
    .task 0 (StdSort.insertion _) 0]

/-- A session that handles no message. -/
def isIdle (c : Session R) : Bool :=
  match c.phase with
  | .idle => true
  | _ => false

theorem no_order_forgotten_launched : ∃ s ∈ crossedFile, ∃ s',
    Machine.exec (next exactEnv) s bidWhileLaunched = some s' ∧
      (s'.server.orderBook.orders (str "BTC/USD")).map (fun o => (o.id, o.amount)) = [(3, 1)] ∧
      Settled exactEnv (Machine.trace (next exactEnv) s bidWhileLaunched) s'.server.orderBook
        (str "BTC/USD") := by
  obtain ⟨s, is, found⟩ := (Option.any_eq_true _ _).mp
    (show crossedFile.any (fun s => (Machine.exec (next exactEnv) s bidWhileLaunched).any (fun s' =>
      (s'.server.orderBook.orders (str "BTC/USD")).map (fun o => (o.id, o.amount)) = [(3, 1)] &&
        decide (s'.engine = .waiting) && s'.server.pendingProducts.isEmpty && s'.tasks.isEmpty &&
        s'.sessions.all isIdle)) by
      decide +kernel)
  obtain ⟨s', ran, found⟩ := (Option.any_eq_true _ _).mp found
  simp only [Bool.and_eq_true, decide_eq_true_eq, List.isEmpty_iff, List.all_eq_true] at found
  obtain ⟨⟨⟨⟨orders, waiting⟩, pending⟩, tasks⟩, idle⟩ := found
  obtain ⟨book, nextId, made, rfl⟩ := mem_crossedFile is
  refine ⟨_, is, s', ran, orders, no_order_forgotten exactEnv made .empty bidWhileLaunched ran
    ⟨by simp [waiting], by simp [waiting]⟩ ⟨by simp [pending], by simp [waiting], by simp [tasks], ?_⟩⟩
  intro c member phase
  have := idle c member
  simp [isIdle, phase] at this

end Threads

end MiniATS
