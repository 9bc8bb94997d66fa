import MiniATS.Proofs.SerialBook
import MiniATS.Server.Threads

/-!
# The steps of interleaved runs

`Taken` is the inversion of one step: which thread moved, from where, and what it left. A step
of a session changes that session and the server only, so the sessions are split around it.
`receive_cases`, `Advanced` and `Reported` are the inversions of what a session does, for any
type of numbers, and `Threads.sessions_step` carries a property of a session through them.
-/

namespace MiniATS

variable {R : Type}

section Sessions

/-- The order a session has reserved funds for and not inserted yet. -/
def Session.inflight (c : Session R) : Option (OrderBookEntry R) :=
  match c.phase with
  | .inserting order => some order
  | _ => none

/-- The id of the order that a session is about to remove. -/
def Session.removes (c : Session R) : Option Nat :=
  match c.phase with
  | .removing id => some id
  | _ => none

/-- The orders in flight. -/
def Threads.inflight (s : Threads R) : List (OrderBookEntry R) := s.sessions.filterMap Session.inflight

theorem Threads.inflight_perm {s : Threads R} {before after : List (Session R)} {c : Session R}
    (sessions : s.sessions = before ++ c :: after) :
    s.inflight.Perm (c.inflight.toList ++ (before ++ after).filterMap Session.inflight) := by
  unfold Threads.inflight
  rw [sessions, List.filterMap_append, List.filterMap_append]
  cases found : c.inflight with
  | none => rw [List.filterMap_cons_none found]; exact List.Perm.refl _
  | some order => rw [List.filterMap_cons_some found]; exact List.perm_middle

/-- What holds of every session but one, and of what that one has become, holds of all. -/
theorem Threads.forall_sessions {before after : List (Session R)} {c c' : Session R}
    {holds : Session R → Prop} (all : ∀ d ∈ before ++ c :: after, holds d) (new : holds c') :
    ∀ d ∈ before ++ c' :: after, holds d := by
  intro d member
  rcases List.mem_append.mp member with inBefore | member
  · exact all d (List.mem_append_left _ inBefore)
  rcases List.mem_cons.mp member with rfl | inAfter
  · exact new
  · exact all d (List.mem_append_right _ (List.mem_cons_of_mem _ inAfter))

theorem Threads.mem_sessions {s : Threads R} {before after : List (Session R)} {c : Session R}
    (sessions : s.sessions = before ++ c :: after) : c ∈ s.sessions := by
  rw [sessions]
  simp

@[simp] theorem Session.answer_username (c : Session R) (reply : Reply) :
    (c.answer reply).username = c.username := rfl

@[simp] theorem Session.answer_log (c : Session R) (reply : Reply) :
    (c.answer reply).log = c.log ++ [(c.message, reply)] := rfl

theorem Session.answer_phase (c : Session R) (reply : Reply) :
    (c.answer reply).phase = .idle ∨ (c.answer reply).phase = .ended := by
  unfold Session.answer
  dsimp only
  split
  · exact Or.inr rfl
  · exact Or.inl rfl

theorem Session.inflight_of_phase {c : Session R} (other : ∀ o, c.phase ≠ .inserting o) :
    c.inflight = none := by
  unfold Session.inflight
  split
  · exact absurd ‹_› (other _)
  · rfl

@[simp] theorem Session.answer_inflight (c : Session R) (reply : Reply) :
    (c.answer reply).inflight = none := by
  unfold Session.inflight
  rcases c.answer_phase reply with phase | phase <;> rw [phase]

/-- The commands that lead to a phase. -/
def Phase.commands : Phase R → Option (List Str)
  | .registering _ _ => some [str "REGISTER"]
  | .loggingIn _ _ => some [str "LOGIN"]
  | .inserting _ | .starting _ => some [str "ASK", str "BID"]
  | .unlocking _ | .removing _ => some [str "CANCEL"]
  | .reporting _ => some [str "MARKET", str "STATS"]
  | .idle | .undefined | .ended => none

/-- The user whom a session is about to become. -/
def Phase.entering : Phase R → Option Str
  | .registering u _ | .loggingIn u _ => some u
  | _ => none

namespace Session

variable {c c' : Session R}

/-- The session is not the user `default`'s, and is not about to become so. -/
structure NotDefault (c : Session R) : Prop where
  user : c.username ≠ defaultUser
  entering : ∀ u ∈ c.phase.entering, u ≠ defaultUser

/-- The session is in a phase of the message that it is handling. -/
def Coherent (c : Session R) : Prop :=
  ∀ names ∈ c.phase.commands, Server.commandOf (Server.tokenise c.message) ∈ names

/-- What a session in the middle of one command is not handling. -/
theorem Coherent.other (coherent : c.Coherent) {phase : Phase R} (is : c.phase = phase)
    {names : List Str} (commands : phase.commands = some names) {name : Str} (different : name ∉ names) :
    Server.commandOf (Server.tokenise c.message) ≠ name :=
  fun same => different (same ▸ coherent names (by rw [is, commands]; rfl))

theorem Coherent.of_commands {names : List Str} (commands : c.phase.commands = some names)
    (command : Server.commandOf (Server.tokenise c.message) ∈ names) : c.Coherent := by
  intro names' found
  rw [commands] at found
  exact Option.some.inj found ▸ command

theorem Coherent.of_phase (coherent : c.Coherent) (message : c'.message = c.message)
    (commands : c'.phase.commands = c.phase.commands) : c'.Coherent := by
  intro names found
  rw [message]
  exact coherent names (commands ▸ found)

theorem coherent_answer (c : Session R) (reply : Reply) : (c.answer reply).Coherent := by
  intro names found
  rcases c.answer_phase reply with phase | phase <;> rw [phase] at found <;> cases found

end Session

end Sessions

section Cleanup

/-- What has been written when `cleanup` is done with the files. -/
def Shutdown.exports : Shutdown R → Option (Exports R)
  | .saved exports | .stopped exports => some exports
  | _ => none

/-- A step of `cleanup` that finds this state. -/
inductive Shutdown.Reads (now : Exports R) : Shutdown R → Shutdown R → Prop
  | sales : Reads now .running (.savedSales now.sales)
  | orders {sales : List (OrderBookEntry R)} :
    Reads now (.savedSales sales) (.savedOrders sales now.orders)
  | users {sales orders : List (OrderBookEntry R)} :
    Reads now (.savedOrders sales orders) (.saved ⟨sales, orders, now.users⟩)
  | stop {exports : Exports R} : Reads now (.saved exports) (.stopped exports)

/-- The finalised sales, the open orders and the users as they are now. -/
def Threads.exportsNow (s : Threads R) : Exports R :=
  ⟨s.server.orderBook.getSales, s.server.orderBook.getAllOrders, s.server.userStore⟩

end Cleanup

variable [Zero R] [Add R] [Sub R] [Mul R] [Div R] [LT R] [LE R] [DecidableLT R] [DecidableLE R]
  [BEq R]

namespace Threads

/-- The pass a step runs: its product, and how it ends. -/
def pass (env : Env R) (s : Threads R) : Action R → Option (Str × OrderBook.PassEnd R)
  | .task n std now =>
    s.tasks[n]?.map fun product => (product, (s.server.matchProduct env std now product).2)
  | _ => none

/-- The steps of a run, by the thread that takes them. -/
inductive Taken (env : Env R) (s : Threads R) : Action R → Threads R → Prop
  | connect : Taken env s .connect { s with sessions := s.sessions ++ [.connected] }
  | message {sid : Nat} {now : Int} {data : Str} {c : Session R} {before after : List (Session R)}
    (found : s.sessions[sid]? = some c) (sessions : s.sessions = before ++ c :: after)
    (idle : c.phase = .idle) :
    Taken env s (.message sid now data)
      { s with server := (c.receive env now s.server data).1
               sessions := before ++ (c.receive env now s.server data).2 :: after }
  | advance {sid : Nat} {c c' : Session R} {srv : Server R} {before after : List (Session R)}
    (found : s.sessions[sid]? = some c) (sessions : s.sessions = before ++ c :: after)
    (moved : c.advance env s.server = some (srv, c')) :
    Taken env s (.advance sid) { s with server := srv, sessions := before ++ c' :: after }
  | readProducts (engine : s.engine = .starting) :
    Taken env s .engine { s with engine := .enqueuing s.server.orderBook.getKnownProducts }
  | enqueue {products : List Str} (engine : s.engine = .enqueuing products) :
    Taken env s .engine
      { s.withPending (s.server.pendingProducts ++ products) with engine := .waiting }
  | pop {product : Str} {products : List Str} (engine : s.engine = .waiting)
    (pending : s.server.pendingProducts = product :: products) :
    Taken env s .engine { s.withPending products with engine := .holding product }
  | launch {product : Str} (engine : s.engine = .holding product) :
    Taken env s .engine { s with tasks := s.tasks ++ [product], engine := .waiting }
  | task {n : Nat} {std : StdSort (EntryPtr R)} {now : Int} {product : Str} {before after : List Str}
    (found : s.tasks[n]? = some product) (tasks : s.tasks = before ++ product :: after) :
    Taken env s (.task n std now)
      { s with server := (s.server.matchProduct env std now product).1, tasks := before ++ after }
  | cleanup {shutdown : Shutdown R} (moved : s.cleanupStep = some { s with shutdown }) :
    Taken env s .cleanup { s with shutdown }

omit [Zero R] [Add R] [Sub R] [Mul R] [Div R] [LT R] [LE R] [DecidableLT R] [DecidableLE R] [BEq R] in
theorem cleanupStep_shutdown {s s' : Threads R} (moved : s.cleanupStep = some s') :
    ∃ shutdown, s' = { s with shutdown } := by
  unfold cleanupStep at moved
  split at moved
  all_goals first
    | exact ⟨_, (Option.some.inj moved).symm⟩
    | cases moved

theorem sessions_of_message {env : Env R} {s s' : Threads R} {sid : Nat} {now : Int} {data : Str}
    (step : next env s (.message sid now data) = some s') :
    ∃ c, s.sessions[sid]? = some c ∧ c.phase = .idle ∧
      s'.sessions = s.sessions.set sid (c.receive env now s.server data).2 := by
  simp only [next] at step
  cases found : s.sessions[sid]? with
  | none => simp [found] at step
  | some c =>
    simp only [found] at step
    cases phase : c.phase with
    | idle =>
      simp only [phase] at step
      obtain rfl := Option.some.inj step
      exact ⟨c, rfl, phase, rfl⟩
    | _ => simp [phase] at step

theorem sessions_of_advance {env : Env R} {s s' : Threads R} {sid : Nat}
    (step : next env s (.advance sid) = some s') :
    ∃ c srv c', s.sessions[sid]? = some c ∧ c.advance env s.server = some (srv, c') ∧
      s'.sessions = s.sessions.set sid c' := by
  simp only [next] at step
  cases found : s.sessions[sid]? with
  | none => simp [found] at step
  | some c =>
    simp only [found, Option.map_eq_some_iff] at step
    obtain ⟨⟨srv, c'⟩, moved, rfl⟩ := step
    exact ⟨c, srv, c', rfl, moved, rfl⟩

theorem taken_of_next {env : Env R} {s s' : Threads R} {a : Action R}
    (step : next env s a = some s') : Taken env s a s' := by
  have split : ∀ {α : Type} {l : List α} {n : Nat} {x : α}, l[n]? = some x →
      ∃ before after, l = before ++ x :: after ∧ (∀ y, l.set n y = before ++ y :: after) ∧
        l.eraseIdx n = before ++ after := by
    intro α l n x found
    obtain ⟨bound, rfl⟩ := List.getElem?_eq_some_iff.mp found
    refine ⟨l.take n, l.drop (n + 1), ?_, fun y => ?_, List.eraseIdx_eq_take_drop_succ l n⟩
    · rw [← List.drop_eq_getElem_cons bound, List.take_append_drop]
    · exact List.set_eq_take_append_cons_drop.trans (if_pos bound)
  cases a with
  | connect =>
    obtain rfl := Option.some.inj step
    exact .connect
  | message sid now data =>
    simp only [next] at step
    cases found : s.sessions[sid]? with
    | none => simp [found] at step
    | some c =>
      obtain ⟨before, after, sessions, set, -⟩ := split found
      simp only [found] at step
      cases phase : c.phase with
      | idle =>
        simp only [phase] at step
        obtain rfl := Option.some.inj step
        unfold put
        rw [set]
        exact .message found sessions phase
      | _ => simp [phase] at step
  | advance sid =>
    simp only [next] at step
    cases found : s.sessions[sid]? with
    | none => simp [found] at step
    | some c =>
      obtain ⟨before, after, sessions, set, -⟩ := split found
      simp only [found, Option.map_eq_some_iff] at step
      obtain ⟨⟨srv, c'⟩, moved, rfl⟩ := step
      unfold put
      rw [set]
      exact .advance found sessions moved
  | engine =>
    simp only [next, engineStep] at step
    cases engine : s.engine with
    | starting =>
      simp only [engine] at step
      obtain rfl := Option.some.inj step
      exact .readProducts engine
    | enqueuing products =>
      simp only [engine] at step
      obtain rfl := Option.some.inj step
      exact .enqueue engine
    | waiting =>
      simp only [engine] at step
      cases pending : s.server.pendingProducts with
      | nil => simp [pending] at step
      | cons product products =>
        simp only [pending] at step
        split at step
        · cases step
        · obtain rfl := Option.some.inj step
          exact .pop engine pending
    | holding product =>
      simp only [engine] at step
      obtain rfl := Option.some.inj step
      exact .launch engine
  | task n std now =>
    simp only [next] at step
    cases found : s.tasks[n]? with
    | none => simp [found] at step
    | some product =>
      obtain ⟨before, after, tasks, -, erased⟩ := split found
      simp only [found] at step
      obtain rfl := Option.some.inj step
      rw [erased]
      exact .task found tasks
  | cleanup =>
    obtain ⟨shutdown, rfl⟩ := cleanupStep_shutdown step
    exact .cleanup step

/-- A step leaves `cleanup` where it is, or it is its next read. -/
theorem shutdown_step {env : Env R} {s s' : Threads R} {a : Action R} (taken : Taken env s a s') :
    s'.shutdown = s.shutdown ∨ s'.exportsNow = s.exportsNow ∧ Shutdown.Reads s.exportsNow s.shutdown s'.shutdown := by
  cases taken with
  | cleanup moved =>
    refine Or.inr ⟨rfl, ?_⟩
    unfold cleanupStep at moved
    cases phase : s.shutdown with
    | stopped exports => simp [phase] at moved
    | _ =>
      simp only [phase, Option.some.injEq, Threads.mk.injEq, true_and] at moved
      rw [← moved]
      constructor
  | _ => exact Or.inl rfl

end Threads

namespace Session

variable {env : Env R} {now : Int} {srv : Server R} {c : Session R} {data : Str}

/-- The commands that need more than one step or change the server, and all the others. -/
theorem receive_cases {env : Env R} {now : Int} {srv : Server R} {c : Session R} {data : Str}
    {motive : Server R × Session R → Prop}
    (register : Server.commandOf (Server.tokenise data) = str "REGISTER" →
      motive (srv, { c with message := data }.receiveRegister srv (Server.tokenise data)))
    (login : Server.commandOf (Server.tokenise data) = str "LOGIN" →
      motive (srv, { c with message := data }.receiveLogin srv (Server.tokenise data)))
    (refused : Server.commandOf (Server.tokenise data) = str "ASK" ∨
        Server.commandOf (Server.tokenise data) = str "BID" → ∀ srv' reply,
      srv.admitOrder env now c.username (Server.commandOf (Server.tokenise data))
        (Server.tokenise data) = (srv', .inl reply) →
      motive (srv', { c with message := data }.answer reply))
    (admitted : Server.commandOf (Server.tokenise data) = str "ASK" ∨
        Server.commandOf (Server.tokenise data) = str "BID" → ∀ srv' order,
      srv.admitOrder env now c.username (Server.commandOf (Server.tokenise data))
        (Server.tokenise data) = (srv', .inr order) →
      motive (srv', { c with message := data, phase := .inserting order }))
    (cancel : Server.commandOf (Server.tokenise data) = str "CANCEL" → ∀ order,
      srv.findOwnOrder c.username (Server.tokenise data) = .inr order →
      motive (srv, { c with message := data, phase := .unlocking order }))
    (funds : Server.commandOf (Server.tokenise data) = str "DEPOSIT" ∨
        Server.commandOf (Server.tokenise data) = str "WITHDRAW" →
      motive ((srv.handleFunds env c.username (Server.commandOf (Server.tokenise data))
          (Server.tokenise data)).1,
        { c with message := data }.answer (srv.handleFunds env c.username
          (Server.commandOf (Server.tokenise data)) (Server.tokenise data)).2))
    (market : Server.commandOf (Server.tokenise data) = str "MARKET" →
      motive (srv, { c with message := data, phase := .reporting (.market srv.orderBook) }))
    (stats : Server.commandOf (Server.tokenise data) = str "STATS" → ∀ first token,
      Server.tokenise data = [first, token] →
      motive (srv, { c with message := data,
                            phase := .reporting (.stats srv.orderBook (Str.toUpper token)) }))
    (other : ∀ reply, (Server.commandOf (Server.tokenise data) = str "STATS" →
        reply = srv.handleStats env (Server.tokenise data)) →
      Server.commandOf (Server.tokenise data) ∉ [str "REGISTER", str "LOGIN", str "MARKET"] →
      motive (srv, { c with message := data }.answer reply)) :
    motive (c.receive env now srv data) := by
  unfold receive
  dsimp only
  refine iteInduction (fun empty => ?_) fun _ => ?_
  · rw [empty] at other
    exact other _ (fun is => absurd is (by decide)) (by decide)
  apply iteInduction register
  intro notRegister
  apply iteInduction login
  intro notLogin
  refine iteInduction (fun is => ?_) fun _ => ?_
  · split
    · exact refused is _ _ ‹_›
    · exact admitted is _ _ ‹_›
  refine iteInduction (fun is => other _ (by rw [is]; exact fun no => absurd no (by decide))
    (by rw [is]; decide)) fun _ => ?_
  refine iteInduction (fun is => ?_) fun _ => ?_
  · split
    · exact other _ (by rw [is]; exact fun no => absurd no (by decide)) (by rw [is]; decide)
    · exact cancel is _ ‹_›
  refine iteInduction (fun is => other _ (by rw [is]; exact fun no => absurd no (by decide))
    (by rw [is]; decide)) fun _ => ?_
  apply iteInduction funds
  intro _
  apply iteInduction market
  intro notMarket
  refine iteInduction (fun is => ?_) fun notStats => ?_
  · split
    · exact stats is _ _ ‹_›
    · rename_i wrong
      refine other _ (fun _ => ?_) (by rw [is]; decide)
      unfold Server.handleStats
      split
      · exact absurd ‹_› (wrong _ _)
      · rfl
  have rest : Server.commandOf (Server.tokenise data) ∉ [str "REGISTER", str "LOGIN", str "MARKET"] := by
    simp [notRegister, notLogin, notMarket]
  refine iteInduction (fun _ => other _ (fun is => absurd is notStats) rest)
    fun _ => other _ (fun is => absurd is notStats) rest

/-- The next step of a message, by the phase it is taken from. -/
inductive Advanced (env : Env R) (srv : Server R) (c : Session R) : Server R → Session R → Prop
  | registered {u p : Str} (phase : c.phase = .registering u p) :
    Advanced env srv c { srv with userStore := srv.userStore.addUser u p }
      ({ c with username := u }.answer (.text (str "OK User registered as " ++ u)))
  | loggedIn {u p : Str} {store : UserStore R} (phase : c.phase = .loggingIn u p)
    (got : srv.userStore.getUser u = .ok store) (valid : store.validatePassword u p) :
    Advanced env srv c { srv with userStore := store }
      ({ c with username := u }.answer (.text (str "OK Logged in as " ++ u)))
  | rejected {u p : Str} {store : UserStore R} (phase : c.phase = .loggingIn u p) (reply : Reply)
    (got : store = srv.userStore ∨ srv.userStore.getUser u = .ok store) :
    Advanced env srv c { srv with userStore := store } (c.answer reply)
  | inserted {order : OrderBookEntry R} (phase : c.phase = .inserting order) :
    Advanced env srv c (srv.insertOrder order) { c with phase := .starting order.product }
  | started {product : Str} (phase : c.phase = .starting product) (reply : Reply) :
    Advanced env srv c (srv.startMatchingProduct product) (c.answer reply)
  | unlocked {order : OrderBookEntry R} {srv' : Server R} {done : Bool}
    (phase : c.phase = .unlocking order) (unlocked : srv.cancelFunds c.username order = .ok (done, srv')) :
    Advanced env srv c srv' { c with phase := .removing order.id }
  | failed {order : OrderBookEntry R} {e : Exn} (phase : c.phase = .unlocking order) (reply : Reply)
    (thrown : srv.cancelFunds c.username order = .error e) : Advanced env srv c srv (c.answer reply)
  | removed {id : Nat} (phase : c.phase = .removing id) (reply : Reply) :
    Advanced env srv c (srv.removeOrderById c.username id).2 (c.answer reply)
  | reported {r : Report R} (phase : c.phase = .reporting r) :
    Advanced env srv c srv (c.advanceReport env srv.orderBook r)

theorem advanced_of_advance {c' : Session R} {srv' : Server R}
    (moved : c.advance env srv = some (srv', c')) : Advanced env srv c srv' c' := by
  unfold advance at moved
  cases phase : c.phase with
  | idle => simp [phase] at moved
  | undefined => simp [phase] at moved
  | ended => simp [phase] at moved
  | registering u p =>
    simp only [phase] at moved
    obtain ⟨rfl, rfl⟩ := Prod.mk.inj (Option.some.inj moved)
    exact .registered phase
  | loggingIn u p =>
    simp only [phase] at moved
    cases got : srv.userStore.getUser u with
    | error e =>
      simp only [got] at moved
      obtain ⟨rfl, rfl⟩ := Prod.mk.inj (Option.some.inj moved)
      exact .rejected phase _ (Or.inl rfl)
    | ok store =>
      simp only [got] at moved
      by_cases valid : store.validatePassword u p
      · rw [if_pos valid] at moved
        obtain ⟨rfl, rfl⟩ := Prod.mk.inj (Option.some.inj moved)
        exact .loggedIn phase got valid
      · rw [if_neg valid] at moved
        obtain ⟨rfl, rfl⟩ := Prod.mk.inj (Option.some.inj moved)
        exact .rejected phase _ (Or.inr got)
  | inserting order =>
    simp only [phase] at moved
    obtain ⟨rfl, rfl⟩ := Prod.mk.inj (Option.some.inj moved)
    exact .inserted phase
  | starting product =>
    simp only [phase] at moved
    obtain ⟨rfl, rfl⟩ := Prod.mk.inj (Option.some.inj moved)
    exact .started phase _
  | unlocking order =>
    simp only [phase] at moved
    cases done : srv.cancelFunds c.username order with
    | error e =>
      simp only [done] at moved
      obtain ⟨rfl, rfl⟩ := Prod.mk.inj (Option.some.inj moved)
      exact .failed phase _ done
    | ok r =>
      simp only [done] at moved
      obtain ⟨rfl, rfl⟩ := Prod.mk.inj (Option.some.inj moved)
      exact .unlocked phase done
  | removing id =>
    simp only [phase] at moved
    have both : ∃ reply, srv' = (srv.removeOrderById c.username id).2 ∧ c' = c.answer reply := by
      split at moved
      all_goals
        obtain ⟨rfl, rfl⟩ := Prod.mk.inj (Option.some.inj moved)
        exact ⟨_, (congrArg Prod.snd ‹_›).symm, rfl⟩
    obtain ⟨reply, rfl, rfl⟩ := both
    exact .removed phase reply
  | reporting r =>
    simp only [phase] at moved
    obtain ⟨rfl, rfl⟩ := Prod.mk.inj (Option.some.inj moved)
    exact .reported phase

/-- A step of a report: a figure is read, a pointer is found dangling, the next product is begun or
the reply is given. -/
inductive Reported (env : Env R) (book : OrderBook R) (c : Session R) (r : Report R) : Session R → Prop
  | figure {line : Line} {todo : List Line} {orders : List (EntryPtr R)} (next : r.todo = line :: todo)
    (read : (r.pointers line.figure.side).mapM (book.read r.product) = some orders) :
    Reported env book c r
      { c with phase := .reporting { r with text := r.text ++ line.text env orders, todo } }
  | dangling {line : Line} {todo : List Line} (next : r.todo = line :: todo)
    (read : (r.pointers line.figure.side).mapM (book.read r.product) = none) :
    Reported env book c r { c with phase := .undefined }
  | turned {product : Str} {products : List Str} (next : r.todo = [])
    (rest : r.products = product :: products) :
    Reported env book c r { c with phase := .reporting (r.turn book product products) }
  | answered (next : r.todo = []) (rest : r.products = []) :
    Reported env book c r (c.answer (.text r.text))

omit [Sub R] [LE R] [DecidableLE R] in
theorem reported_of_advanceReport (env : Env R) (book : OrderBook R) (c : Session R) (r : Report R) :
    Reported env book c r (c.advanceReport env book r) := by
  unfold advanceReport
  cases next : r.todo with
  | nil =>
    cases rest : r.products with
    | nil => exact .answered next rest
    | cons product products => exact .turned next rest
  | cons line todo =>
    dsimp only
    cases read : (r.pointers line.figure.side).mapM (book.read r.product) with
    | none => exact .dangling next read
    | some orders => exact .figure next read

end Session

namespace Session

variable {env : Env R} {srv srv' : Server R} {c c' : Session R}

theorem receive_coherent (env : Env R) (now : Int) (srv : Server R) (c : Session R) (data : Str) :
    (c.receive env now srv data).2.Coherent := by
  refine receive_cases (motive := fun r => r.2.Coherent) (fun is => ?_) (fun is => ?_)
    (fun _ _ _ _ => coherent_answer _ _) (fun is _ _ _ => .of_commands rfl (by rcases is with is | is <;> simp [is]))
    (fun is _ _ => .of_commands rfl (by simp [is])) (fun _ => coherent_answer _ _)
    (fun is => .of_commands rfl (by simp [is])) (fun is _ _ _ => .of_commands rfl (by simp [is]))
    (fun _ _ _ => coherent_answer _ _)
  · unfold receiveRegister
    split
    · split
      · exact coherent_answer _ _
      split
      · exact coherent_answer _ _
      · exact .of_commands rfl (by simp [is])
    · exact coherent_answer _ _
  · unfold receiveLogin
    split
    · split
      · exact coherent_answer _ _
      split
      · exact .of_commands rfl (by simp [is])
      · exact coherent_answer _ _
    · exact coherent_answer _ _

theorem Coherent.advance (coherent : c.Coherent) (moved : Advanced env srv c srv' c') : c'.Coherent := by
  cases moved with
  | inserted phase => exact coherent.of_phase rfl (by rw [phase]; rfl)
  | unlocked phase unlocked => exact coherent.of_phase rfl (by rw [phase]; rfl)
  | @reported r phase =>
    have next := reported_of_advanceReport env srv.orderBook c r
    generalize c.advanceReport env srv.orderBook r = c' at next
    cases next with
    | figure => exact coherent.of_phase rfl (by rw [phase]; rfl)
    | dangling => exact fun names found => by cases found
    | turned => exact coherent.of_phase rfl (by rw [phase]; rfl)
    | answered => exact coherent_answer _ _
  | _ => exact coherent_answer _ _

end Session

/-- What holds of a new client and is kept by what a session does holds of all sessions. -/
theorem Threads.sessions_step {env : Env R} {holds : Session R → Prop} (connected : holds .connected)
    (receive : ∀ {now : Int} {srv : Server R} {c : Session R} {data : Str}, holds c →
      holds (c.receive env now srv data).2)
    (advance : ∀ {srv srv' : Server R} {c c' : Session R}, holds c → Session.Advanced env srv c srv' c' → holds c')
    {s s' : Threads R} {a : Action R} (all : ∀ c ∈ s.sessions, holds c) (taken : Taken env s a s') :
    ∀ c ∈ s'.sessions, holds c := by
  cases taken with
  | connect =>
    intro c member
    rcases List.mem_append.mp member with old | new
    · exact all c old
    · obtain rfl := List.mem_singleton.mp new
      exact connected
  | message found sessions idle =>
    have own := all _ (mem_sessions sessions)
    rw [sessions] at all
    exact forall_sessions all (receive own)
  | advance found sessions moved =>
    have own := all _ (mem_sessions sessions)
    rw [sessions] at all
    exact forall_sessions all (advance own (Session.advanced_of_advance moved))
  | _ => exact all

theorem Threads.coherent_step {env : Env R} {s s' : Threads R} {a : Action R}
    (coherent : ∀ c ∈ s.sessions, c.Coherent) (taken : Taken env s a s') :
    ∀ c ∈ s'.sessions, c.Coherent :=
  sessions_step (fun names found => by cases found) (fun _ => Session.receive_coherent env _ _ _ _)
    Session.Coherent.advance coherent taken

namespace Session

variable {env : Env R} {now : Int} {srv srv' : Server R} {c c' : Session R} {data : Str}

omit [Zero R] [Add R] [Sub R] [Mul R] [Div R] [LT R] [LE R] [DecidableLT R] [DecidableLE R] [BEq R] in
theorem NotDefault.of_phase (user : c'.username ≠ defaultUser) (phase : c'.phase.entering = none) :
    c'.NotDefault :=
  ⟨user, fun v enters => by rw [phase] at enters; cases enters⟩

omit [Zero R] [Add R] [Sub R] [Mul R] [Div R] [LT R] [LE R] [DecidableLT R] [DecidableLE R] [BEq R] in
theorem notDefault_answer (user : c.username ≠ defaultUser) (reply : Reply) : (c.answer reply).NotDefault := by
  refine .of_phase user ?_
  rcases c.answer_phase reply with phase | phase <;> rw [phase] <;> rfl

/-- `REGISTER` and `LOGIN` refuse the name `default` before anything else. -/
theorem NotDefault.receive (own : c.NotDefault) : (c.receive env now srv data).2.NotDefault := by
  have user := own.user
  have answered : ∀ reply, ({ c with message := data }.answer reply).NotDefault :=
    fun reply => notDefault_answer (c := { c with message := data }) user reply
  refine receive_cases (motive := fun r => r.2.NotDefault) (fun _ => ?_) (fun _ => ?_)
    (fun _ _ reply _ => answered reply) (fun _ _ _ _ => .of_phase user rfl) (fun _ _ _ => .of_phase user rfl)
    (fun _ => answered _) (fun _ => .of_phase user rfl) (fun _ _ _ _ => .of_phase user rfl)
    (fun reply _ _ => answered reply)
  · unfold receiveRegister
    split
    · split
      · exact answered _
      rename_i allowed
      split
      · exact answered _
      · refine ⟨user, fun v enters => ?_⟩
        obtain rfl := Option.some.inj enters
        exact allowed
    · exact answered _
  · unfold receiveLogin
    split
    · split
      · exact answered _
      rename_i allowed
      split
      · refine ⟨user, fun v enters => ?_⟩
        obtain rfl := Option.some.inj enters
        exact allowed
      · exact answered _
    · exact answered _

theorem NotDefault.advance (own : c.NotDefault) (moved : Advanced env srv c srv' c') : c'.NotDefault := by
  cases moved with
  | registered phase => exact notDefault_answer (own.entering _ (by rw [phase]; rfl)) _
  | loggedIn phase got valid => exact notDefault_answer (own.entering _ (by rw [phase]; rfl)) _
  | inserted phase => exact .of_phase own.user rfl
  | unlocked phase unlocked => exact .of_phase own.user rfl
  | @reported r phase =>
    have next := reported_of_advanceReport env srv.orderBook c r
    generalize c.advanceReport env srv.orderBook r = c' at next
    cases next with
    | answered => exact notDefault_answer own.user _
    | _ => exact .of_phase own.user rfl
  | _ => exact notDefault_answer own.user _

end Session

/-- No session of a server just started ever becomes `default`'s. -/
theorem Threads.notDefault_run {env : Env R} {book : OrderBook R} {nextId : Nat} {store : UserStore R}
    {actions : List (Action R)} {s : Threads R}
    (ran : Machine.exec (next env) (start book nextId store) actions = some s) :
    ∀ c ∈ s.sessions, c.NotDefault :=
  Machine.exec_keeps (fun s : Threads R => ∀ c ∈ s.sessions, c.NotDefault)
    (fun _ _ _ all step => sessions_step
      (.of_phase (show ([] : Str) ≠ defaultUser by decide) rfl) Session.NotDefault.receive
      Session.NotDefault.advance all (taken_of_next step))
    (fun _ member => absurd member List.not_mem_nil) ran

end MiniATS
