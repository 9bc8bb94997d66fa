import MiniATS.Proofs.PassCalls

/-!
# No balance is ever negative

The calls of a pass fall between those of the clients. What keeps the balances at zero or above
is known before a call is made: an order of a user needs no negative amount, as `fulfillOrder`
has locked it; neither does a copy of it that `CANCEL` has taken, however old it is; and the
refund of a match is not negative. The orders of `default` may be of any kind, but nobody is
logged in as `default`.
-/

namespace MiniATS

open Str OrderBook Crossing

namespace Session

/-- Whom a session is about to become is not `default`, and what it is about to insert or to unlock
needs no negative amount. -/
def PhaseFit : Phase ℚ → Prop
  | .registering u _ | .loggingIn u _ => u ≠ defaultUser
  | .inserting o | .unlocking o => 0 ≤ o.need
  | _ => True

/-- The session can lower no balance below zero. -/
structure Fit (c : Session ℚ) : Prop where
  user : c.username ≠ defaultUser
  phase : PhaseFit c.phase

theorem fit_connected : (connected : Session ℚ).Fit := ⟨by decide, trivial⟩

theorem fit_answer {c : Session ℚ} (user : c.username ≠ defaultUser) (reply : Reply) :
    (c.answer reply).Fit := by
  refine ⟨user, ?_⟩
  rcases answer_phase c reply with phase | phase
  · rw [phase]
    trivial
  · rw [phase]
    trivial

/-- A message leaves a session fit and the balances not negative. -/
theorem receive_fit {srv : Server ℚ} {c : Session ℚ} (fit : c.Fit) (nonneg : srv.userStore.Nonneg)
    (mirrored : srv.orderBook.Mirrored)
    (needs : ∀ o ∈ srv.orderBook.getAllOrders, o.username ≠ defaultUser → 0 ≤ o.need) (env : Env ℚ)
    (now : Int) (data : Str) :
    (c.receive env now srv data).2.Fit ∧ (c.receive env now srv data).1.userStore.Nonneg := by
  have answered : ∀ reply, ({ c with message := data }.answer reply).Fit := fit_answer fit.user
  have admits : (srv.admitOrder env now c.username (Server.commandOf (Server.tokenise data))
      (Server.tokenise data)).1.userStore.Nonneg := Server.admitOrder_nonneg nonneg
  refine receive_cases (motive := fun r => r.2.Fit ∧ r.1.userStore.Nonneg) (fun _ => ⟨?_, nonneg⟩)
    (fun _ => ⟨?_, nonneg⟩) (fun _ srv' reply admitted => ⟨answered reply, ?_⟩)
    (fun _ srv' order admitted => ⟨⟨fit.user, Server.admitOrder_need admitted⟩, ?_⟩)
    (fun _ order found => ⟨⟨fit.user, ?_⟩, nonneg⟩)
    (fun _ => ⟨answered _, Server.handleFunds_nonneg nonneg⟩) (fun _ => ⟨⟨fit.user, trivial⟩, nonneg⟩)
    (fun _ _ _ _ => ⟨⟨fit.user, trivial⟩, nonneg⟩) (fun reply _ _ => ⟨answered reply, nonneg⟩)
  · unfold receiveRegister
    split
    · split
      · exact answered _
      · split
        · exact answered _
        · exact ⟨fit.user, ‹_›⟩
    · exact answered _
  · unfold receiveLogin
    split
    · split
      · exact answered _
      · split
        · exact ⟨fit.user, ‹_›⟩
        · exact answered _
    · exact answered _
  · rwa [admitted] at admits
  · rwa [admitted] at admits
  · obtain ⟨-, inBook, owner⟩ := Server.findOwnOrder_mem mirrored fit.user found
    exact needs order inBook (owner ▸ fit.user)

/-- So does the next step of a message. -/
theorem Fit.advance {env : Env ℚ} {srv srv' : Server ℚ} {c c' : Session ℚ} (fit : c.Fit)
    (nonneg : srv.userStore.Nonneg) (moved : Advanced env srv c srv' c') :
    c'.Fit ∧ srv'.userStore.Nonneg := by
  have holds := fit.phase
  cases moved with
  | registered phase =>
    rw [phase] at holds
    exact ⟨fit_answer (c := { c with username := _ }) holds _,
      nonneg.of_wallet (UserStore.wallet_emplace _ _ _)⟩
  | loggedIn phase got =>
    rw [phase] at holds
    exact ⟨fit_answer (c := { c with username := _ }) holds _, nonneg.getUser got⟩
  | rejected phase reply got =>
    refine ⟨fit_answer fit.user _, ?_⟩
    rcases got with rfl | got
    · exact nonneg
    · exact nonneg.getUser got
  | inserted phase => exact ⟨⟨fit.user, trivial⟩, nonneg⟩
  | started phase reply =>
    refine ⟨fit_answer fit.user _, ?_⟩
    rw [Server.startMatchingProduct_userStore]
    exact nonneg
  | unlocked phase unlocked =>
    rw [phase] at holds
    exact ⟨⟨fit.user, trivial⟩, Server.cancelFunds_nonneg nonneg holds unlocked⟩
  | failed phase reply => exact ⟨fit_answer fit.user _, nonneg⟩
  | removed phase reply => exact ⟨fit_answer fit.user _, nonneg⟩
  | @reported r phase =>
    refine ⟨?_, nonneg⟩
    have next := reported_of_advanceReport env srv.orderBook c r
    generalize c.advanceReport env srv.orderBook r = c' at next
    cases next with
    | figure => exact ⟨fit.user, trivial⟩
    | dangling => exact ⟨fit.user, trivial⟩
    | turned => exact ⟨fit.user, trivial⟩
    | answered => exact fit_answer fit.user _

end Session

namespace CallThreads

/-- A step that does not lock `ordersMutex` leaves the book alone. -/
theorem book_of_unlocked {env : Env ℚ} {s s' : Threads ℚ} {a : Action ℚ}
    (taken : Threads.Taken env s a s') (unlocked : locksBook s a = false) :
    s'.server.orderBook = s.server.orderBook := by
  cases taken with
  | @message sid now data c before after found sessions idle =>
    exact (Session.receive_book env now s.server c data).book
  | @advance sid c c' srv before after found sessions moved =>
    simp only [locksBook, found, Option.any_some] at unlocked
    cases Session.advanced_book (Session.advanced_of_advance moved) with
    | kept book => exact book
    | inserted phase => simp [phaseLocks, phase] at unlocked
    | started phase server =>
      rw [server, Server.startMatchingProduct_orderBook]
    | removed phase => simp [phaseLocks, phase] at unlocked
  | task => cases unlocked
  | _ => rfl

/-- What holds in every state of a run of the calls. -/
structure Solvent (s : CallThreads ℚ) : Prop where
  filed : s.threads.Filed
  nonneg : s.threads.server.userStore.Nonneg
  sessions : ∀ c ∈ s.threads.sessions, c.Fit
  needs : ∀ o ∈ s.threads.server.orderBook.getAllOrders, o.username ≠ defaultUser → 0 ≤ o.need
  running : ∀ r, s.running = some r → ∃ std, r.rest.Keeps Fair
    (VisitsOf (sortedAsks std (s.threads.server.orderBook.orders r.product))
      (sortedBids std (s.threads.server.orderBook.orders r.product)))

namespace Solvent

variable {env : Env ℚ} {s s' : CallThreads ℚ} {threads : Threads ℚ} {a : Action ℚ}

theorem start {book : OrderBook ℚ} {nextId : Nat} (loaded : Loaded book nextId) {store : UserStore ℚ}
    (nonneg : store.Nonneg) : (CallThreads.start book nextId store).Solvent where
  filed := .start loaded store
  nonneg := nonneg
  sessions := fun _ member => absurd member List.not_mem_nil
  needs := fun o member user => absurd (loaded.default' o member) user
  running := nofun

/-- A step of a thread that is not a pass. -/
theorem other (solvent : s.Solvent) (taken : Threads.Taken env s.threads a threads)
    (pass : ∀ n std now, a ≠ .task n std now)
    (unlocked : s.running.isSome → locksBook s.threads a = false) :
    ({ s with threads } : CallThreads ℚ).Solvent := by
  have running : ∀ r, s.running = some r → ∃ std, r.rest.Keeps Fair
      (VisitsOf (sortedAsks std (threads.server.orderBook.orders r.product))
        (sortedBids std (threads.server.orderBook.orders r.product))) := by
    intro r found
    rw [book_of_unlocked taken (unlocked (by rw [found]; rfl))]
    exact solvent.running r found
  have filed := solvent.filed.step taken
  obtain ⟨filed₀, nonneg, sessions, needs, -⟩ := solvent
  cases taken with
  | connect =>
    refine ⟨filed, nonneg, fun c member => ?_, needs, running⟩
    rcases List.mem_append.mp member with old | new
    · exact sessions c old
    · rw [List.mem_singleton.mp new]
      exact Session.fit_connected
  | @message sid now data c before after found isAt idle =>
    have received := Session.receive_fit (sessions c (Threads.mem_sessions isAt)) nonneg filed₀.mirrored
      needs env now data
    have book := (Session.receive_book env now s.threads.server c data).book
    refine ⟨filed, received.2, ?_, ?_, running⟩
    · rw [isAt] at sessions
      exact Threads.forall_sessions sessions received.1
    · rw [book]
      exact needs
  | @advance sid c c' srv before after found isAt moved =>
    have advanced := Session.advanced_of_advance moved
    have fit := sessions c (Threads.mem_sessions isAt)
    have moved' := fit.advance nonneg advanced
    refine ⟨filed, moved'.2, ?_, ?_, running⟩
    · rw [isAt] at sessions
      exact Threads.forall_sessions sessions moved'.1
    · dsimp only
      cases Session.advanced_book advanced with
      | kept book =>
        rw [book]
        exact needs
      | @inserted o phase server session =>
        rw [server]
        intro o' member user
        rcases List.mem_cons.mp ((insertOrder_perm _ o).mem_iff.mp member) with rfl | inBook
        · have holds := fit.phase
          rw [phase] at holds
          exact holds
        · exact needs o' inBook user
      | started phase server =>
        rw [server, Server.startMatchingProduct_orderBook]
        exact needs
      | @removed id phase server =>
        rw [server]
        exact fun o member => needs o (removeOrderById_subset filed₀.mirrored _ id member)
  | @task n std now => exact absurd rfl (pass n std now)
  | _ => exact ⟨filed, nonneg, sessions, needs, running⟩

/-- A call of the pass, or its end. -/
theorem call (solvent : s.Solvent) {r : Running ℚ} (running : s.running = some r) :
    (callStep s.threads r).Solvent := by
  obtain ⟨std, keeps⟩ := solvent.running r running
  obtain ⟨filed, nonneg, sessions, needs, -⟩ := solvent
  unfold callStep
  cases rest : r.rest with
  | step update next =>
    rw [rest] at keeps
    obtain ⟨fair, keeps'⟩ := keeps ⟨s.threads.server.userStore, s.threads.server.nextId, r.sales, r.trades⟩
    refine ⟨filed.of_book rfl rfl fair.2, fair.1 nonneg, sessions, needs, fun r' found => ?_⟩
    obtain rfl := Option.some.inj found
    exact ⟨std, keeps'⟩
  | done v =>
    rw [rest] at keeps
    obtain ⟨mirrored, left⟩ := finishPass_orders keeps filed.mirrored r.sales
    refine ⟨filed.of_fewer rfl mirrored (fun o' member => ?_) le_rfl, nonneg, sessions, ?_, nofun⟩
    · obtain ⟨o, inBook, shrunk⟩ := left o' member
      exact ⟨o, inBook, shrunk.id.symm⟩
    · intro o' member user
      obtain ⟨o, inBook, shrunk⟩ := left o' member
      exact shrunk.need_nonneg (needs o inBook (shrunk.username ▸ user))

theorem step (solvent : s.Solvent) {a : CallAction ℚ} (taken : next env s a = some s') : s'.Solvent := by
  cases a with
  | other a =>
    have moved : ∀ n std now, a ≠ .task n std now := by
      rintro n std now rfl
      cases taken
    have step' : (if s.running.isSome && locksBook s.threads a then none
        else (s.threads.next env a).map fun threads => { s with threads }) = some s' := by
      cases a with
      | task n std now => exact absurd rfl (moved n std now)
      | _ => exact taken
    split at step'
    · cases step'
    rename_i free
    obtain ⟨threads, went, rfl⟩ := Option.map_eq_some_iff.mp step'
    exact solvent.other (Threads.taken_of_next went) moved fun waits => by simpa [waits] using free
  | begin n std now =>
    simp only [next] at taken
    split at taken
    · obtain rfl := Option.some.inj taken
      obtain ⟨filed, nonneg, sessions, needs, -⟩ := solvent
      refine ⟨filed.of_book rfl rfl le_rfl, nonneg, sessions, needs, fun r found => ?_⟩
      obtain rfl := Option.some.inj found
      exact ⟨std, askLoopCalls_keeps _ _ _ _⟩
    · cases taken
  | call =>
    obtain ⟨r, running, rfl⟩ := Option.map_eq_some_iff.mp taken
    exact solvent.call running

end Solvent

/-- No balance of any user, `default` included, is ever negative: in every state of every run of the
clients' steps and the calls of the passes, from any loaded book and any users without negative
balances. -/
theorem balances_nonneg (env : Env ℚ) {filename : Str} {file : Option Str} {book : OrderBook ℚ}
    {nextId : Nat} (made : OrderBook.make env filename file 1 = .ok (book, nextId)) {store : UserStore ℚ}
    (nonneg : ∀ u c, 0 ≤ store.available u c ∧ 0 ≤ store.locked u c) (actions : List (CallAction ℚ))
    {s : CallThreads ℚ} (ran : Machine.exec (next env) (start book nextId store) actions = some s)
    (u c : Str) :
    0 ≤ s.threads.server.userStore.available u c ∧ 0 ≤ s.threads.server.userStore.locked u c := by
  have solvent : s.Solvent := Machine.exec_keeps _ (fun _ _ _ solvent taken => solvent.step taken)
    (.start (make_loaded made) nonneg) ran
  exact solvent.nonneg u c

/-- Bob deposits and withdraws while the calls of the pass over the orders file are made. -/
def fundsMeanwhile : List (CallAction ℚ) :=
  List.replicate 4 (.other .engine) ++ [.other .connect, .other (.message 0 0 (str "REGISTER bob pw")),
    .other (.advance 0), .begin 0 (StdSort.insertion _) 0, .call, .call, .call,
    .other (.message 0 0 (str "DEPOSIT usd 5"))] ++ List.replicate 5 .call ++
    [.other (.message 0 0 (str "WITHDRAW usd 3"))] ++ List.replicate 4 .call

theorem balances_nonneg_meanwhile : ∃ t ∈ Threads.crossedFile, ∃ s,
    Machine.exec (next exactEnv) ⟨t, none⟩ fundsMeanwhile = some s ∧
      s.running.isNone ∧ s.threads.server.orderBook.getAllOrders.length = 0 ∧
      ∀ u c, 0 ≤ s.threads.server.userStore.available u c ∧ 0 ≤ s.threads.server.userStore.locked u c := by
  obtain ⟨t, is, found⟩ := (Option.any_eq_true _ _).mp
    (show Threads.crossedFile.any (fun t => (Machine.exec (next exactEnv) ⟨t, none⟩ fundsMeanwhile).any
      (fun s => s.running.isNone && s.threads.server.orderBook.getAllOrders.length == 0)) by
      decide +kernel)
  obtain ⟨s, ran, ended⟩ := (Option.any_eq_true _ _).mp found
  simp only [Bool.and_eq_true, beq_iff_eq] at ended
  obtain ⟨book, nextId, made, rfl⟩ := Threads.mem_crossedFile is
  exact ⟨_, is, s, ran, ended.1, ended.2, balances_nonneg exactEnv made
    (fun u c => ⟨le_rfl, le_rfl⟩) fundsMeanwhile ran⟩

end CallThreads

end MiniATS
