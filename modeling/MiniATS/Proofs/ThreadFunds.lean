import MiniATS.Proofs.Sane
import MiniATS.Proofs.ThreadBook

/-!
# Locked funds in interleaved runs

`CANCEL` copies an order, unlocks what the copy needs and removes the order, in three locked calls
(`ServerMain.cpp:227-258`). Between the last two the order is open and its funds are gone. `live` are
the other open orders. A step that unlocks an order that is still reserved, and a pass that matches
live orders only, keep the claims of the orders in flight and of the live orders covered (`Funded`).
-/

namespace MiniATS

open Ledger OrderBookEntry OrderBook

section Orders

variable {R : Type}

/-- The copy of an order that a session is about to unlock. -/
def Session.unlocks (c : Session R) : Option (OrderBookEntry R) :=
  match c.phase with
  | .unlocking order => some order
  | _ => none

namespace Threads

/-- The ids of the orders that sessions have unlocked and are about to remove. -/
def released (s : Threads R) : List Nat := s.sessions.filterMap Session.removes

/-- The open orders that no session has unlocked. -/
def live (s : Threads R) : List (OrderBookEntry R) :=
  s.server.orderBook.getAllOrders.filter (fun o => o.id ∉ s.released)

variable {s : Threads R} {before after : List (Session R)} {c c' : Session R} {id : Nat}

theorem released_of_sessions {s' : Threads R} (sessions : s.sessions = before ++ c :: after)
    (sessions' : s'.sessions = before ++ c' :: after) (same : c'.removes = c.removes) :
    s'.released = s.released := by
  simp only [released, sessions, sessions', List.filterMap_append, List.filterMap_cons, same]

theorem mem_released (sessions : s.sessions = before ++ c :: after) : id ∈ s.released ↔
    c.removes = some id ∨ id ∈ (before ++ after).filterMap Session.removes := by
  unfold released
  rw [sessions]
  simp only [List.filterMap_append, List.mem_append, List.filterMap_cons]
  cases c.removes with
  | none => simp
  | some i => simp [or_left_comm, eq_comm]

theorem mem_live {o : OrderBookEntry R} :
    o ∈ s.live ↔ o ∈ s.server.orderBook.getAllOrders ∧ o.id ∉ s.released := by
  simp [live]

/-- The live orders of one product and the others. -/
theorem live_perm (s : Threads R) (product : Str) : s.live.Perm
    ((s.server.orderBook.orders product).filter (fun o => o.id ∉ s.released) ++
      (s.server.orderBook.others product).filter (fun o => o.id ∉ s.released)) := by
  rw [← List.filter_append]
  exact (getAllOrders_perm s.server.orderBook product).filter _

end Threads

theorem Session.removes_of_phase {c : Session R} (other : ∀ id, c.phase ≠ .removing id) : c.removes = none := by
  unfold Session.removes
  split
  · exact absurd ‹_› (other _)
  · rfl

@[simp] theorem Session.answer_removes (c : Session R) (reply : Reply) : (c.answer reply).removes = none := by
  apply Session.removes_of_phase
  intro id removing
  rcases c.answer_phase reply with phase | phase
  · cases phase.symm.trans removing
  · cases phase.symm.trans removing

end Orders

namespace Session

/-- What the phase of a session of the user `u` says about users and orders: whom it is about to
become, and whose order it is about to unlock or to remove. -/
def PhaseBound (srv : Server ℚ) (held : List (OrderBookEntry ℚ)) (u : Str) : Phase ℚ → Prop
  | .registering v _ => v ≠ defaultUser
  | .loggingIn v _ => v ≠ defaultUser ∧ srv.userStore.userExists v
  | .unlocking o => u ≠ [] ∧ o.username = u
  | .removing orderId => u ≠ [] ∧ orderId < srv.nextId ∧ ∀ o ∈ held, o.id = orderId → o.username = u
  | _ => True

/-- A session is bound to a known user and to orders of this user. -/
structure Bound (srv : Server ℚ) (held : List (OrderBookEntry ℚ)) (c : Session ℚ) : Prop where
  user : Server.SessionUser srv.userStore c.username
  phase : PhaseBound srv held c.username c.phase

/-- What the steps of others leave to a session: no user goes, and held orders keep their owners and
their ids. -/
structure Grown (srv srv' : Server ℚ) (held held' : List (OrderBookEntry ℚ)) : Prop where
  users : ∀ v, srv.userStore.userExists v → srv'.userStore.userExists v
  later : srv.nextId ≤ srv'.nextId
  orders : ∀ o' ∈ held', (∃ o ∈ held, o.id = o'.id ∧ o.username = o'.username) ∨ srv.nextId ≤ o'.id

variable {srv srv' : Server ℚ} {held held' : List (OrderBookEntry ℚ)} {c c' : Session ℚ}

theorem Bound.grown (bound : c.Bound srv held) (grown : Grown srv srv' held held') :
    c.Bound srv' held' := by
  refine ⟨bound.user.mono (grown.users _), ?_⟩
  have phase := bound.phase
  cases at' : c.phase with
  | registering v p =>
    rw [at'] at phase
    exact phase
  | loggingIn v p =>
    rw [at'] at phase
    exact ⟨phase.1, grown.users _ phase.2⟩
  | unlocking o =>
    rw [at'] at phase
    exact phase
  | removing id =>
    rw [at'] at phase
    obtain ⟨loggedIn, old, own⟩ := phase
    refine ⟨loggedIn, lt_of_lt_of_le old grown.later, fun o' member same => ?_⟩
    rcases grown.orders o' member with ⟨o, was, id', owner⟩ | new
    · rw [← owner]
      exact own o was (id'.trans same)
    · omega
  | _ => trivial

theorem phaseBound_answer (srv : Server ℚ) (held : List (OrderBookEntry ℚ)) (u : Str) (c : Session ℚ)
    (reply : Reply) : PhaseBound srv held u (c.answer reply).phase := by
  rcases c.answer_phase reply with phase | phase
  · rw [phase]
    trivial
  · rw [phase]
    trivial

theorem bound_answer (user : Server.SessionUser srv.userStore c.username) (reply : Reply) :
    (c.answer reply).Bound srv held :=
  ⟨user, phaseBound_answer _ _ _ _ _⟩

/-- The end of a message up to its first locked call: no locked balance and no order has changed, or
an order is in flight whose need has been locked. -/
inductive Received (srv : Server ℚ) (c : Session ℚ) : Server ℚ × Session ℚ → Prop
  | kept {srv' : Server ℚ} {c' : Session ℚ} (book : srv'.orderBook = srv.orderBook)
    (later : srv.nextId ≤ srv'.nextId)
    (users : ∀ v, srv.userStore.userExists v → srv'.userStore.userExists v)
    (locked : srv'.userStore.locked = srv.userStore.locked) (username : c'.username = c.username)
    (inflight : c'.inflight = none) (removes : c'.removes = none)
    (phase : ∀ held, PhaseBound srv' held c'.username c'.phase) : Received srv c (srv', c')
  | admitted {store : UserStore ℚ} {o : OrderBookEntry ℚ} {d : Str} {c' : Session ℚ}
    (loggedIn : c.username ≠ []) (owner : o.username = c.username) (id : o.id = srv.nextId)
    (token : o.reservedToken = some d) (nonneg : 0 ≤ o.need)
    (enough : o.need ≤ srv.userStore.available c.username d)
    (locked : store.ledger = srv.userStore.ledger.lock c.username d o.need)
    (within : UserStore.Within [c.username] srv.userStore store) (username : c'.username = c.username)
    (phase : c'.phase = .inserting o) :
    Received srv c ({ srv with userStore := store, nextId := srv.nextId + 1 }, c')

theorem receive_received (env : Env ℚ) (now : Int) (indexed : srv.orderBook.Indexed)
    (user : Server.SessionUser srv.userStore c.username) (data : Str) :
    Received srv c (c.receive env now srv data) := by
  have keeps : ∀ c' : Session ℚ, c'.username = c.username → c'.inflight = none → c'.removes = none →
      (∀ held, PhaseBound srv held c'.username c'.phase) → Received srv c (srv, c') :=
    fun c' username inflight removes phase =>
      .kept rfl le_rfl (fun _ known => known) rfl username inflight removes phase
  have answers : ∀ (store : UserStore ℚ) (nextId : Nat) (reply : Reply), srv.nextId ≤ nextId →
      (∀ v, srv.userStore.userExists v → store.userExists v) → store.locked = srv.userStore.locked →
      Received srv c ({ srv with userStore := store, nextId }, { c with message := data }.answer reply) := by
    intro store nextId reply later users locked
    exact .kept rfl later users locked rfl (answer_inflight _ _) (answer_removes _ _) fun held =>
      phaseBound_answer _ _ _ _ _
  have answered : ∀ reply, Received srv c (srv, { c with message := data }.answer reply) :=
    fun reply => answers srv.userStore srv.nextId reply le_rfl (fun _ known => known) rfl
  refine receive_cases (motive := Received srv c) (fun _ => ?_) (fun _ => ?_)
    (fun _ srv' reply refused => ?_) (fun _ srv' order accepted => ?_) (fun _ order found => ?_)
    (fun _ => ?_) (fun _ => keeps _ rfl rfl rfl fun _ => trivial)
    (fun _ _ _ _ => keeps _ rfl rfl rfl fun _ => trivial) (fun reply _ _ => answered reply)
  · unfold receiveRegister
    split
    · split
      · exact answered _
      · split
        · exact answered _
        · rename_i notDefault _
          exact keeps _ rfl rfl rfl fun _ => notDefault
    · exact answered _
  · unfold receiveLogin
    split
    · split
      · exact answered _
      · rename_i notDefault
        split
        · rename_i known
          exact keeps _ rfl rfl rfl fun _ => ⟨notDefault, known⟩
        · exact answered _
    · exact answered _
  · have ends := Server.admitOrder_end env now (Server.commandOf (Server.tokenise data))
      (Server.tokenise data) user
    rw [refused] at ends
    cases ends with
    | @stopped store nextId reply later within same =>
      apply answers store nextId reply later (fun _ known => within.known known)
      rw [← UserStore.ledger_locked, same, UserStore.ledger_locked]
  · have ends := Server.admitOrder_end env now (Server.commandOf (Server.tokenise data))
      (Server.tokenise data) user
    rw [accepted] at ends
    cases ends with
    | admitted loggedIn owner id open' time token nonneg enough locked within =>
      exact .admitted loggedIn owner id token nonneg enough locked within rfl rfl
  · obtain ⟨loggedIn, -, owner⟩ := Server.findOwnOrder_eq indexed user found
    exact keeps _ rfl rfl rfl fun _ => ⟨loggedIn, owner⟩
  · have ends := Server.handleFunds_end env (Server.commandOf (Server.tokenise data))
      (Server.tokenise data) user
    generalize srv.handleFunds env c.username (Server.commandOf (Server.tokenise data))
      (Server.tokenise data) = r at ends ⊢
    obtain ⟨srv', reply⟩ := r
    dsimp only at ends
    have moved : ∀ {store : UserStore ℚ} {l : Ledger Str Str ℚ}, store.ledger = l →
        l.locked = srv.userStore.locked → store.locked = srv.userStore.locked := by
      rintro store _ rfl locked
      exact locked
    cases ends with
    | refused rest same within =>
      exact answers _ _ _ le_rfl (fun _ known => within.known known) (moved same rfl)
    | deposited loggedIn is other amount nonneg credited within =>
      exact answers _ _ _ le_rfl (fun _ known => within.known known) (moved credited (credit_locked _ _ _ _))
    | withdrew loggedIn is same amount nonneg enough debited within =>
      exact answers _ _ _ le_rfl (fun _ known => within.known known) (moved debited (debit_locked _ _ _ _))

end Session

namespace Threads

/-- What a step may not do for the funds to stay covered: a session unlocks only an order that is
still open, as it was copied, and that nobody else has unlocked, and a pass matches no order that has
been unlocked. -/
def Spares (s : Threads ℚ) : Action ℚ → Prop
  | .advance sid => ∀ c ∈ s.sessions[sid]?, ∀ o ∈ c.unlocks, o ∈ s.live
  | .task n std _ => ∀ product ∈ s.tasks[n]?, ∀ t ∈ passPlan std (s.server.orderBook.orders product),
      t.bid.entry.id ∉ s.released ∧ t.ask.entry.id ∉ s.released
  | _ => True

/-- The state is consistent, and the locked balances cover the claims of the orders in flight and of
the live ones. -/
structure Funded (s : Threads ℚ) : Prop where
  sane : Sane s.server s.inflight
  sessions : ∀ c ∈ s.sessions, c.Bound s.server (s.server.held s.inflight)
  covers : ∀ u, u ≠ defaultUser → ∀ c,
    claims (s.inflight ++ s.live) u c ≤ s.server.userStore.locked u c

namespace Funded

open Session (Grown PhaseBound)

variable {env : Env ℚ} {s s' : Threads ℚ} {before after : List (Session ℚ)} {c c' : Session ℚ}
  {srv : Server ℚ}

theorem need_nonneg (funded : s.Funded) {u : Str} (user : u ≠ defaultUser) :
    ∀ o ∈ s.inflight ++ s.live, o.username = u → 0 ≤ o.need := by
  intro o member owner
  refine funded.sane.nonneg ?_ (by rw [owner]; exact user)
  rcases List.mem_append.mp member with flies | inLive
  · exact List.mem_append_left _ flies
  · exact List.mem_append_right _ (mem_live.mp inLive).1

/-- A step of one session. -/
theorem of_session (funded : s.Funded) (sessions : s.sessions = before ++ c :: after)
    (server : s'.server = srv) (sessions' : s'.sessions = before ++ c' :: after)
    (sane : Sane srv s'.inflight)
    (grown : Grown s.server srv (s.server.held s.inflight) (srv.held s'.inflight))
    (bound : c'.Bound srv (srv.held s'.inflight))
    (covers : ∀ u, u ≠ defaultUser → ∀ d,
      claims (s'.inflight ++ s'.live) u d ≤ srv.userStore.locked u d) : s'.Funded := by
  subst server
  refine ⟨sane, ?_, covers⟩
  rw [sessions']
  exact forall_sessions (fun d member => (funded.sessions d (sessions ▸ member)).grown grown) bound

/-- A step of one session that moves no order and locks or unlocks nothing. -/
theorem of_quiet (funded : s.Funded) (sessions : s.sessions = before ++ c :: after)
    (server : s'.server = srv) (sessions' : s'.sessions = before ++ c' :: after)
    (book : srv.orderBook = s.server.orderBook) (later : s.server.nextId ≤ srv.nextId)
    (users : ∀ v, s.server.userStore.userExists v → srv.userStore.userExists v)
    (locked : srv.userStore.locked = s.server.userStore.locked) (inflight : c'.inflight = c.inflight)
    (removes : c'.removes = c.removes) (user : Server.SessionUser srv.userStore c'.username)
    (phase : ∀ held, PhaseBound srv held c'.username c'.phase) : s'.Funded := by
  have flying := inflight_of_sessions sessions sessions' inflight
  have released := released_of_sessions sessions sessions' removes
  have held : srv.held s'.inflight = s.server.held s.inflight := by
    unfold Server.held
    rw [flying, book]
  refine funded.of_session sessions server sessions' ?_ ?_ ⟨user, phase _⟩ fun u notDefault d => ?_
  · rw [flying]
    exact funded.sane.of_store book users later
  · rw [held]
    exact ⟨users, later, fun o' member => Or.inl ⟨o', member, rfl, rfl⟩⟩
  · have live : s'.live = s.live := by
      unfold live
      rw [released, server, book]
    rw [flying, live, locked]
    exact funded.covers u notDefault d

theorem message (funded : s.Funded) {now : Int} {data : Str} (sessions : s.sessions = before ++ c :: after)
    (idle : c.phase = .idle) (server : s'.server = (c.receive env now s.server data).1)
    (sessions' : s'.sessions = before ++ (c.receive env now s.server data).2 :: after) : s'.Funded := by
  have bound := funded.sessions c (mem_sessions sessions)
  have received := Session.receive_received env now funded.sane.indexed bound.user data
  have flew : c.inflight = none := Session.inflight_of_phase (by simp [idle])
  have removed : c.removes = none := Session.removes_of_phase (by simp [idle])
  generalize c.receive env now s.server data = r at received server sessions'
  cases received with
  | @kept srv' c' book later users locked username inflight removes phase =>
    refine funded.of_quiet sessions server sessions' book later users locked (inflight.trans flew.symm)
      (removes.trans removed.symm) ?_ phase
    rw [username]
    exact bound.user.mono (users _)
  | @admitted store o d c' loggedIn owner id token nonneg enough locked within username phase =>
    obtain ⟨notDefault, known⟩ := bound.user.known loggedIn
    have flies : c'.inflight = some o := by
      unfold Session.inflight
      rw [phase]
    have users : ∀ v, s.server.userStore.userExists v → store.userExists v := fun _ known =>
      within.known known
    have old := inflight_perm sessions
    have new := inflight_perm sessions'
    rw [flew] at old
    rw [flies] at new
    have perm := new.trans (old.symm.cons o)
    have released := released_of_sessions sessions sessions'
      ((Session.removes_of_phase (by simp [phase])).trans removed.symm)
    refine funded.of_session sessions server sessions' ?_ ⟨users, Nat.le_succ _, fun o' member => ?_⟩ ?_
      fun u user' e => ?_
    · exact (funded.sane.of_admitted (by rw [owner]; exact notDefault) id
        ⟨by rw [owner]; exact users _ known, by rw [token]; rfl, nonneg⟩ users).of_perm perm.symm
    · rcases List.mem_append.mp member with flying | inBook
      · rcases List.mem_cons.mp (perm.mem_iff.mp flying) with rfl | was
        · exact Or.inr id.ge
        · exact Or.inl ⟨o', List.mem_append_left _ was, rfl, rfl⟩
      · exact Or.inl ⟨o', List.mem_append_right _ inBook, rfl, rfl⟩
    · refine ⟨?_, by rw [phase]; trivial⟩
      rw [username]
      exact bound.user.mono (users _)
    · have covers := funded.covers u user' e
      have live : s'.live = s.live := by
        unfold Threads.live
        rw [released, server]
      have moved := (UserStore.balances_of_ledger locked u e).2
      rw [lock_of_le enough] at moved
      dsimp only at moved ⊢
      rw [live, moved, claims_append, claims_perm perm, claims_cons, claim_of_token token, owner]
      rw [claims_append] at covers
      simp only [Pi.add_apply, UserStore.ledger_locked] at covers ⊢
      linarith

/-- The order in flight is inserted. -/
theorem inserted (funded : s.Funded) {o : OrderBookEntry ℚ} (sessions : s.sessions = before ++ c :: after)
    (phase : c.phase = .inserting o) (server : s'.server = s.server.insertOrder o)
    (sessions' : s'.sessions = before ++ { c with phase := .starting o.product } :: after) : s'.Funded := by
  have bound := funded.sessions c (mem_sessions sessions)
  have flew : c.inflight = some o := by
    unfold Session.inflight
    rw [phase]
  have old := inflight_perm sessions
  have new := inflight_perm sessions'
  rw [flew] at old
  rw [show ({ c with phase := .starting o.product } : Session ℚ).inflight = none from rfl] at new
  have perm : s.inflight.Perm (o :: s'.inflight) := old.trans (new.symm.cons o)
  have released : s'.released = s.released :=
    released_of_sessions sessions sessions' (Session.removes_of_phase (by simp [phase])).symm
  have held := (Sane.held_insertOrder s.server o s'.inflight).trans (perm.symm.append_right _)
  refine funded.of_session sessions server sessions' (Sane.insertOrder (funded.sane.of_perm perm))
    ⟨fun _ known => known, le_rfl, fun o' member => Or.inl ⟨o', held.mem_iff.mp member, rfl, rfl⟩⟩
    ⟨bound.user, trivial⟩ fun u user d => ?_
  have covers := funded.covers u user d
  have nonneg : 0 ≤ o.claim u d := claim_nonneg (fun owner => funded.sane.nonneg
    (List.mem_append_left _ (perm.mem_iff.mpr List.mem_cons_self)) (by rw [owner]; exact user)) d
  have live : claims s'.live u d ≤ o.claim u d + claims s.live u d := by
    have booked : s'.server.orderBook.getAllOrders.Perm (o :: s.server.orderBook.getAllOrders) := by
      rw [server]
      exact insertOrder_perm s.server.orderBook o
    unfold Threads.live
    rw [released, claims_perm (booked.filter _)]
    by_cases gone : o.id ∈ s.released
    · rw [List.filter_cons_of_neg (by simpa using gone)]
      exact le_add_of_nonneg_left nonneg
    · rw [List.filter_cons_of_pos (by simpa using gone), claims_cons]
      exact le_rfl
  rw [claims_append, claims_perm perm, claims_cons] at covers
  rw [claims_append]
  simp only [Pi.add_apply, Server.insertOrder] at covers ⊢
  linarith

/-- The funds of an order that is still reserved are unlocked. -/
theorem unlocked (funded : s.Funded) {o : OrderBookEntry ℚ} {done : Bool}
    (sessions : s.sessions = before ++ c :: after) (phase : c.phase = .unlocking o) (reserved : o ∈ s.live)
    (ran : s.server.cancelFunds c.username o = .ok (done, srv)) (server : s'.server = srv)
    (sessions' : s'.sessions = before ++ { c with phase := .removing o.id } :: after) : s'.Funded := by
  have bound := funded.sessions c (mem_sessions sessions)
  obtain ⟨loggedIn, owner⟩ : c.username ≠ [] ∧ o.username = c.username := by
    have facts := bound.phase
    rwa [phase] at facts
  obtain ⟨notDefault, known⟩ := bound.user.known loggedIn
  obtain ⟨inBook, notReleased⟩ := mem_live.mp reserved
  have inHeld : o ∈ s.server.held s.inflight := List.mem_append_right _ inBook
  have admitted := funded.sane.admitted o inHeld (by rw [owner]; exact notDefault)
  obtain ⟨d, token⟩ := Option.isSome_iff_exists.mp admitted.token
  obtain ⟨store, ran', ledger, within⟩ := Server.cancelFunds_of_token known token
  obtain ⟨-, rfl⟩ := Prod.mk.inj (Except.ok.inj (ran.symm.trans ran'))
  have flying : s'.inflight = s.inflight := by
    apply inflight_of_sessions sessions sessions'
    unfold Session.inflight
    rw [phase]
  have users : ∀ v, s.server.userStore.userExists v → store.userExists v := fun _ known =>
    within.known known
  have gone : c.removes = none := Session.removes_of_phase (by simp [phase])
  have released : ∀ id, id ∈ s'.released ↔ id = o.id ∨ id ∈ s.released := by
    intro id
    rw [mem_released sessions, mem_released sessions', gone,
      show ({ c with phase := .removing o.id } : Session ℚ).removes = some o.id from rfl]
    simp [eq_comm]
  have distinct := funded.sane.distinct
  have same : ∀ o' ∈ s.server.held s.inflight, o'.id = o.id → o' = o := fun o' member id =>
    List.inj_on_of_nodup_map distinct member inHeld id
  have live : s.live.Perm (o :: s'.live) := by
    have nodup : s.live.Nodup := by
      have all := List.Nodup.of_map _ distinct
      unfold Server.held at all
      exact (List.nodup_append'.mp all).2.1.filter _
    have kept : s'.live = s.live.filter (fun o' => o' != o) := by
      unfold Threads.live
      rw [server, List.filter_filter]
      apply List.filter_congr
      intro o' member
      have one : o'.id = o.id ↔ o' = o :=
        ⟨same o' (List.mem_append_right _ member), fun eq => by rw [eq]⟩
      rw [Bool.eq_iff_iff]
      simp [released, one]
    rw [kept, ← nodup.erase_eq_filter]
    exact List.perm_cons_erase reserved
  refine funded.of_session sessions server sessions' ?_ ⟨users, le_rfl, fun o' member => ?_⟩ ?_
    fun u user e => ?_
  · rw [flying]
    exact funded.sane.of_store rfl users le_rfl
  · rw [flying] at member
    exact Or.inl ⟨o', member, rfl, rfl⟩
  · refine ⟨bound.user.mono (users _), loggedIn, funded.sane.fresh o inHeld, fun o' member id => ?_⟩
    rw [flying] at member
    rw [same o' member id]
    exact owner
  · have covers := funded.covers u user e
    have enough : o.need ≤ s.server.userStore.locked c.username d := by
      have claim := claim_le_claims (funded.need_nonneg notDefault) (List.mem_append_right _ reserved) d
      rw [claim_of_token token, owner, single_self] at claim
      exact claim.trans (funded.covers c.username notDefault d)
    have moved := (UserStore.balances_of_ledger ledger u e).2
    rw [unlock_of_le enough] at moved
    dsimp only at moved ⊢
    rw [claims_append, claims_perm live, claims_cons, claim_of_token token, owner] at covers
    rw [moved, flying, claims_append]
    simp only [Pi.add_apply, Pi.sub_apply, UserStore.ledger_locked] at covers ⊢
    linarith

/-- The order that has been unlocked is removed, or it is there no more. -/
theorem removed (funded : s.Funded) {orderId : Nat} (sessions : s.sessions = before ++ c :: after)
    (phase : c.phase = .removing orderId) (reply : Reply)
    (server : s'.server = (s.server.removeOrderById c.username orderId).2)
    (sessions' : s'.sessions = before ++ c.answer reply :: after) : s'.Funded := by
  have bound := funded.sessions c (mem_sessions sessions)
  obtain ⟨loggedIn, old, own⟩ : c.username ≠ [] ∧ orderId < s.server.nextId ∧
      ∀ o ∈ s.server.held s.inflight, o.id = orderId → o.username = c.username := by
    have facts := bound.phase
    rwa [phase] at facts
  obtain ⟨notDefault, -⟩ := bound.user.known loggedIn
  have flying : s'.inflight = s.inflight := by
    apply inflight_of_sessions sessions sessions'
    rw [Session.answer_inflight]
    unfold Session.inflight
    rw [phase]
  have removes : c.removes = some orderId := by
    unfold Session.removes
    rw [phase]
  have released : ∀ id, id ∈ s.released ↔ id = orderId ∨ id ∈ s'.released := by
    intro id
    rw [mem_released sessions, mem_released sessions', removes, Session.answer_removes]
    simp [eq_comm]
  obtain ⟨sane, ends⟩ := funded.sane.removeOrderById notDefault orderId
  -- no order with the id is left, and the others are live as they were
  have fewer : (∀ o ∈ s'.server.orderBook.getAllOrders, o.id ≠ orderId) ∧
      (∀ o ∈ s'.server.held s.inflight, o ∈ s.server.held s.inflight) ∧
      (s.server.orderBook.getAllOrders.filter (fun o => o.id ∉ s.released)).Perm
        (s'.server.orderBook.getAllOrders.filter (fun o => o.id ∉ s.released)) := by
    rw [server]
    rcases ends with ⟨o, inBook, -, rfl, -, held⟩ | ⟨missing, unchanged⟩
    · have distinct := (held.map (fun o => o.id)).nodup_iff.mp funded.sane.distinct
      have other := (List.nodup_cons.mp distinct).1
      have books : s.server.orderBook.getAllOrders.Perm
          (o :: (s.server.removeOrderById c.username o.id).2.orderBook.getAllOrders) :=
        (List.perm_append_left_iff s.inflight).mp (held.trans List.perm_middle.symm)
      refine ⟨fun o' member same => other ?_, fun o' member => held.mem_iff.mpr
        (List.mem_cons_of_mem _ member), (books.filter _).trans ?_⟩
      · exact List.mem_map.mpr ⟨o', List.mem_append_right _ member, same⟩
      · rw [List.filter_cons_of_neg (by simpa using (released o.id).mpr (Or.inl rfl))]
    · rw [unchanged]
      exact ⟨fun o member same => missing o member (own o (List.mem_append_right _ member) same) same,
        fun _ member => member, List.Perm.refl _⟩
  obtain ⟨none', fewer, live⟩ := fewer
  have live' : s'.live = s'.server.orderBook.getAllOrders.filter (fun o => o.id ∉ s.released) := by
    apply List.filter_congr
    intro o member
    simp only [released, none' o member, false_or]
  refine funded.of_session sessions server sessions' ?_ ⟨fun _ known => known, le_rfl, fun o' member => ?_⟩
    (Session.bound_answer (show Server.SessionUser
      (s.server.removeOrderById c.username orderId).2.userStore c.username from bound.user) reply)
    fun u user d => ?_
  · rw [flying]
    exact sane
  · rw [flying, ← server] at member
    exact Or.inl ⟨o', fewer o' member, rfl, rfl⟩
  · have covers := funded.covers u user d
    rw [flying, live', claims_append, ← claims_perm live]
    rw [claims_append] at covers
    exact covers

/-- The matches of a pass that spares unlocked orders can be paid. -/
theorem affordable (funded : s.Funded) {std : StdSort (EntryPtr ℚ)} {product : Str}
    (spares : ∀ t ∈ passPlan std (s.server.orderBook.orders product),
      t.bid.entry.id ∉ s.released ∧ t.ask.entry.id ∉ s.released) :
    Affordable std product (s.server.orderBook.orders product) s.server.userStore := by
  have inHeld : ∀ o ∈ s.server.orderBook.orders product, o ∈ s.server.held s.inflight := fun o member =>
    List.mem_append_right _ (mem_getAllOrders.mpr ⟨product, member⟩)
  refine ⟨funded.sane.indexed.filed product, fun o member => funded.sane.admitted o (inHeld o member),
    fun u user d => ?_⟩
  have owed := plan_owed_le std (funded.sane.indexed.filed product)
    (fun o member => funded.sane.admitted o (inHeld o member)) (fun o => o.id ∉ s.released)
    (fun _ _ => rfl) (fun t member => by simpa using spares t member) user d
  have covers := funded.covers u user d
  have split := (live_perm s product).append_left s.inflight
  have nonneg := funded.need_nonneg user
  have claimed : claims ((s.server.orderBook.orders product).filter (fun o => o.id ∉ s.released)) u d ≤
      claims (s.inflight ++ s.live) u d := by
    rw [claims_perm split]
    exact claims_sublist ((List.sublist_append_left _ _).trans (List.sublist_append_right _ _))
      (fun o member => nonneg o (split.mem_iff.mpr member)) d
  exact owed.trans (claimed.trans covers)

theorem pass (funded : s.Funded) (env : Env ℚ) {std : StdSort (EntryPtr ℚ)} (now : Int) {product : Str}
    (spares : ∀ t ∈ passPlan std (s.server.orderBook.orders product),
      t.bid.entry.id ∉ s.released ∧ t.ask.entry.id ∉ s.released)
    (server : s'.server = (s.server.matchProduct env std now product).1)
    (sessions : s'.sessions = s.sessions) : s'.Funded := by
  have affordable := funded.affordable spares
  have flying : s'.inflight = s.inflight := by rw [Threads.inflight, sessions, Threads.inflight]
  have released : s'.released = s.released := by rw [Threads.released, sessions, Threads.released]
  have sane := funded.sane.matchProduct env std now product
  refine ⟨by rw [server, flying]; exact sane, fun c member => ?_, fun u user d => ?_⟩
  · rw [sessions] at member
    refine (funded.sessions c member).grown ⟨?_, ?_, fun o' member => ?_⟩
    · rw [server]
      exact matchProduct_users env std now s.server product
    · rw [server]
      exact matchProduct_nextId env std now s.server product
    · rw [flying] at member
      rw [server] at member
      obtain ⟨o, inHeld, x, rfl, -⟩ := mem_held_matchProduct env std now s.server product member
      exact Or.inl ⟨o, inHeld, rfl, rfl⟩
  · have run := passCross_ran env std now affordable
    have spent := run.locked affordable user d
    have kept := unspent_nonneg run u d
    obtain ⟨left, fewer, booked, -⟩ := matchProduct_held env std now s.server product
    -- the matches that are made are among the planned ones
    have made : (s.server.passCross env std now product).made <+:
        passPlan std (s.server.orderBook.orders product) := by
      have settled := passCross_settleAll std (s.server.orderBook.orders product) product
        (Server.getCurrentTimestamp env now) s.server.userStore s.server.nextId
      have first := Crossing.settleAll_made_prefix (settleMatch product
        (Server.getCurrentTimestamp env now)) ⟨s.server.userStore, s.server.nextId, [], []⟩
        (passPlan std (s.server.orderBook.orders product))
      rw [← settled] at first
      exact first
    have fallen : claims ((s.server.passWritten env std now product).filter
          (fun o => o.id ∉ s.released)) u d +
        ((s.server.passCross env std now product).made.map (fun t => owedBy product t u d)).sum =
          claims ((s.server.orderBook.orders product).filter (fun o => o.id ∉ s.released)) u d :=
      claims_crossWritten_filter std affordable.filed (fun o => o.id ∉ s.released) (fun _ _ => rfl)
        (settleMatch product (Server.getCurrentTimestamp env now))
        ⟨s.server.userStore, s.server.nextId, [], []⟩
        (fun t member => by simpa using spares t (made.subset member)) u d
    have live : s'.live.Perm (left.filter (fun o => o.id ∉ s.released) ++
        (s.server.orderBook.others product).filter (fun o => o.id ∉ s.released)) := by
      unfold Threads.live
      rw [released, ← List.filter_append, server]
      exact booked.filter _
    have rest : claims (left.filter (fun o => o.id ∉ s.released)) u d ≤
        claims ((s.server.passWritten env std now product).filter (fun o => o.id ∉ s.released)) u d := by
      refine claims_sublist (fewer.filter _) (fun o' member owner => ?_) d
      obtain ⟨o, inList, shrunk⟩ := ListFacts.forall₂_mem_right
        (passWritten_shrunk env std now s.server product) (List.mem_of_mem_filter member)
      refine shrunk.need_nonneg (affordable.admitted o inList ?_).nonneg
      rw [← shrunk.username, owner]
      exact user
    have covers := funded.covers u user d
    rw [claims_append, claims_perm (live_perm s product), claims_append] at covers
    rw [flying, claims_append, claims_perm live, claims_append, server, matchProduct_userStore]
    simp only [Pi.add_apply, UserStore.ledger_locked] at covers spent ⊢
    linarith

/-- A step that leaves the book, the users and the sessions alone. -/
theorem of_server (funded : s.Funded) (book : s'.server.orderBook = s.server.orderBook)
    (store : s'.server.userStore = s.server.userStore) (nextId : s'.server.nextId = s.server.nextId)
    (sessions : s'.sessions = s.sessions) : s'.Funded := by
  have flying : s'.inflight = s.inflight := by rw [Threads.inflight, sessions, Threads.inflight]
  have released : s'.released = s.released := by rw [Threads.released, sessions, Threads.released]
  have users : ∀ v, s.server.userStore.userExists v → s'.server.userStore.userExists v :=
    fun v known => by rwa [store]
  refine ⟨?_, fun c member => ?_, fun u user d => ?_⟩
  · rw [flying]
    exact funded.sane.of_store book users nextId.ge
  · rw [sessions] at member
    refine (funded.sessions c member).grown ⟨users, nextId.ge, fun o' inHeld => Or.inl ⟨o', ?_, rfl, rfl⟩⟩
    rwa [flying, Server.held, book] at inHeld
  · have live : s'.live = s.live := by
      unfold Threads.live
      rw [released, book]
    rw [flying, live, store]
    exact funded.covers u user d

/-- One step of a message. -/
theorem advance (funded : s.Funded) (sessions : s.sessions = before ++ c :: after)
    (reserved : ∀ o ∈ c.unlocks, o ∈ s.live) (moved : Session.Advanced env s.server c srv c')
    (server : s'.server = srv) (sessions' : s'.sessions = before ++ c' :: after) : s'.Funded := by
  have bound := funded.sessions c (mem_sessions sessions)
  have facts := bound.phase
  -- the steps that only answer
  have answers : ∀ {phase : Phase ℚ} {store : UserStore ℚ} {d : Session ℚ} (reply : Reply),
      c.phase = phase → (∀ o, phase ≠ .inserting o) → (∀ id, phase ≠ .removing id) →
      (∀ v, s.server.userStore.userExists v → store.userExists v) →
      store.locked = s.server.userStore.locked → Server.SessionUser store d.username →
      s'.server = { s.server with userStore := store } →
      s'.sessions = before ++ d.answer reply :: after → s'.Funded := by
    intro phase store d reply is noOrder noRemoval users locked user server sessions'
    refine funded.of_quiet sessions server sessions' rfl le_rfl users locked ?_ ?_ user
      fun held => Session.phaseBound_answer _ _ _ _ _
    · rw [Session.answer_inflight, Session.inflight_of_phase (by rwa [is])]
    · rw [Session.answer_removes, Session.removes_of_phase (by rw [is]; exact noRemoval)]
  cases moved with
  | @registered u p phase =>
    rw [phase] at facts
    have users : ∀ v, s.server.userStore.userExists v → (s.server.userStore.addUser u p).userExists v :=
      fun v known => by rw [UserStore.addUser, UserStore.userExists_emplace, known, Bool.or_true]
    have locked : (s.server.userStore.addUser u p).locked = s.server.userStore.locked :=
      congrArg Ledger.locked (UserStore.ledger_of_wallet (UserStore.wallet_emplace _ _ _))
    refine answers (d := { c with username := u }) _ phase (by simp) (by simp) users locked
      (Or.inr ⟨facts, ?_⟩) server sessions'
    rw [UserStore.addUser, UserStore.userExists_emplace, decide_eq_true rfl, Bool.true_or]
  | @loggedIn u p store phase got valid =>
    rw [phase] at facts
    obtain rfl := Except.ok.inj ((UserStore.getUser_of_known facts.2).symm.trans got)
    exact answers (d := { c with username := u }) _ phase (by simp) (by simp) (fun _ known => known) rfl
      (Or.inr facts) server sessions'
  | @rejected u p store phase reply got =>
    rw [phase] at facts
    obtain rfl : store = s.server.userStore := by
      rcases got with same | got
      · exact same
      · exact (Except.ok.inj ((UserStore.getUser_of_known facts.2).symm.trans got)).symm
    exact answers reply phase (by simp) (by simp) (fun _ known => known) rfl bound.user server sessions'
  | inserted phase => exact funded.inserted sessions phase server sessions'
  | @started product phase reply =>
    have store := Server.startMatchingProduct_userStore s.server product
    refine funded.of_quiet sessions server sessions' (Server.startMatchingProduct_orderBook _ _)
      (Server.startMatchingProduct_nextId _ _).ge (fun v known => by rwa [store]) (by rw [store]) ?_ ?_ ?_
      fun held => Session.phaseBound_answer _ _ _ _ _
    · rw [Session.answer_inflight, Session.inflight_of_phase (by simp [phase])]
    · rw [Session.answer_removes, Session.removes_of_phase (by simp [phase])]
    · rw [store]
      exact bound.user
  | @unlocked o srv' done phase ran =>
    refine funded.unlocked sessions phase (reserved o ?_) ran server sessions'
    unfold Session.unlocks
    rw [phase]
    rfl
  | failed phase reply thrown =>
    exact answers reply phase (by simp) (by simp) (fun _ known => known) rfl bound.user server sessions'
  | removed phase reply => exact funded.removed sessions phase reply server sessions'
  | @reported r phase =>
    have next := Session.reported_of_advanceReport env s.server.orderBook c r
    generalize c.advanceReport env s.server.orderBook r = c' at next sessions'
    have waits : ∀ phase' : Phase ℚ, (∀ o, phase' ≠ .inserting o) → (∀ id, phase' ≠ .removing id) →
        (∀ held, PhaseBound s.server held c.username phase') →
        s'.sessions = before ++ { c with phase := phase' } :: after → s'.Funded := by
      intro phase' noOrder noRemoval bound' sessions'
      refine funded.of_quiet sessions server sessions' rfl le_rfl (fun _ known => known) rfl ?_ ?_ bound.user
        bound'
      · exact (Session.inflight_of_phase noOrder).trans
          (Session.inflight_of_phase (by simp [phase])).symm
      · exact (Session.removes_of_phase noRemoval).trans
          (Session.removes_of_phase (by simp [phase])).symm
    cases next with
    | figure => exact waits (.reporting _) (by simp) (by simp) (fun _ => trivial) sessions'
    | dangling => exact waits .undefined (by simp) (by simp) (fun _ => trivial) sessions'
    | turned => exact waits (.reporting _) (by simp) (by simp) (fun _ => trivial) sessions'
    | answered =>
      exact answers _ phase (by simp) (by simp) (fun _ known => known) rfl bound.user server sessions'

theorem step (funded : s.Funded) {a : Action ℚ} (spares : s.Spares a) (taken : Taken env s a s') :
    s'.Funded := by
  cases taken with
  | connect =>
    have flying : Threads.inflight { s with sessions := s.sessions ++ [.connected] } = s.inflight := by
      simp [Threads.inflight, Session.connected, Session.inflight]
    have released : Threads.released { s with sessions := s.sessions ++ [.connected] } = s.released := by
      simp [Threads.released, Session.connected, Session.removes]
    refine ⟨by rw [flying]; exact funded.sane, fun c member => ?_, fun u user d => ?_⟩
    · rw [flying]
      rcases List.mem_append.mp member with earlier | new
      · exact funded.sessions c earlier
      · rw [List.mem_singleton.mp new]
        exact ⟨Or.inl rfl, trivial⟩
    · unfold Threads.live
      rw [flying, released]
      exact funded.covers u user d
  | message found sessions idle => exact funded.message sessions idle rfl rfl
  | advance found sessions moved =>
    exact funded.advance sessions (spares _ found) (Session.advanced_of_advance moved) rfl rfl
  | readProducts engine => exact funded.of_server rfl rfl rfl rfl
  | enqueue engine => exact funded.of_server rfl rfl rfl rfl
  | pop engine pending => exact funded.of_server rfl rfl rfl rfl
  | launch engine => exact funded.of_server rfl rfl rfl rfl
  | @task n std now product before after found tasks =>
    exact funded.pass env now (spares product found) rfl rfl
  | cleanup moved => exact funded.of_server rfl rfl rfl rfl

end Funded

end Threads

end MiniATS
