import MiniATS.Proofs.Accounts
import MiniATS.Proofs.ThreadSteps

/-!
# Passwords presented

`REGISTER` asks `userExists` and adds the user in two steps, and `addUser` keeps a user who is
already there. A session acts on an account whose password it has presented in every run in
which no user is added under a name that is taken with another password.
-/

namespace MiniATS

open UserStore

variable {R : Type}

/-- A message with a command, a username and a password. -/
def Asks (data command u p : Str) : Prop :=
  Server.commandOf (Server.tokenise data) = command ∧ ∃ first, Server.tokenise data = [first, u, p]

namespace Session

/-- The session has sent `REGISTER u p` or `LOGIN u p`. -/
def Presented (c : Session R) (u p : Str) : Prop :=
  ∃ entry ∈ c.log, Asks entry.1 (str "REGISTER") u p ∨ Asks entry.1 (str "LOGIN") u p

/-- The session has sent `REGISTER u p` and has been answered `OK`. -/
def Registered (c : Session R) (u p : Str) : Prop :=
  ∃ entry ∈ c.log, Asks entry.1 (str "REGISTER") u p ∧
    entry.2 = .text (str "OK User registered as " ++ u)

/-- Adding the user keeps the password that the session has sent. -/
def Uncontested (store : UserStore R) (c : Session R) : Prop :=
  match c.phase with
  | .registering u p => ∀ q ∈ store.passwordOf u, q = p
  | _ => True

instance (store : UserStore R) (c : Session R) : Decidable (c.Uncontested store) := by
  unfold Uncontested
  split <;> infer_instance

/-- A session that has presented the password of its user, and what this rests on. -/
structure Authentic (store : UserStore R) (c : Session R) : Prop where
  user : c.username ≠ defaultUser
  presented : c.username ≠ [] → ∃ p, store.passwordOf c.username = some p ∧ c.Presented c.username p
  registered : ∀ u p, c.Registered u p → u ≠ defaultUser ∧ store.passwordOf u = some p
  registering : ∀ u p, c.phase = .registering u p →
    u ≠ defaultUser ∧ Asks c.message (str "REGISTER") u p
  loggingIn : ∀ u p, c.phase = .loggingIn u p → u ≠ defaultUser ∧ Asks c.message (str "LOGIN") u p

theorem Presented.mono {c c' : Session R} {u p : Str} (presented : c.Presented u p)
    (log : c.log ⊆ c'.log) : c'.Presented u p :=
  let ⟨entry, member, asks⟩ := presented
  ⟨entry, log member, asks⟩

theorem authentic_connected (store : UserStore R) : Authentic store connected where
  user := show ([] : Str) ≠ defaultUser by decide
  presented := fun loggedIn => absurd rfl loggedIn
  registered := fun _ _ ⟨_, member, _⟩ => absurd member List.not_mem_nil
  registering := fun _ _ phase => by cases phase
  loggingIn := fun _ _ phase => by cases phase

/-- Passwords of users but `default` stay. -/
def Keeps (store store' : UserStore R) : Prop :=
  ∀ u, u ≠ defaultUser → ∀ p, store.passwordOf u = some p → store'.passwordOf u = some p

theorem Authentic.mono {store store' : UserStore R} {c : Session R} (authentic : c.Authentic store)
    (keeps : Keeps store store') : c.Authentic store' where
  user := authentic.user
  presented := by
    intro loggedIn
    obtain ⟨p, stored, presented⟩ := authentic.presented loggedIn
    exact ⟨p, keeps _ authentic.user p stored, presented⟩
  registered := by
    intro u p registered
    obtain ⟨user, stored⟩ := authentic.registered u p registered
    exact ⟨user, keeps u user p stored⟩
  registering := authentic.registering
  loggingIn := authentic.loggingIn

/-- A new message, and a phase that waits for no password. -/
theorem Authentic.waits {store : UserStore R} {c : Session R} (authentic : c.Authentic store)
    {data : Str} {phase : Phase R}
    (notRegistering : ∀ u p, phase ≠ .registering u p) (notLoggingIn : ∀ u p, phase ≠ .loggingIn u p) :
    Authentic store { c with message := data, phase } where
  user := authentic.user
  presented := authentic.presented
  registered := authentic.registered
  registering := fun u p is => absurd is (notRegistering u p)
  loggingIn := fun u p is => absurd is (notLoggingIn u p)

private theorem mem_log_answer {c : Session R} {reply : Reply} {entry : Str × Reply}
    (member : entry ∈ (c.answer reply).log) : entry ∈ c.log ∨ entry = (c.message, reply) := by
  simpa using member

/-- An answer that is not the one to a `REGISTER`. -/
theorem Authentic.answer {store : UserStore R} {c : Session R} (authentic : c.Authentic store)
    {reply : Reply} (refused : Server.commandOf (Server.tokenise c.message) = str "REGISTER" →
      ∀ u, reply ≠ .text (str "OK User registered as " ++ u)) : (c.answer reply).Authentic store where
  user := authentic.user
  presented := by
    intro loggedIn
    obtain ⟨p, stored, presented⟩ := authentic.presented loggedIn
    exact ⟨p, stored, presented.mono (by simp)⟩
  registered := by
    rintro u p ⟨entry, member, asks, ok⟩
    rcases mem_log_answer member with old | rfl
    · exact authentic.registered u p ⟨entry, old, asks, ok⟩
    · exact absurd ok (refused asks.1 u)
  registering := by
    intro u p phase
    rcases c.answer_phase reply with is | is <;> cases is.symm.trans phase
  loggingIn := by
    intro u p phase
    rcases c.answer_phase reply with is | is <;> cases is.symm.trans phase

/-- The answer that lets a session in, to a message that presents the password stored. -/
theorem Authentic.admitted {store : UserStore R} {c : Session R} (authentic : c.Authentic store)
    {u p rest : Str} (user : u ≠ defaultUser) (stored : store.passwordOf u = some p)
    (asks : Asks c.message (str "REGISTER") u p ∧ rest = str "OK User registered as " ++ u ∨
      Asks c.message (str "LOGIN") u p) :
    ({ c with username := u }.answer (.text rest)).Authentic store where
  user := user
  presented := by
    intro _
    refine ⟨p, stored, ⟨(c.message, .text rest), by simp, ?_⟩⟩
    exact asks.imp And.left id
  registered := by
    rintro u' p' ⟨entry, member, ⟨command, first, tokens⟩, ok⟩
    rcases mem_log_answer member with old | rfl
    · exact authentic.registered u' p' ⟨entry, old, ⟨command, first, tokens⟩, ok⟩
    · -- the new entry can only be the `REGISTER` that has just been answered
      rcases asks with ⟨⟨-, first', tokens'⟩, -⟩ | ⟨login, -⟩
      · obtain ⟨-, rfl, rfl⟩ : first = first' ∧ u' = u ∧ p' = p := by
          simpa using tokens.symm.trans tokens'
        exact ⟨user, stored⟩
      · exact absurd (command.symm.trans login) (by decide)
  registering := by
    intro u' p' phase
    rcases answer_phase { c with username := u } (.text rest) with is | is <;>
      cases is.symm.trans phase
  loggingIn := by
    intro u' p' phase
    rcases answer_phase { c with username := u } (.text rest) with is | is <;>
      cases is.symm.trans phase

/-- A new message, when no other is under way. -/
theorem Authentic.sent {store : UserStore R} {c : Session R} (authentic : c.Authentic store)
    (idle : c.phase = .idle) (data : Str) : Authentic store { c with message := data } :=
  authentic.waits (by simp [idle]) (by simp [idle])

private theorem err_ne {line : Str} (err : line.head? = some 69) (u : Str) :
    Reply.text line ≠ .text (str "OK User registered as " ++ u) := by
  intro same
  rw [Reply.text.inj same] at err
  exact absurd (Option.some.inj err) (by decide)

end Session

variable [Zero R] [Add R] [Sub R] [Mul R] [Div R] [LT R] [LE R] [DecidableLT R] [DecidableLE R]
  [BEq R]

namespace Session

variable {env : Env R} {srv srv' : Server R} {c c' : Session R}

/-- What a step of a session keeps: the passwords, and that the session has presented its own. -/
def StaysAuthentic (srv : Server R) (r : Server R × Session R) : Prop :=
  Keeps srv.userStore r.1.userStore ∧ r.2.Authentic r.1.userStore

omit [Add R] [Sub R] [Mul R] [Div R] [LT R] [LE R] [DecidableLT R] [DecidableLE R] [BEq R] [Zero R] in
private theorem Authentic.of_same (authentic : c'.Authentic srv.userStore)
    (same : ∀ v, srv'.userStore.passwordOf v = srv.userStore.passwordOf v) :
    StaysAuthentic srv (srv', c') :=
  have keeps : Keeps srv.userStore srv'.userStore := fun u _ _ stored => (same u).trans stored
  ⟨keeps, authentic.mono keeps⟩

theorem Authentic.receive (authentic : c.Authentic srv.userStore) (idle : c.phase = .idle)
    (env : Env R) (now : Int) (data : Str) : StaysAuthentic srv (c.receive env now srv data) := by
  have asked := authentic.sent idle data
  have stays : ∀ {c' : Session R}, c'.Authentic srv.userStore → StaysAuthentic srv (srv, c') :=
    fun authentic => authentic.of_same fun _ => rfl
  have refused : ∀ {line : Str}, line.head? = some 69 →
      StaysAuthentic srv (srv, { c with message := data }.answer (.text line)) :=
    fun err => stays (asked.answer fun _ u => err_ne err u)
  have waits : ∀ {srv' : Server R} {phase : Phase R},
      (∀ u p, phase ≠ .registering u p) → (∀ u p, phase ≠ .loggingIn u p) →
      (∀ v, srv'.userStore.passwordOf v = srv.userStore.passwordOf v) →
      StaysAuthentic srv (srv', { c with message := data, phase }) :=
    fun notRegistering notLoggingIn => (authentic.waits notRegistering notLoggingIn).of_same
  refine Session.receive_cases (fun command => ?_) (fun command => ?_)
    (fun command srv' reply admitted => ?_) (fun _ srv' order admitted => ?_)
    (fun _ _ _ => waits (by simp) (by simp) fun _ => rfl) (fun command => ?_)
    (fun _ => waits (by simp) (by simp) fun _ => rfl)
    (fun _ _ _ _ => waits (by simp) (by simp) fun _ => rfl)
    (fun reply _ other => stays (asked.answer fun command => ?_))
  · unfold receiveRegister
    split
    · rename_i first u p tokens
      split
      · exact refused rfl
      split
      · exact refused rfl
      · refine stays ⟨authentic.user, authentic.presented, authentic.registered, ?_, by simp⟩
        rintro _ _ ⟨rfl, rfl⟩
        exact ⟨‹_›, command, first, tokens⟩
    · exact refused rfl
  · unfold receiveLogin
    split
    · rename_i first u p tokens
      split
      · exact refused rfl
      split
      · refine stays ⟨authentic.user, authentic.presented, authentic.registered, by simp, ?_⟩
        rintro _ _ ⟨rfl, rfl⟩
        exact ⟨‹_›, command, first, tokens⟩
      · exact refused rfl
    · exact refused rfl
  · have same : ∀ v, (srv.admitOrder env now c.username (Server.commandOf (Server.tokenise data))
        (Server.tokenise data)).1.userStore.passwordOf v = srv.userStore.passwordOf v :=
      srv.admitOrder_passwords env now authentic.user
    rw [admitted] at same
    refine Authentic.of_same (asked.answer fun register => ?_) same
    rw [register] at command
    exact absurd command (by decide)
  · have same : ∀ v, (srv.admitOrder env now c.username (Server.commandOf (Server.tokenise data))
        (Server.tokenise data)).1.userStore.passwordOf v = srv.userStore.passwordOf v :=
      srv.admitOrder_passwords env now authentic.user
    rw [admitted] at same
    exact waits (by simp) (by simp) same
  · refine Authentic.of_same (asked.answer fun register => ?_)
      fun v => Server.handleFunds_passwords env authentic.user v
    rw [register] at command
    exact absurd command (by decide)
  · rw [command] at other
    exact absurd other (by decide)

theorem Authentic.advance (authentic : c.Authentic srv.userStore) (coherent : c.Coherent)
    (uncontested : c.Uncontested srv.userStore) (moved : Advanced env srv c srv' c') :
    StaysAuthentic srv (srv', c') := by
  have answered : ∀ {srv' : Server R} {phase : Phase R} {names : List Str} {reply : Reply},
      c.phase = phase → phase.commands = some names → str "REGISTER" ∉ names →
      (∀ v, srv'.userStore.passwordOf v = srv.userStore.passwordOf v) →
      StaysAuthentic srv (srv', c.answer reply) :=
    fun is commands other =>
      (authentic.answer fun register => absurd register (coherent.other is commands other)).of_same
  have waits : ∀ {srv' : Server R} {phase : Phase R},
      (∀ u p, phase ≠ .registering u p) → (∀ u p, phase ≠ .loggingIn u p) →
      (∀ v, srv'.userStore.passwordOf v = srv.userStore.passwordOf v) →
      StaysAuthentic srv (srv', { c with phase }) :=
    fun notRegistering notLoggingIn => (authentic.waits notRegistering notLoggingIn).of_same
  cases moved with
  | @registered u p phase =>
    obtain ⟨user, asks⟩ := authentic.registering u p phase
    simp only [Uncontested, phase] at uncontested
    have added := fun v => passwordOf_emplace srv.userStore u v p
    have keeps : Keeps srv.userStore (srv.userStore.addUser u p) := by
      intro v _ q stored
      apply (added v).trans
      split
      · subst_vars
        rw [stored]
        rfl
      · exact stored
    have stored : (srv.userStore.addUser u p).passwordOf u = some p := by
      apply (added u).trans
      rw [if_pos rfl]
      cases taken : srv.userStore.passwordOf u with
      | none => rfl
      | some q => rw [Option.getD_some, uncontested q taken]
    exact ⟨keeps, (authentic.mono keeps).admitted user stored (Or.inl ⟨asks, rfl⟩)⟩
  | @loggedIn u p store phase got valid =>
    obtain ⟨user, asks⟩ := authentic.loggingIn u p phase
    obtain rfl := getUser_eq user got
    exact (authentic.admitted user (validatePassword_iff.mp valid) (Or.inr asks)).of_same fun _ => rfl
  | @rejected u p store phase reply got =>
    have same : store = srv.userStore := got.elim id (getUser_eq (authentic.loggingIn u p phase).1)
    exact answered phase rfl (by decide) fun v => by rw [same]
  | inserted phase => exact waits (by simp) (by simp) fun _ => rfl
  | started phase reply =>
    apply answered phase rfl (by decide)
    intro v
    rw [Server.startMatchingProduct_userStore]
  | unlocked phase unlocked =>
    exact waits (by simp) (by simp) (Server.cancelFunds_passwords authentic.user unlocked)
  | failed phase reply thrown => exact answered phase rfl (by decide) fun _ => rfl
  | removed phase reply => exact answered phase rfl (by decide) fun _ => rfl
  | @reported r phase =>
    have next := reported_of_advanceReport env srv.orderBook c r
    generalize c.advanceReport env srv.orderBook r = c' at next
    cases next with
    | figure => exact waits (by simp) (by simp) fun _ => rfl
    | dangling => exact waits (by simp) (by simp) fun _ => rfl
    | turned => exact waits (by simp) (by simp) fun _ => rfl
    | answered => exact answered phase rfl (by decide) fun _ => rfl

end Session

namespace Threads

variable {env : Env R} {s s' : Threads R} {a : Action R}

/-- The step adds no user under a name that is taken with another password. -/
def Uncontested (s : Threads R) : Action R → Prop
  | .advance sid => ∀ c ∈ s.sessions[sid]?, c.Uncontested s.server.userStore
  | _ => True

instance (s : Threads R) (a : Action R) : Decidable (s.Uncontested a) := by
  unfold Uncontested
  split <;> infer_instance

/-- Every session acts on an account whose password it has presented, and no two are answered `OK`
to a `REGISTER` of one name with different passwords. -/
structure PasswordsPresented (s : Threads R) : Prop where
  presented : ∀ c ∈ s.sessions, c.username ≠ [] →
    ∃ p, s.server.userStore.passwordOf c.username = some p ∧ c.Presented c.username p
  registered : ∀ c ∈ s.sessions, ∀ c' ∈ s.sessions, ∀ u p p', c.Registered u p → c'.Registered u p' →
    p = p'

theorem authentic_step (authentic : ∀ c ∈ s.sessions, c.Authentic s.server.userStore)
    (coherent : ∀ c ∈ s.sessions, c.Coherent) (uncontested : s.Uncontested a) (taken : Taken env s a s') :
    ∀ c ∈ s'.sessions, c.Authentic s'.server.userStore := by
  cases taken with
  | connect =>
    intro c member
    rcases List.mem_append.mp member with old | new
    · exact authentic c old
    · obtain rfl := List.mem_singleton.mp new
      exact Session.authentic_connected _
  | @message sid now data c before after found sessions idle =>
    obtain ⟨keeps, own⟩ := (authentic c (mem_sessions sessions)).receive idle env now data
    rw [sessions] at authentic
    exact forall_sessions (fun d member => (authentic d member).mono keeps) own
  | advance found sessions moved =>
    obtain ⟨keeps, own⟩ := (authentic _ (mem_sessions sessions)).advance
      (coherent _ (mem_sessions sessions)) (uncontested _ found) (Session.advanced_of_advance moved)
    rw [sessions] at authentic
    exact forall_sessions (fun d member => (authentic d member).mono keeps) own
  | @task n std now product before after found tasks =>
    intro c member
    apply (authentic c member).mono
    intro u user p stored
    exact (OrderBook.matchAsksToBids_accounts std s.server.orderBook product
      (Server.getCurrentTimestamp env now) s.server.userStore s.server.nextId u user).trans stored
  | _ => exact authentic

/-- In every state of a run that adds no user under a name taken with another password, sessions
have presented the passwords of their users. -/
theorem passwords_presented (env : Env R) (book : OrderBook R) (nextId : Nat) (store : UserStore R)
    (actions : List (Action R))
    (uncontested : Machine.Along (next env) Uncontested (start book nextId store) actions)
    (ran : Machine.exec (next env) (start book nextId store) actions = some s) :
    s.PasswordsPresented := by
  obtain ⟨authentic, -⟩ : (∀ c ∈ s.sessions, c.Authentic s.server.userStore) ∧
      ∀ c ∈ s.sessions, c.Coherent := by
    refine Machine.exec_invariant (fun s : Threads R =>
      (∀ c ∈ s.sessions, c.Authentic s.server.userStore) ∧ ∀ c ∈ s.sessions, c.Coherent)
      (fun _ _ _ holds uncontested step => ?_) ⟨?_, ?_⟩ uncontested ran
    · have taken := taken_of_next step
      exact ⟨authentic_step holds.1 holds.2 uncontested taken, coherent_step holds.2 taken⟩
    · exact fun _ member => absurd member List.not_mem_nil
    · exact fun _ member => absurd member List.not_mem_nil
  refine ⟨fun c member => (authentic c member).presented, ?_⟩
  intro c member c' member' u p p' one other
  obtain ⟨-, stored⟩ := (authentic c member).registered u p one
  obtain ⟨-, stored'⟩ := (authentic c' member').registered u p' other
  exact Option.some.inj (stored.symm.trans stored')

/-- Two clients register Alice, the second before the user of the first has been added. -/
def twoRegistrations (first second : String) : List (Action ℚ) :=
  [.connect, .connect, .message 0 0 (str ("REGISTER alice " ++ first)),
    .message 1 0 (str ("REGISTER alice " ++ second)), .advance 0, .advance 1]

/-- With one password, both have presented it. -/
theorem passwords_presented_same :
    ∃ s, Machine.exec (next exactEnv) fresh (twoRegistrations "pw" "pw") = some s ∧
      s.sessions.map Session.username = [str "alice", str "alice"] ∧ s.PasswordsPresented := by
  obtain ⟨s, ran, names⟩ := Option.map_eq_some_iff.mp
    (show (Machine.exec (next exactEnv) fresh (twoRegistrations "pw" "pw")).map
      (fun s => s.sessions.map Session.username) = some [str "alice", str "alice"] by decide +kernel)
  exact ⟨s, ran, names, passwords_presented exactEnv _ _ _ _ (by decide +kernel) ran⟩

/-- With two, the second acts on Alice's account without her password, and both are told `OK`. -/
theorem password_not_presented :
    ∃ s, Machine.exec (next exactEnv) fresh (twoRegistrations "pw" "other") = some s ∧
      ¬ s.PasswordsPresented := by
  let entry := fun p => (str ("REGISTER alice " ++ p), Reply.text (str "OK User registered as alice"))
  obtain ⟨s, ran, logs⟩ := Option.map_eq_some_iff.mp
    (show (Machine.exec (next exactEnv) fresh (twoRegistrations "pw" "other")).map
      (fun s => s.sessions.map Session.log) = some [[entry "pw"], [entry "other"]] by decide +kernel)
  have registered : ∀ p, [entry p] ∈ s.sessions.map Session.log →
      Asks (entry p).1 (str "REGISTER") (str "alice") (str p) →
      ∃ c ∈ s.sessions, c.Registered (str "alice") (str p) := by
    intro p member asks
    obtain ⟨c, inList, log⟩ := List.mem_map.mp member
    exact ⟨c, inList, entry p, by rw [log]; exact List.mem_cons_self, asks, rfl⟩
  obtain ⟨c, member, one⟩ := registered "pw" (by rw [logs]; simp)
    ⟨by decide +kernel, str "REGISTER", by decide +kernel⟩
  obtain ⟨c', member', other⟩ := registered "other" (by rw [logs]; simp)
    ⟨by decide +kernel, str "REGISTER", by decide +kernel⟩
  refine ⟨s, ran, fun presented => ?_⟩
  exact absurd (presented.registered c member c' member' _ _ _ one other) (by decide +kernel)

end Threads

end MiniATS
