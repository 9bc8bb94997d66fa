import MiniATS.Misc.Machine
import MiniATS.Proofs.Lines
import MiniATS.Proofs.ThreadSteps
import MiniATS.Server.Network

/-!
# Commands and the segments they arrive in

Nothing in the bytes of a connection says where a command ends: a client sends a line as it was
typed and the server takes what one `read_some` returns for a whole message. The commands that
a session executes are the ones its client has sent exactly when every byte, but for line
ends, is returned by a `read_some` that begins where the `asio::write` of the byte began
(`commands_survive_iff`). Without carriage returns in the lines that means that every read
returns exactly what one write has sent.
-/

namespace MiniATS

open Str

/-- `'\n'` and `'\r'`, which the server removes at the end of a message. -/
def isLineEnd (c : UInt8) : Bool := c == 10 || c == 13

/-- The commands that messages are taken for: their tokens, unless there are none. -/
def commandsOf (messages : List Str) : List (List Str) :=
  (messages.map Server.tokenise).filter (fun tokens => !tokens.isEmpty)

/-- Every byte that is no line end is returned by a read that begins with the first byte of the
write it was sent by. -/
def Link.ReadsAreWrites (link : Link) : Prop :=
  Segments.Agree isLineEnd link.reads link.client.sent

section Commands

theorem tokenise_eq (message : Str) :
    Server.tokenise message = getlines 32 (message.rdropWhile isLineEnd) := rfl

theorem commandsOf_eq_map (messages : List Str) :
    commandsOf messages = (Segments.contents isLineEnd messages).map (getlines 32) := by
  unfold commandsOf Segments.contents
  rw [List.filter_map, List.filter_map, List.map_map]
  congr 1
  apply List.filter_congr
  intro message _
  simp only [Function.comp_apply, tokenise_eq]
  rw [Bool.eq_iff_iff]
  simp [getlines_eq_nil_iff]

private theorem trails_of_fields {texts texts' : List Str}
    (same : texts.map (getlines 32) = texts'.map (getlines 32))
    (filled : ∀ text ∈ texts, text ≠ []) (filled' : ∀ text ∈ texts', text ≠ []) :
    List.Forall₂ (Segments.Trails 32) texts texts' := by
  induction texts generalizing texts' with
  | nil =>
    obtain rfl := List.map_eq_nil_iff.mp same.symm
    exact .nil
  | cons text texts ih =>
    cases texts' with
    | nil => cases same
    | cons text' texts' =>
      obtain ⟨head, tail⟩ := List.cons.inj same
      obtain ⟨first, rest⟩ := List.forall_mem_cons.mp filled
      obtain ⟨first', rest'⟩ := List.forall_mem_cons.mp filled'
      exact .cons (trails_of_getlines head first first') (ih tail rest rest')

/-- Two cuts of one stream are taken for the same commands exactly when what is no line end lies
in messages that begin in the same place. -/
theorem commandsOf_eq_iff {messages messages' : List Str}
    (same : messages.flatten = messages'.flatten) :
    commandsOf messages = commandsOf messages' ↔ Segments.Agree isLineEnd messages messages' := by
  rw [← Segments.contents_eq_iff same, commandsOf_eq_map, commandsOf_eq_map]
  constructor
  · intro fields
    have filled : ∀ messages, ∀ text ∈ Segments.contents isLineEnd messages, text ≠ [] := by
      intro messages text member
      obtain ⟨before, x, rfl, -⟩ := Segments.getLast_of_mem_contents member
      simp
    exact Segments.contents_eq_of_trails (show isLineEnd 32 = false by decide) same
      (trails_of_fields fields (filled _) (filled _))
  · exact fun contents => by rw [contents]

end Commands

namespace Session

variable {R : Type}

/-- The messages a session has handled or is handling. -/
def handled (c : Session R) : List Str :=
  c.log.map Prod.fst ++
    match c.phase with
    | .idle | .ended => []
    | _ => [c.message]

/-- The commands a session has executed, the one under way included. -/
def executed (c : Session R) : List (List Str) := commandsOf c.handled

theorem handled_answer (c : Session R) (reply : Reply) :
    (c.answer reply).handled = c.log.map Prod.fst ++ [c.message] := by
  unfold handled
  rw [answer_log]
  rcases c.answer_phase reply with phase | phase
  · simp [phase]
  · simp [phase]

variable [Zero R] [Add R] [Sub R] [Mul R] [Div R] [LT R] [LE R] [DecidableLT R] [DecidableLE R] [BEq R]

/-- A message that is received is one more that is handled. -/
theorem handled_receive (env : Env R) (now : Int) (srv : Server R) {c : Session R}
    (idle : c.phase = .idle) (data : Str) :
    (c.receive env now srv data).2.handled = c.handled ++ [data] := by
  have before : c.handled = c.log.map Prod.fst := by
    unfold handled
    rw [idle, List.append_nil]
  rw [before]
  have answered : ∀ reply, ({ c with message := data }.answer reply).handled =
      c.log.map Prod.fst ++ [data] := handled_answer _
  refine receive_cases (motive := fun r => r.2.handled = c.log.map Prod.fst ++ [data])
    (fun _ => ?_) (fun _ => ?_) (fun _ _ reply _ => answered reply) (fun _ _ _ _ => rfl)
    (fun _ _ _ => rfl) (fun _ => answered _) (fun _ => rfl) (fun _ _ _ _ => rfl)
    (fun reply _ _ => answered reply)
  · unfold receiveRegister
    split
    · split
      · exact answered _
      split
      · exact answered _
      · rfl
    · exact answered _
  · unfold receiveLogin
    split
    · split
      · exact answered _
      split
      · rfl
      · exact answered _
    · exact answered _

/-- The next step of a message handles no other. -/
theorem Advanced.handled {env : Env R} {srv srv' : Server R} {c c' : Session R}
    (moved : Advanced env srv c srv' c') : c'.handled = c.handled := by
  have busy : ∀ {phase : Phase R}, c.phase = phase → phase.commands ≠ none →
      c.handled = c.log.map Prod.fst ++ [c.message] := by
    rintro phase rfl under
    unfold Session.handled
    split
    · rename_i idle
      exact absurd (by rw [idle]; rfl) under
    · rename_i ended
      exact absurd (by rw [ended]; rfl) under
    · rfl
  cases moved with
  | @reported r phase =>
    have next := reported_of_advanceReport env srv.orderBook c r
    generalize c.advanceReport env srv.orderBook r = c' at next
    rw [busy phase (Option.some_ne_none _)]
    cases next with
    | answered => exact handled_answer _ _
    | _ => rfl
  | registered phase | loggedIn phase | started phase | failed phase | removed phase =>
    rw [busy phase (Option.some_ne_none _)]
    exact handled_answer _ _
  | rejected phase =>
    rw [busy phase (Option.some_ne_none _)]
    exact handled_answer _ _
  | inserted phase =>
    rw [busy phase (Option.some_ne_none _)]
    rfl
  | unlocked phase =>
    rw [busy phase (Option.some_ne_none _)]
    rfl

end Session

/-- What a connection has carried to its session. -/
structure Link.Carries {R : Type} (link : Link) (c : Session R) : Prop where
  handled : c.handled = link.reads
  bytes : link.reads.flatten ++ link.toServer = link.client.sent.flatten

/-- A line typed at the client is sent or not. -/
theorem ClientMain.typeLine_sent {client client' : ClientMain} {userInput written : Str}
    (typed : client.typeLine userInput = some (client', written)) :
    client'.sent.flatten = client.sent.flatten ++ written := by
  unfold typeLine at typed
  split at typed
  · split at typed
    · obtain ⟨rfl, rfl⟩ := Prod.mk.inj (Option.some.inj typed)
      rw [List.append_nil]
    split at typed
    · obtain ⟨rfl, rfl⟩ := Prod.mk.inj (Option.some.inj typed)
      rw [List.append_nil]
    split at typed
    · obtain ⟨rfl, rfl⟩ := Prod.mk.inj (Option.some.inj typed)
      simp
    · obtain ⟨rfl, rfl⟩ := Prod.mk.inj (Option.some.inj typed)
      rw [List.append_nil]
  · cases typed

theorem ClientMain.read_sent {client client' : ClientMain} (read : client.read = some client') :
    client'.sent = client.sent := by
  unfold ClientMain.read at read
  split at read
  · obtain rfl := Option.some.inj read
    rfl
  · cases read

theorem ClientMain.readEnd_sent {client client' : ClientMain}
    (read : client.readEnd = some client') : client'.sent = client.sent := by
  unfold ClientMain.readEnd at read
  split at read
  · obtain rfl := Option.some.inj read
    rfl
  · cases read

namespace Threads

variable {R : Type} [Zero R] [Add R] [Sub R] [Mul R] [Div R] [LT R] [LE R] [DecidableLT R]
  [DecidableLE R] [BEq R] {env : Env R} {s s' : Threads R}

theorem next_message {sid : Nat} {now : Int} {data : Str}
    (step : next env s (.message sid now data) = some s') :
    ∃ c c', s.sessions[sid]? = some c ∧ s'.sessions = s.sessions.set sid c' ∧
      c'.handled = c.handled ++ [data] := by
  obtain ⟨c, session, idle, sessions⟩ := sessions_of_message step
  exact ⟨c, _, session, sessions, Session.handled_receive env now s.server idle data⟩

theorem next_advance {sid : Nat} (step : next env s (.advance sid) = some s') :
    ∃ c c', s.sessions[sid]? = some c ∧ s'.sessions = s.sessions.set sid c' ∧
      c'.handled = c.handled := by
  obtain ⟨c, srv, c', session, moved, sessions⟩ := sessions_of_advance step
  exact ⟨c, c', session, sessions, (Session.advanced_of_advance moved).handled⟩

end Threads

namespace Network

variable {R : Type} {s s' : Network R}

/-- Every session has one connection, and what it handles is what the connection has carried. -/
structure Matched (s : Network R) : Prop where
  length : s.links.length = s.threads.sessions.length
  carries : ∀ (sid : Nat) (c : Session R) (link : Link), s.threads.sessions[sid]? = some c →
    s.links[sid]? = some link → link.Carries c

theorem Matched.set (matched : s.Matched) {sid : Nat} {c : Session R} {link : Link}
    (sessions : s'.threads.sessions = s.threads.sessions.set sid c)
    (links : s'.links = s.links.set sid link) (carries : link.Carries c) : s'.Matched := by
  constructor
  · rw [sessions, links, List.length_set, List.length_set, matched.length]
  · intro i d other found there
    rw [sessions, List.getElem?_set] at found
    rw [links, List.getElem?_set] at there
    split at found
    · rename_i same
      rw [if_pos same] at there
      split at found
      · split at there
        · obtain rfl := Option.some.inj found
          obtain rfl := Option.some.inj there
          exact carries
        · cases there
      · cases found
    · rename_i different
      rw [if_neg different] at there
      exact matched.carries i d other found there

/-- A step of a client leaves the sessions as they are. -/
theorem Matched.setLink (matched : s.Matched) {sid : Nat} {link link' : Link}
    (found : s.links[sid]? = some link) (carries : ∀ c : Session R, link.Carries c → link'.Carries c) :
    Matched { s with links := s.links.set sid link' } := by
  obtain ⟨bound, -⟩ := List.getElem?_eq_some_iff.mp found
  rw [matched.length] at bound
  refine matched.set (c := s.threads.sessions[sid]) ?_ rfl
    (carries _ (matched.carries sid _ link (List.getElem?_eq_getElem bound) found))
  exact (List.set_getElem_self bound).symm

variable [Zero R] [Add R] [Sub R] [Mul R] [Div R] [LT R] [LE R] [DecidableLT R] [DecidableLE R] [BEq R]
  {env : Env R}

theorem Matched.inside (matched : s.Matched) {a : MiniATS.Action R}
    (alone : ∀ threads, Threads.next env s.threads a = some threads →
      threads.sessions = s.threads.sessions) (step : s.inside env a = some s') : s'.Matched := by
  obtain ⟨threads, moved, rfl⟩ := Option.map_eq_some_iff.mp step
  constructor
  · rw [alone threads moved]
    exact matched.length
  · rw [alone threads moved]
    exact matched.carries

theorem Matched.answering (matched : s.Matched) {sid : Nat} {a : MiniATS.Action R} {link : Link}
    (messages : List Str)
    (one : ∀ threads, Threads.next env s.threads a = some threads → ∃ c c',
      s.threads.sessions[sid]? = some c ∧ threads.sessions = s.threads.sessions.set sid c' ∧
        c'.handled = c.handled ++ messages)
    (carries : ∀ c c' : Session R, s.threads.sessions[sid]? = some c →
      c'.handled = c.handled ++ messages → link.Carries c')
    (step : s.answering env sid a link = some s') : s'.Matched := by
  obtain ⟨threads, moved, rfl⟩ := Option.map_eq_some_iff.mp step
  obtain ⟨c, c', found, sessions, handled⟩ := one threads moved
  obtain ⟨all, bytes⟩ := carries c c' found handled
  exact matched.set sessions rfl ⟨all, bytes⟩

theorem matched_step (matched : s.Matched) {a : Action R} (step : next env s a = some s') :
    s'.Matched := by
  cases a with
  | connect =>
    simp only [next] at step
    obtain ⟨threads, moved, rfl⟩ := Option.map_eq_some_iff.mp step
    obtain rfl := Option.some.inj moved
    refine ⟨by simp [matched.length], fun i d other found there => ?_⟩
    rcases Nat.lt_or_ge i s.links.length with old | new
    · rw [List.getElem?_append_left old] at there
      rw [List.getElem?_append_left (matched.length ▸ old)] at found
      exact matched.carries i d other found there
    · rw [List.getElem?_append_right new] at there
      rw [List.getElem?_append_right (matched.length ▸ new), ← matched.length] at found
      obtain rfl := List.mem_singleton.mp (List.mem_of_getElem? there)
      obtain rfl := List.mem_singleton.mp (List.mem_of_getElem? found)
      exact ⟨rfl, rfl⟩
  | typeLine sid userInput =>
    simp only [next] at step
    cases found : s.links[sid]? with
    | none => simp [found] at step
    | some link =>
      simp only [found] at step
      split at step
      · cases step
      obtain ⟨⟨client, written⟩, typed, rfl⟩ := Option.map_eq_some_iff.mp step
      refine matched.setLink found fun c carried => ⟨carried.handled, ?_⟩
      dsimp only
      rw [← List.append_assoc, carried.bytes, ClientMain.typeLine_sent typed]
  | readResponse sid length =>
    simp only [next] at step
    cases found : s.links[sid]? with
    | none => simp [found] at step
    | some link =>
      simp only [found] at step
      split at step
      · obtain ⟨client, read, rfl⟩ := Option.map_eq_some_iff.mp step
        refine matched.setLink found fun c carried => ⟨carried.handled, ?_⟩
        exact carried.bytes.trans (congrArg _ (ClientMain.read_sent read).symm)
      split at step
      · split at step
        · obtain ⟨client, read, rfl⟩ := Option.map_eq_some_iff.mp step
          refine matched.setLink found fun c carried => ⟨carried.handled, ?_⟩
          exact carried.bytes.trans (congrArg _ (ClientMain.readEnd_sent read).symm)
        · cases step
      · cases step
  | readRequest sid now length =>
    simp only [next] at step
    cases found : s.links[sid]? with
    | none => simp [found] at step
    | some link =>
      simp only [found] at step
      split at step
      · refine matched.answering _ (fun _ => Threads.next_message) (fun c c' session handled => ?_) step
        obtain ⟨all, bytes⟩ := matched.carries sid c link session found
        refine ⟨by rw [handled, all], ?_⟩
        rw [← bytes]
        simp
      · cases step
  | advance sid =>
    simp only [next] at step
    cases found : s.links[sid]? with
    | none => simp [found] at step
    | some link =>
      simp only [found] at step
      refine matched.answering [] (fun _ moved => ?_)
        (fun c c' session handled => ?_) step
      · simpa only [List.append_nil] using Threads.next_advance moved
      · obtain ⟨all, bytes⟩ := matched.carries sid c link session found
        exact ⟨by rw [handled, all, List.append_nil], bytes⟩
  | engine =>
    refine matched.inside (fun threads moved => ?_) step
    cases Threads.taken_of_next moved <;> rfl
  | task n std now =>
    refine matched.inside (fun threads moved => ?_) step
    cases Threads.taken_of_next moved
    rfl
  | cleanup =>
    refine matched.inside (fun threads moved => ?_) step
    cases Threads.taken_of_next moved
    rfl

/-- A session whose client's bytes have all been read has executed the commands its client has sent
exactly when its reads begin where the writes do. -/
theorem commands_survive_iff (env : Env R) (book : OrderBook R) (nextId : Nat) (store : UserStore R)
    (actions : List (Action R))
    (ran : Machine.exec (next env) (start (.start book nextId store)) actions = some s)
    {sid : Nat} {c : Session R} {link : Link} (session : s.threads.sessions[sid]? = some c)
    (connection : s.links[sid]? = some link) (delivered : link.toServer = []) :
    c.executed = commandsOf link.client.sent ↔ link.ReadsAreWrites := by
  have matched : s.Matched := by
    refine Machine.exec_keeps Matched (fun _ _ _ holds step => matched_step holds step)
      ⟨rfl, fun i d other found => ?_⟩ ran
    cases found
  obtain ⟨handled, bytes⟩ := matched.carries sid c link session connection
  rw [delivered, List.append_nil] at bytes
  rw [Session.executed, handled]
  exact commandsOf_eq_iff bytes

/-- Alice registers and sends `DEPOSIT BTC 100`, which the server reads in pieces. -/
def deposit (pieces : List Nat) : List (Action ℚ) :=
  [.connect, .readResponse 0 26, .typeLine 0 (str "REGISTER alice pw"), .readRequest 0 0 17,
    .advance 0, .readResponse 0 28, .typeLine 0 (str "DEPOSIT BTC 100")] ++
  pieces.map (.readRequest 0 0)

/-- The tokens of the two commands, the second with a given amount. -/
private def depositCommands (amount : String) : List (List Str) :=
  [[str "REGISTER", str "alice", str "pw"], [str "DEPOSIT", str "BTC", str amount]]

/-- The only session has executed one list of commands, and all that its client has sent, another,
has been read. -/
private def Carried (s : Network ℚ) (executed sent : List (List Str)) : Prop :=
  s.threads.sessions.map Session.executed = [executed] ∧
    s.links.map (fun link => commandsOf link.client.sent) = [sent] ∧ s.links.map Link.toServer = [[]]

private instance (s : Network ℚ) (executed sent : List (List Str)) :
    Decidable (Carried s executed sent) := by
  unfold Carried
  infer_instance

private theorem Carried.exists {s : Network ℚ} {executed sent : List (List Str)}
    (carried : Carried s executed sent) :
    ∃ c link, s.threads.sessions[0]? = some c ∧ s.links[0]? = some link ∧ link.toServer = [] ∧
      c.executed = executed ∧ commandsOf link.client.sent = sent := by
  obtain ⟨sessions, links, delivered⟩ := carried
  obtain ⟨c, isOnly, ran⟩ := List.map_eq_singleton_iff.mp sessions
  obtain ⟨link, connection, wrote⟩ := List.map_eq_singleton_iff.mp links
  rw [connection] at delivered
  exact ⟨c, link, by rw [isOnly]; rfl, by rw [connection]; rfl, List.singleton_inj.mp delivered, ran,
    wrote⟩

/-- Read in one piece, both commands are executed as they were sent. -/
theorem commands_survive_whole :
    ∃ s, Machine.exec (next exactEnv) (start .fresh) (deposit [15]) = some s ∧
      ∃ c link, s.threads.sessions[0]? = some c ∧ s.links[0]? = some link ∧
        c.executed = commandsOf link.client.sent ∧ link.ReadsAreWrites := by
  obtain ⟨s, ran, carried⟩ := (Option.any_eq_true _ _).mp
    (show (Machine.exec (next exactEnv) (start .fresh) (deposit [15])).any (fun s =>
      decide (Carried s (depositCommands "100") (depositCommands "100"))) = true by decide +kernel)
  obtain ⟨c, link, session, connection, delivered, executed, sent⟩ :=
    (of_decide_eq_true carried).exists
  have same : c.executed = commandsOf link.client.sent := executed.trans sent.symm
  exact ⟨s, ran, c, link, session, connection, same,
    (commands_survive_iff exactEnv _ _ _ _ ran session connection delivered).mp same⟩

/-- Cut after the first digit of the amount, it deposits one bitcoin instead of a hundred. -/
theorem deposit_cut :
    ∃ s, Machine.exec (next exactEnv) (start .fresh) (deposit [13, 2]) = some s ∧
      ∃ c link, s.threads.sessions[0]? = some c ∧ s.links[0]? = some link ∧ link.toServer = [] ∧
        c.executed ≠ commandsOf link.client.sent ∧
        (s.threads.server.userStore.wallet (str "alice")).currencies.get (str "BTC") 0 = 1 := by
  obtain ⟨s, ran, both⟩ := (Option.any_eq_true _ _).mp
    (show (Machine.exec (next exactEnv) (start .fresh) (deposit [13, 2])).any (fun s =>
      decide (Carried s (depositCommands "1" ++ [[str "00"]]) (depositCommands "100") ∧
        (s.threads.server.userStore.wallet (str "alice")).currencies.get (str "BTC") 0 = 1)) = true by
          decide +kernel)
  obtain ⟨carried, balance⟩ := of_decide_eq_true both
  obtain ⟨c, link, session, connection, delivered, executed, sent⟩ := carried.exists
  refine ⟨s, ran, c, link, session, connection, delivered, ?_, balance⟩
  rw [executed, sent]
  decide +kernel

end Network

end MiniATS
