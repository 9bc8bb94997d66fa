import MiniATS.Misc.Machine
import MiniATS.Proofs.ThreadSteps
import MiniATS.Server.Network

/-!
# Whose answer the client shows

The client reads once after every command, at most 512 bytes and whatever has arrived, and prints it
as the answer (`ClientMain.cpp:59-75`). As long as every read returns all that is pending, client and
server take turns, and every text is the whole reply to its command. A reply that is longer than the
buffer, or not there in one piece, moves every later answer.
-/

namespace MiniATS

open Str

variable {R : Type}

namespace Session

/-- A message is being handled. -/
def Busy (c : Session R) : Prop := c.phase ≠ .idle ∧ c.phase ≠ .ended

/-- The session has gone on with a message: it has answered it, or it is still busy with it. -/
inductive Handles (c c' : Session R) (message : Str) : Prop
  | answered (reply : Reply) (log : c'.log = c.log ++ [(message, reply)])
    (phase : c'.phase = if reply = .closed then .ended else .idle)
  | busy (log : c'.log = c.log) (same : c'.message = message) (busy : c'.Busy)

theorem Handles.of_answer {c d : Session R} (log : d.log = c.log) (reply : Reply) :
    Handles c (d.answer reply) d.message :=
  .answered reply (by rw [answer_log, log]) rfl

variable [Zero R] [Add R] [Sub R] [Mul R] [Div R] [LT R] [LE R] [DecidableLT R] [DecidableLE R] [BEq R]

theorem handles_receive (env : Env R) (now : Int) (srv : Server R) (c : Session R) (data : Str) :
    Handles c (c.receive env now srv data).2 data := by
  have answered : ∀ reply, Handles c ({ c with message := data }.answer reply) data :=
    fun reply => Handles.of_answer (c := c) (d := { c with message := data }) rfl reply
  have waits : ∀ phase : Phase R, phase ≠ .idle → phase ≠ .ended →
      Handles c { c with message := data, phase } data :=
    fun phase notIdle notEnded => .busy rfl rfl ⟨notIdle, notEnded⟩
  refine receive_cases (motive := fun r => Handles c r.2 data)
    (fun _ => ?_) (fun _ => ?_) (fun _ _ reply _ => answered reply) (fun _ _ _ _ => waits _ (by simp) (by simp))
    (fun _ _ _ => waits _ (by simp) (by simp)) (fun _ => answered _) (fun _ => waits _ (by simp) (by simp))
    (fun _ _ _ _ => waits _ (by simp) (by simp)) (fun reply _ _ => answered reply)
  · unfold receiveRegister
    split
    · split
      · exact answered _
      split
      · exact answered _
      · exact waits _ (by simp) (by simp)
    · exact answered _
  · unfold receiveLogin
    split
    · split
      · exact answered _
      split
      · exact waits _ (by simp) (by simp)
      · exact answered _
    · exact answered _

theorem Advanced.handles {env : Env R} {srv srv' : Server R} {c c' : Session R}
    (moved : Advanced env srv c srv' c') : c.Busy ∧ Handles c c' c.message := by
  have busy : ∀ {phase : Phase R}, c.phase = phase → phase ≠ .idle → phase ≠ .ended → c.Busy := by
    rintro phase rfl notIdle notEnded
    exact ⟨notIdle, notEnded⟩
  cases moved with
  | @registered u p phase =>
    exact ⟨busy phase (by simp) (by simp), Handles.of_answer (c := c) (d := { c with username := u }) rfl _⟩
  | @loggedIn u p store phase =>
    exact ⟨busy phase (by simp) (by simp), Handles.of_answer (c := c) (d := { c with username := u }) rfl _⟩
  | rejected phase reply | started phase reply | failed phase reply | removed phase reply =>
    exact ⟨busy phase (by simp) (by simp), Handles.of_answer rfl reply⟩
  | inserted phase => exact ⟨busy phase (by simp) (by simp), .busy rfl rfl ⟨by simp, by simp⟩⟩
  | unlocked phase => exact ⟨busy phase (by simp) (by simp), .busy rfl rfl ⟨by simp, by simp⟩⟩
  | @reported r phase =>
    refine ⟨busy phase (by simp) (by simp), ?_⟩
    have next := reported_of_advanceReport env srv.orderBook c r
    generalize c.advanceReport env srv.orderBook r = c' at next
    cases next with
    | answered => exact Handles.of_answer rfl _
    | _ => exact .busy rfl rfl ⟨by simp, by simp⟩

end Session

/-- The replies of a log as they are written. -/
def repliesOf (log : List (Str × Reply)) : List Str := log.map fun entry => entry.2.bytes

/-- How far client and server are with the last command, and what has been printed. -/
inductive Link.Conversation (link : Link) (c : Session R) (shown : List Str) : Prop
  | greeting (phase : link.client.phase = .greeted) (sent : link.client.sent = []) (log : c.log = [])
    (idle : c.phase = .idle) (request : link.toServer = []) (reply : link.toClient = welcome)
    (shows : shown = [])
  | between (phase : link.client.phase = .prompting ∨ link.client.phase = .ended)
    (sent : link.client.sent = c.log.map Prod.fst) (idle : c.phase = .idle)
    (request : link.toServer = []) (reply : link.toClient = []) (shows : shown = repliesOf c.log)
  | requested {command : Str} (phase : link.client.phase = .responding)
    (sent : link.client.sent = c.log.map Prod.fst ++ [command]) (idle : c.phase = .idle)
    (request : link.toServer = command) (reply : link.toClient = []) (shows : shown = repliesOf c.log)
  | handling (phase : link.client.phase = .responding)
    (sent : link.client.sent = c.log.map Prod.fst ++ [c.message]) (busy : c.Busy)
    (request : link.toServer = []) (reply : link.toClient = []) (shows : shown = repliesOf c.log)
  | answered {front : List (Str × Reply)} {command : Str} {answer : Reply}
    (phase : link.client.phase = .responding) (log : c.log = front ++ [(command, answer)])
    (sent : link.client.sent = c.log.map Prod.fst)
    (free : c.phase = if answer = .closed then .ended else .idle)
    (request : link.toServer = []) (reply : link.toClient = answer.bytes) (shows : shown = repliesOf front)
  | closed {front : List (Str × Reply)} {command : Str} {answer : Reply}
    (phase : link.client.phase = .ended) (log : c.log = front ++ [(command, answer)])
    (sent : link.client.sent = c.log.map Prod.fst) (ended : c.phase = .ended)
    (request : link.toServer = []) (reply : link.toClient = []) (shows : shown = repliesOf front)

/-- What is shown are the first replies, and they are the replies to the first commands. -/
theorem Link.Conversation.prefixes {link : Link} {c : Session R} {shown : List Str}
    (talk : link.Conversation c shown) :
    shown <+: repliesOf c.log ∧ c.log.map Prod.fst <+: link.client.sent := by
  cases talk with
  | greeting _ _ log _ _ _ shows =>
    rw [shows, log]
    exact ⟨List.nil_prefix, List.nil_prefix⟩
  | between _ sent _ _ _ shows =>
    rw [shows, sent]
    exact ⟨List.prefix_rfl, List.prefix_rfl⟩
  | requested _ sent _ _ _ shows | handling _ sent _ _ _ shows =>
    rw [shows, sent]
    exact ⟨List.prefix_rfl, List.prefix_append _ _⟩
  | answered _ log sent _ _ _ shows | closed _ log sent _ _ _ shows =>
    rw [shows, sent, log, repliesOf, repliesOf, List.map_append]
    exact ⟨List.prefix_append _ _, List.prefix_rfl⟩

namespace Network

/-- The text that a step prints as an answer at the client of a session (`ClientMain.cpp:66-75`). -/
def prints (sid : Nat) (t : Network R × Action R) : Option Str :=
  match t.2 with
  | .readResponse i length =>
    if i = sid ∧ 0 < length then
      t.1.links[sid]?.bind fun link =>
        if link.client.phase = .responding then some (link.toClient.take length) else none
    else none
  | _ => none

/-- The answers that the client of a session has printed: one text after every command it has sent. -/
def printed (sid : Nat) (past : List (Network R × Action R)) : List Str := past.filterMap (prints sid)

/-- Every `read_some` of the two ends of a connection returns all that is pending. -/
def ReadsAll (sid : Nat) (s : Network R) : Action R → Prop
  | .readResponse i length => i = sid → ∀ link ∈ s.links[sid]?, length = link.toClient.length
  | .readRequest i _ length => i = sid → ∀ link ∈ s.links[sid]?, length = link.toServer.length
  | _ => True

/-- The text printed after the `k`-th command is the whole reply to the `k`-th command. -/
def OwnAnswers (sid : Nat) (past : List (Network R × Action R)) (s : Network R) : Prop :=
  ∀ (k : Nat) (text : Str), (printed sid past)[k]? = some text → ∃ (c : Session R) (link : Link) (command : Str) (reply : Reply),
    s.threads.sessions[sid]? = some c ∧ s.links[sid]? = some link ∧
      link.client.sent[k]? = some command ∧ c.log[k]? = some (command, reply) ∧ text = reply.bytes

/-- What holds of a session and its connection as long as everything is read. -/
structure Conversing (sid : Nat) (past : List (Network R × Action R)) (s : Network R) : Prop where
  length : s.links.length = s.threads.sessions.length
  absent : s.links[sid]? = none → printed sid past = []
  talks : ∀ c link, s.threads.sessions[sid]? = some c → s.links[sid]? = some link →
    link.Conversation c (printed sid past)

section Invariant

variable {sid : Nat} {past : List (Network R × Action R)} {s s' : Network R} {a : Action R}

theorem printed_concat : printed sid (past ++ [(s, a)]) = printed sid past ++ (prints sid (s, a)).toList := by
  unfold printed
  rw [List.filterMap_append]
  cases found : prints sid (s, a) with
  | none => simp [found]
  | some text => simp [found]

private theorem get_of_prefix {α : Type} {l l' : List α} (within : l <+: l') {k : Nat} {x : α}
    (found : l[k]? = some x) : l'[k]? = some x := by
  obtain ⟨rest, rfl⟩ := within
  obtain ⟨bound, -⟩ := List.getElem?_eq_some_iff.mp found
  rwa [List.getElem?_append_left bound]

theorem Conversing.ownAnswers (talking : Conversing sid past s) : OwnAnswers sid past s := by
  intro k text shown
  cases connection : s.links[sid]? with
  | none =>
    rw [talking.absent connection] at shown
    cases shown
  | some link =>
    obtain ⟨bound, -⟩ := List.getElem?_eq_some_iff.mp connection
    rw [talking.length] at bound
    have session := List.getElem?_eq_getElem bound
    generalize s.threads.sessions[sid] = c at session
    obtain ⟨replies, commands⟩ := (talking.talks c link session connection).prefixes
    have entry := get_of_prefix replies shown
    rw [repliesOf, List.getElem?_map] at entry
    obtain ⟨⟨command, reply⟩, logged, rfl⟩ := Option.map_eq_some_iff.mp entry
    refine ⟨c, link, command, reply, session, rfl, ?_, logged, rfl⟩
    apply get_of_prefix commands
    rw [List.getElem?_map, logged]
    rfl

/-- The steps of other sessions and of the server. -/
theorem Conversing.mono (talking : Conversing sid past s)
    (length : s'.links.length = s'.threads.sessions.length) (link : s'.links[sid]? = s.links[sid]?)
    (session : s'.threads.sessions[sid]? = s.threads.sessions[sid]?) (quiet : prints sid (s, a) = none) :
    Conversing sid (past ++ [(s, a)]) s' := by
  have same : printed sid (past ++ [(s, a)]) = printed sid past := by
    rw [printed_concat, quiet]
    exact List.append_nil _
  constructor
  · exact length
  · rw [link, same]
    exact talking.absent
  · rw [link, session, same]
    exact talking.talks

/-- A step of the session or of its client. -/
theorem Conversing.turn (talking : Conversing sid past s) {c c' : Session R} {link link' : Link}
    (session : s.threads.sessions[sid]? = some c) (connection : s.links[sid]? = some link)
    (sessions : s'.threads.sessions = s.threads.sessions.set sid c') (links : s'.links = s.links.set sid link')
    (talk : link.Conversation c (printed sid past) →
      link'.Conversation c' (printed sid past ++ (prints sid (s, a)).toList)) :
    Conversing sid (past ++ [(s, a)]) s' := by
  have there := (List.getElem?_eq_some_iff.mp connection).1
  have there' := (List.getElem?_eq_some_iff.mp session).1
  constructor
  · rw [sessions, links, List.length_set, List.length_set, talking.length]
  · rw [links, List.getElem?_set_self there]
    exact fun none' => nomatch none'
  · intro d other found found'
    rw [sessions, List.getElem?_set_self there'] at found
    rw [links, List.getElem?_set_self there] at found'
    obtain rfl := Option.some.inj found
    obtain rfl := Option.some.inj found'
    rw [printed_concat]
    exact talk (talking.talks c link session connection)

end Invariant

section Turns

variable {link : Link} {c c' : Session R} {shown : List Str}

/-- The client sends a line, and nobody else is to move. -/
theorem typed_turn (talk : link.Conversation c shown) {userInput written : Str} {client : ClientMain}
    (typed : link.client.typeLine userInput = some (client, written)) :
    Link.Conversation { link with client, toServer := link.toServer ++ written } c shown := by
  unfold ClientMain.typeLine at typed
  split at typed
  · rename_i prompting
    cases talk with
    | between phase sent idle request reply shows =>
      split at typed
      · obtain ⟨rfl, rfl⟩ := Prod.mk.inj (Option.some.inj typed)
        exact .between (Or.inr rfl) sent idle (by simpa using request) reply shows
      split at typed
      · obtain ⟨rfl, rfl⟩ := Prod.mk.inj (Option.some.inj typed)
        exact .between phase sent idle (by simpa using request) reply shows
      split at typed
      · obtain ⟨rfl, rfl⟩ := Prod.mk.inj (Option.some.inj typed)
        refine @Link.Conversation.requested _ _ _ _ userInput rfl ?_ idle ?_ reply shows
        · rw [← sent]
        · rw [request]
          rfl
      · obtain ⟨rfl, rfl⟩ := Prod.mk.inj (Option.some.inj typed)
        exact .between phase sent idle (by simpa using request) reply shows
    | greeting phase | requested phase | handling phase | answered phase | closed phase =>
      rw [prompting] at phase
      cases phase
  · cases typed

/-- The client reads the greeting or an answer, which is all that is pending. -/
theorem read_turn (talk : link.Conversation c shown) {client : ClientMain} (read : link.client.read = some client)
    (some' : 0 < link.toClient.length) :
    Link.Conversation { link with client, toClient := link.toClient.drop link.toClient.length } c
      (shown ++ if link.client.phase = .responding then [link.toClient] else []) := by
  unfold ClientMain.read at read
  split at read
  · rename_i waiting
    obtain rfl := Option.some.inj read
    cases talk with
    | greeting phase sent log idle request reply shows =>
      refine .between (Or.inl rfl) ?_ idle request (by simp) ?_
      · simp [sent, log]
      · simp [phase, shows, log, repliesOf]
    | @answered front command answer phase log sent free request reply shows =>
      have open' : answer ≠ .closed := by
        rintro rfl
        rw [reply] at some'
        exact absurd some' (by decide)
      refine .between (Or.inl rfl) sent ?_ request (by simp) ?_
      · rw [free, if_neg open']
      · rw [if_pos phase, shows, log, reply, repliesOf, repliesOf, List.map_append]
        rfl
    | requested phase sent idle request reply | handling phase sent busy request reply =>
      rw [reply] at some'
      exact absurd some' (Nat.lt_irrefl 0)
    | between phase =>
      rcases phase with phase | phase
      all_goals
        rw [phase] at waiting
        exact absurd waiting (by decide)
    | closed phase =>
      rw [phase] at waiting
      exact absurd waiting (by decide)
  · cases read

/-- The client reads on after the server has closed the connection. -/
theorem readEnd_turn (talk : link.Conversation c shown) {client : ClientMain}
    (read : link.client.readEnd = some client) (ended : c.phase = .ended) (nothing : link.toClient = []) :
    Link.Conversation { link with client } c shown := by
  unfold ClientMain.readEnd at read
  split at read
  · rename_i responding
    obtain rfl := Option.some.inj read
    cases talk with
    | @answered front command answer phase log sent free request reply shows =>
      exact .closed rfl log sent ended request nothing shows
    | requested _ _ idle =>
      rw [ended] at idle
      cases idle
    | handling _ _ busy => exact absurd ended busy.2
    | greeting phase | closed phase =>
      rw [phase] at responding
      cases responding
    | between phase =>
      rw [responding] at phase
      exact absurd phase (by decide)
  · cases read

/-- The server reads the command, which is all that is pending. -/
theorem request_turn (talk : link.Conversation c shown) (some' : 0 < link.toServer.length)
    (handles : c.Handles c' link.toServer) :
    Link.Conversation { link with toServer := link.toServer.drop link.toServer.length
                                  reads := link.reads ++ [link.toServer]
                                  toClient := link.toClient ++
                                    (c'.log.drop c.log.length).flatMap fun entry => entry.2.bytes } c' shown := by
  cases talk with
  | @requested command phase sent idle request reply shows =>
    cases handles with
    | answered answer log phase' =>
      refine @Link.Conversation.answered _ _ _ _ c.log link.toServer answer phase log ?_ phase' (by simp) ?_ shows
      · rw [sent, log, request, List.map_append]
        rfl
      · rw [log, reply]
        simp
    | busy log message busy =>
      refine .handling phase ?_ busy (by simp) ?_ (log.symm ▸ shows)
      · rw [sent, log, message, request]
      · rw [log, reply]
        simp
  | greeting _ _ _ _ request | between _ _ _ request | handling _ _ _ request | answered _ _ _ _ request
  | closed _ _ _ _ request =>
    rw [request] at some'
    exact absurd some' (Nat.lt_irrefl 0)

/-- The server goes on with the command. -/
theorem advance_turn (talk : link.Conversation c shown) (busy : c.Busy) (handles : c.Handles c' c.message) :
    Link.Conversation { link with toClient := link.toClient ++
      (c'.log.drop c.log.length).flatMap fun entry => entry.2.bytes } c' shown := by
  cases talk with
  | handling phase sent _ request reply shows =>
    cases handles with
    | answered answer log phase' =>
      refine @Link.Conversation.answered _ _ _ _ c.log c.message answer phase log ?_ phase' request ?_ shows
      · rw [sent, log, List.map_append]
        rfl
      · rw [log, reply]
        simp
    | busy log message busy =>
      refine .handling phase ?_ busy request ?_ (log.symm ▸ shows)
      · rw [sent, log, message]
      · rw [log, reply]
        simp
  | greeting _ _ _ idle | between _ _ idle | requested _ _ idle => exact absurd idle busy.1
  | answered _ _ _ free =>
    rw [Session.Busy, free] at busy
    split at busy
    · exact absurd rfl busy.2
    · exact absurd rfl busy.1
  | closed _ _ _ ended => exact absurd ended busy.2

end Turns

section Runs

variable [Zero R] [Add R] [Sub R] [Mul R] [Div R] [LT R] [LE R] [DecidableLT R] [DecidableLE R] [BEq R]
  {env : Env R} {sid : Nat} {past : List (Network R × Action R)} {s s' : Network R} {a : Action R}

/-- A step that leaves the session and its connection as they are. -/
theorem Conversing.inside (talking : Conversing sid past s) {inner : MiniATS.Action R}
    (alone : ∀ threads, Threads.next env s.threads inner = some threads →
      threads.sessions = s.threads.sessions)
    (step : s.inside env inner = some s') (quiet : prints sid (s, a) = none) :
    Conversing sid (past ++ [(s, a)]) s' := by
  obtain ⟨threads, moved, rfl⟩ := Option.map_eq_some_iff.mp step
  refine talking.mono ?_ rfl ?_ quiet
  · rw [alone threads moved]
    exact talking.length
  · rw [alone threads moved]

omit [Zero R] [Add R] [Sub R] [Mul R] [Div R] [LT R] [LE R] [DecidableLT R] [DecidableLE R] [BEq R] in
/-- What a session writes when it goes from `c` to `c'`. -/
theorem answers_set {threads threads' : Threads R} {i : Nat} {c c' : Session R}
    (session : threads.sessions[i]? = some c) (sessions : threads'.sessions = threads.sessions.set i c') :
    answers threads threads' i = (c'.log.drop c.log.length).flatMap fun entry => entry.2.bytes := by
  have there := (List.getElem?_eq_some_iff.mp session).1
  simp only [answers, sessions, List.getElem?_set_self there, session, Option.map_some, Option.getD_some]

omit [Zero R] [Add R] [Sub R] [Mul R] [Div R] [LT R] [LE R] [DecidableLT R] [DecidableLE R] [BEq R] in
/-- A step of the client of a session. -/
theorem Conversing.client (talking : Conversing sid past s) {i : Nat} {link link' : Link}
    (connection : s.links[i]? = some link) (elsewhere : i ≠ sid → prints sid (s, a) = none)
    (talk : i = sid → ∀ c : Session R, s.threads.sessions[i]? = some c → link.Conversation c (printed sid past) →
      link'.Conversation c (printed sid past ++ (prints sid (s, a)).toList)) :
    Conversing sid (past ++ [(s, a)]) { s with links := s.links.set i link' } := by
  by_cases own : i = sid
  · subst own
    have there := (List.getElem?_eq_some_iff.mp connection).1
    rw [talking.length] at there
    have session := List.getElem?_eq_getElem there
    exact talking.turn session connection (List.set_getElem_self there).symm rfl (talk rfl _ session)
  · refine talking.mono ?_ (List.getElem?_set_ne own) rfl (elsewhere own)
    rw [List.length_set]
    exact talking.length

/-- A step of a session. -/
theorem Conversing.server (talking : Conversing sid past s) {i : Nat} {link link' : Link}
    {inner : MiniATS.Action R} (connection : s.links[i]? = some link)
    (step : s.answering env i inner link' = some s') (quiet : prints sid (s, a) = none)
    (one : ∀ threads, Threads.next env s.threads inner = some threads → ∃ c c',
      s.threads.sessions[i]? = some c ∧ threads.sessions = s.threads.sessions.set i c' ∧
        (i = sid → link.Conversation c (printed sid past) →
          Link.Conversation { link' with toClient := link'.toClient ++
            (c'.log.drop c.log.length).flatMap fun entry => entry.2.bytes } c' (printed sid past))) :
    Conversing sid (past ++ [(s, a)]) s' := by
  obtain ⟨threads, moved, rfl⟩ := Option.map_eq_some_iff.mp step
  obtain ⟨c, c', session, sessions, talk⟩ := one threads moved
  rw [answers_set session sessions]
  by_cases own : i = sid
  · subst own
    apply talking.turn session connection sessions rfl
    intro talks
    rw [quiet]
    exact (List.append_nil (printed i past)).symm ▸ talk rfl talks
  · refine talking.mono ?_ (List.getElem?_set_ne own) ?_ quiet
    · dsimp only
      rw [List.length_set, sessions, List.length_set]
      exact talking.length
    · dsimp only
      rw [sessions, List.getElem?_set_ne own]

/-- A session begins with the greeting. -/
theorem Conversing.connect (talking : Conversing sid past s) (step : next env s .connect = some s') :
    Conversing sid (past ++ [(s, .connect)]) s' := by
  simp only [next] at step
  obtain ⟨threads, moved, rfl⟩ := Option.map_eq_some_iff.mp step
  obtain rfl := Option.some.inj moved
  by_cases old : sid < s.links.length
  · refine talking.mono ?_ (List.getElem?_append_left old)
      (List.getElem?_append_left (talking.length ▸ old)) rfl
    simp [talking.length]
  · have silent : printed sid (past ++ [(s, Action.connect)]) = [] := by
      rw [printed_concat, talking.absent (List.getElem?_eq_none (Nat.le_of_not_lt old))]
      rfl
    refine ⟨by simp [talking.length], fun _ => silent, fun c link session connection => ?_⟩
    rw [List.getElem?_append_right (Nat.le_of_not_lt old)] at connection
    rw [List.getElem?_append_right (talking.length ▸ Nat.le_of_not_lt old)] at session
    obtain rfl := List.mem_singleton.mp (List.mem_of_getElem? connection)
    obtain rfl := List.mem_singleton.mp (List.mem_of_getElem? session)
    rw [silent]
    exact .greeting rfl rfl rfl rfl rfl rfl rfl

theorem Conversing.typeLine (talking : Conversing sid past s) {i : Nat} {userInput : Str}
    (step : next env s (.typeLine i userInput) = some s') :
    Conversing sid (past ++ [(s, .typeLine i userInput)]) s' := by
  simp only [next] at step
  cases connection : s.links[i]? with
  | none => simp [connection] at step
  | some link =>
    simp only [connection] at step
    split at step
    · cases step
    obtain ⟨⟨client, written⟩, typed, rfl⟩ := Option.map_eq_some_iff.mp step
    apply talking.client connection (fun _ => rfl)
    intro _ c _ talk
    exact (List.append_nil (printed sid past)).symm ▸ typed_turn talk typed

theorem Conversing.readResponse (talking : Conversing sid past s) {i length : Nat}
    (all : ReadsAll sid s (.readResponse i length))
    (step : next env s (.readResponse i length) = some s') :
    Conversing sid (past ++ [(s, .readResponse i length)]) s' := by
  simp only [next] at step
  cases connection : s.links[i]? with
  | none => simp [connection] at step
  | some link =>
    simp only [connection] at step
    split at step
    · rename_i fits
      obtain ⟨client, read, rfl⟩ := Option.map_eq_some_iff.mp step
      refine talking.client connection (fun other => ?_) fun own c _ talk => ?_
      · simp [prints, other]
      · subst own
        obtain rfl := all rfl link connection
        have printing : (prints i (s, Action.readResponse i link.toClient.length)).toList =
            if link.client.phase = .responding then [link.toClient] else [] := by
          simp only [prints, fits.1, and_self, if_true, connection, Option.bind_some, List.take_length]
          split <;> rfl
        rw [printing]
        exact read_turn talk read fits.1
    split at step
    · rename_i ended
      split at step
      · rename_i closed
        obtain ⟨client, read, rfl⟩ := Option.map_eq_some_iff.mp step
        have quiet : prints sid (s, Action.readResponse i length) = none := by
          simp [prints, ended.1]
        apply talking.client connection (fun _ => quiet)
        intro own c session talk
        obtain rfl := Option.some.inj (session.symm.trans closed)
        rw [quiet]
        exact (List.append_nil (printed sid past)).symm ▸ readEnd_turn talk read rfl ended.2
      · cases step
    · cases step

theorem Conversing.readRequest (talking : Conversing sid past s) {i length : Nat} {now : Int}
    (all : ReadsAll sid s (.readRequest i now length))
    (step : next env s (.readRequest i now length) = some s') :
    Conversing sid (past ++ [(s, .readRequest i now length)]) s' := by
  simp only [next] at step
  cases connection : s.links[i]? with
  | none => simp [connection] at step
  | some link =>
    simp only [connection] at step
    split at step
    · rename_i fits
      apply talking.server connection step rfl
      intro threads moved
      obtain ⟨c, session, -, sessions⟩ := Threads.sessions_of_message moved
      refine ⟨c, _, session, sessions, fun own talk => ?_⟩
      obtain rfl := all own link (own ▸ connection)
      have handles := Session.handles_receive env now s.threads.server c link.toServer
      rw [List.take_length]
      exact request_turn talk fits.1 handles
    · cases step

theorem Conversing.advance (talking : Conversing sid past s) {i : Nat}
    (step : next env s (.advance i) = some s') : Conversing sid (past ++ [(s, .advance i)]) s' := by
  simp only [next] at step
  cases connection : s.links[i]? with
  | none => simp [connection] at step
  | some link =>
    simp only [connection] at step
    apply talking.server connection step rfl
    intro threads moved
    obtain ⟨c, srv, c', session, moved', sessions⟩ := Threads.sessions_of_advance moved
    obtain ⟨busy, handles⟩ := (Session.advanced_of_advance moved').handles
    exact ⟨c, c', session, sessions, fun _ talk => advance_turn talk busy handles⟩

theorem conversing_step (talking : Conversing sid past s) (all : ReadsAll sid s a)
    (step : next env s a = some s') : Conversing sid (past ++ [(s, a)]) s' := by
  cases a with
  | connect => exact talking.connect step
  | typeLine i userInput => exact talking.typeLine step
  | readResponse i length => exact talking.readResponse all step
  | readRequest i now length => exact talking.readRequest all step
  | advance i => exact talking.advance step
  | engine =>
    refine talking.inside (fun threads moved => ?_) step rfl
    cases Threads.taken_of_next moved <;> rfl
  | task n std now =>
    refine talking.inside (fun threads moved => ?_) step rfl
    cases Threads.taken_of_next moved
    rfl
  | cleanup =>
    refine talking.inside (fun threads moved => ?_) step rfl
    cases Threads.taken_of_next moved
    rfl

/-- In a run in which every read returns all that is pending, the client shows after every command the
whole reply to it. -/
theorem own_answers (env : Env R) (book : OrderBook R) (nextId : Nat) (store : UserStore R) (sid : Nat)
    {actions : List (Action R)}
    (all : Machine.Along (next env) (ReadsAll sid) (start (.start book nextId store)) actions)
    (ran : Machine.exec (next env) (start (.start book nextId store)) actions = some s) :
    OwnAnswers sid (Machine.trace (next env) (start (.start book nextId store)) actions) s := by
  have initial : Conversing sid [] (start (.start book nextId store)) :=
    ⟨rfl, fun _ => rfl, fun _ _ none' => nomatch none'⟩
  exact (Machine.exec_invariant_trace (Conversing sid)
    (fun _ _ _ _ talking all step => conversing_step talking all step) initial all ran).ownAnswers

end Runs

/-- Somebody registers and asks for the wallet; the client's second and third read return as many bytes
as given. -/
def registration (name : Str) (first second : Nat) : List (Action ℚ) :=
  [.connect, .readResponse 0 26, .typeLine 0 (str "REGISTER " ++ name ++ str " pw"),
    .readRequest 0 0 (12 + name.length), .advance 0, .readResponse 0 first, .typeLine 0 (str "WALLET"),
    .readRequest 0 0 6, .readResponse 0 second]

instance (sid : Nat) (s : Network ℚ) (a : Action ℚ) : Decidable (ReadsAll sid s a) :=
  match a with
  | .readResponse i length =>
    inferInstanceAs (Decidable (i = sid → ∀ link ∈ s.links[sid]?, length = link.toClient.length))
  | .readRequest i _ length =>
    inferInstanceAs (Decidable (i = sid → ∀ link ∈ s.links[sid]?, length = link.toServer.length))
  | .connect | .typeLine _ _ | .advance _ | .engine | .task _ _ _ | .cleanup => isTrue trivial

theorem own_answers_alice : ∃ s,
    Machine.exec (next exactEnv) (start .fresh) (registration (str "alice") 28 31) = some s ∧
      OwnAnswers 0 (Machine.trace (next exactEnv) (start .fresh) (registration (str "alice") 28 31)) s := by
  obtain ⟨s, ran, -⟩ := (Option.any_eq_true _ _).mp
    (show (Machine.exec (next exactEnv) (start .fresh) (registration (str "alice") 28 31)).any
      (fun _ => true) = true by decide +kernel)
  exact ⟨s, ran, own_answers exactEnv _ 1 .empty 0 (by decide +kernel) ran⟩

/-- The reply to a name of 495 letters is longer than the buffer: the client shows the first 512 bytes
of it, and the rest in front of the wallet. -/
theorem answer_cut : ∃ s,
    Machine.exec (next exactEnv) (start .fresh) (registration (List.replicate 495 97) 512 37) = some s ∧
      (printed 0 (Machine.trace (next exactEnv) (start .fresh)
        (registration (List.replicate 495 97) 512 37))).map List.length = [512, 37] ∧
      s.threads.sessions.map (fun c => (repliesOf c.log).map List.length) = [[518, 31]] ∧
      ¬ OwnAnswers 0 (Machine.trace (next exactEnv) (start .fresh)
        (registration (List.replicate 495 97) 512 37)) s := by
  obtain ⟨s, ran, found⟩ := (Option.any_eq_true _ _).mp
    (show (Machine.exec (next exactEnv) (start .fresh) (registration (List.replicate 495 97) 512 37)).any
      (fun s => decide (s.threads.sessions.map (fun c => (repliesOf c.log).map List.length) = [[518, 31]])) =
        true by decide +kernel)
  have shown : (printed 0 (Machine.trace (next exactEnv) (start .fresh)
      (registration (List.replicate 495 97) 512 37))).map List.length = [512, 37] := by
    decide +kernel
  have replies := of_decide_eq_true found
  refine ⟨s, ran, shown, replies, fun own => ?_⟩
  obtain ⟨text, rest, eq, long, -⟩ := List.map_eq_cons_iff.mp shown
  obtain ⟨c, link, command, reply, session, -, -, entry, rfl⟩ := own 0 text (by rw [eq]; rfl)
  have lengths : (repliesOf c.log).map List.length = [518, 31] := by
    have first := congrArg (fun l => l[0]?) replies
    simpa [List.getElem?_map, session] using first
  have whole := congrArg (fun l => l[0]?) lengths
  simp only [repliesOf, List.getElem?_map, entry, Option.map_some, List.getElem?_cons_zero,
    Option.some.injEq] at whole
  omega

end Network

end MiniATS
