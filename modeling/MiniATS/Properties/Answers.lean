import MiniATS.Misc.ListFacts
import MiniATS.Proofs.Work

/-!
# Every message is answered once

A session works on one message at a time (`ServerMain.cpp:97-343`): what it has answered and the
message it is at are what the client has sent, in order, nothing is answered after the end of the
connection, and the answer is a bounded number of its own steps away whatever the other threads do
(`answered_once`).
-/

namespace MiniATS

variable {R : Type}

/-- A session that has a message to answer. -/
def Phase.handling : Phase R → Bool
  | .idle | .ended => false
  | _ => true

namespace Session

/-- The message that is not answered yet. -/
def unanswered (c : Session R) : List Str := if c.phase.handling then [c.message] else []

/-- What a session has received is what it has answered, in order, and the message it is at; it has
answered with the end of the connection at most once, and last. -/
structure Answered (c : Session R) (received : List Str) : Prop where
  messages : received = c.log.map Prod.fst ++ c.unanswered
  closed : ∀ e ∈ c.log, e.2 = .closed → c.phase = .ended
  last : ∀ e ∈ c.log.dropLast, e.2 ≠ .closed

/-- What one step of a session does about its message: it is answered, or still to be answered. -/
inductive Moved (c c' : Session R) : Prop
  | waits (log : c'.log = c.log) (message : c'.message = c.message) (handling : c'.phase.handling = true)
  | answers (reply : Reply) (log : c'.log = c.log ++ [(c.message, reply)])
    (phase : c'.phase = if reply = .closed then .ended else .idle)

theorem Moved.of_answer {c d : Session R} (reply : Reply) (log : d.log = c.log)
    (message : d.message = c.message) : Moved c (d.answer reply) :=
  .answers reply (by rw [answer_log, log, message]) rfl

/-- A step on a message that a session is at. -/
theorem Answered.move {c c' : Session R} (nothing : ∀ e ∈ c.log, e.2 ≠ .closed) (moved : Moved c c') :
    c'.Answered (c.log.map Prod.fst ++ [c.message]) := by
  cases moved with
  | waits log message handling =>
    refine ⟨?_, ?_, ?_⟩
    · rw [unanswered, if_pos handling, log, message]
    · rw [log]
      exact fun e member is => absurd is (nothing e member)
    · rw [log]
      exact fun e member => nothing e (List.mem_of_mem_dropLast member)
  | answers reply log phase =>
    have rests : c'.phase.handling = false := by
      rw [phase]
      split <;> rfl
    refine ⟨?_, ?_, ?_⟩
    · rw [unanswered, if_neg (by simp [rests]), log]
      simp
    · rw [log]
      intro e member is
      rcases List.mem_append.mp member with earlier | own
      · exact absurd is (nothing e earlier)
      · obtain rfl := List.mem_singleton.mp own
        rw [phase, if_pos is]
    · rw [log, List.dropLast_concat]
      exact nothing

/-- Nothing has been answered with the end of the connection while the session is not ended. -/
theorem Answered.nothing {c : Session R} {received : List Str} (answered : c.Answered received)
    (open' : c.phase ≠ .ended) : ∀ e ∈ c.log, e.2 ≠ .closed :=
  fun e member is => open' (answered.closed e member is)

variable [Zero R] [Add R] [Sub R] [Mul R] [Div R] [LT R] [LE R] [DecidableLT R] [DecidableLE R] [BEq R]

variable {env : Env R} {now : Int} {srv srv' : Server R} {c c' : Session R} {data : Str}

theorem moved_receive (env : Env R) (now : Int) (srv : Server R) (c : Session R) (data : Str) :
    Moved { c with message := data } (c.receive env now srv data).2 := by
  have answered : ∀ reply, Moved { c with message := data } ({ c with message := data }.answer reply) :=
    fun reply => .of_answer reply rfl rfl
  refine receive_cases (motive := fun r => Moved _ r.2) (fun _ => ?_) (fun _ => ?_)
    (fun _ _ reply _ => answered reply) (fun _ _ _ _ => .waits rfl rfl rfl)
    (fun _ _ _ => .waits rfl rfl rfl) (fun _ => answered _) (fun _ => .waits rfl rfl rfl)
    (fun _ _ _ _ => .waits rfl rfl rfl) (fun reply _ _ => answered reply)
  · unfold receiveRegister
    split
    · split
      · exact answered _
      split
      · exact answered _
      · exact .waits rfl rfl rfl
    · exact answered _
  · unfold receiveLogin
    split
    · split
      · exact answered _
      split
      · exact .waits rfl rfl rfl
      · exact answered _
    · exact answered _

theorem moved_advance (moved : Advanced env srv c srv' c') : Moved c c' := by
  cases moved with
  | inserted phase => exact .waits rfl rfl rfl
  | unlocked phase unlocked => exact .waits rfl rfl rfl
  | @reported r phase =>
    have next := reported_of_advanceReport env srv.orderBook c r
    generalize c.advanceReport env srv.orderBook r = c' at next
    cases next with
    | answered => exact .of_answer _ rfl rfl
    | _ => exact .waits rfl rfl rfl
  | _ => exact .of_answer _ rfl rfl

/-- A session that has a step to take is at a message. -/
theorem handling_of_advance (moved : c.advance env srv = some (srv', c')) : c.phase.handling = true := by
  cases phase : c.phase with
  | idle => simp [advance, phase] at moved
  | ended => simp [advance, phase] at moved
  | _ => rfl

end Session

namespace Action

/-- The step is the session's own. -/
def own (sid : Nat) : Action R → Bool
  | .advance sid' => sid' == sid
  | _ => false

/-- The text that the step brings to the session. -/
def sent (sid : Nat) : Action R → Option Str
  | .message sid' _ data => if sid' = sid then some data else none
  | _ => none

end Action

namespace Threads

variable [Zero R] [Add R] [Sub R] [Mul R] [Div R] [LT R] [LE R] [DecidableLT R] [DecidableLE R] [BEq R]

variable {env : Env R} {s s' : Threads R} {a : Action R}

/-- What a step does to one session: nothing, or it is new, or it is its own step, or a message. -/
theorem session_step (taken : next env s a = some s') {sid : Nat} {c' : Session R}
    (found : s'.sessions[sid]? = some c') :
    (s.sessions[sid]? = some c' ∧ a.sent sid = none ∧ a.own sid = false) ∨
    (s.sessions[sid]? = none ∧ c' = .connected ∧ a.sent sid = none ∧ a.own sid = false) ∨
    (∃ c srv, s.sessions[sid]? = some c ∧ a.sent sid = none ∧ a.own sid = true ∧
      c.advance env s.server = some (srv, c')) ∨
    ∃ c now data, s.sessions[sid]? = some c ∧ a.sent sid = some data ∧ a.own sid = false ∧
      c.phase = .idle ∧ c' = (c.receive env now s.server data).2 := by
  cases a with
  | message sid' now data =>
    obtain ⟨c, own, idle, sessions⟩ := sessions_of_message taken
    rw [sessions] at found
    by_cases same : sid' = sid
    · subst same
      obtain ⟨bound, -⟩ := List.getElem?_eq_some_iff.mp own
      rw [List.getElem?_set_self bound] at found
      exact .inr (.inr (.inr ⟨c, now, data, own, if_pos rfl, rfl, idle, (Option.some.inj found).symm⟩))
    · rw [List.getElem?_set_ne same] at found
      exact .inl ⟨found, if_neg same, rfl⟩
  | advance sid' =>
    obtain ⟨c, srv, d, own, moved, sessions⟩ := sessions_of_advance taken
    rw [sessions] at found
    by_cases same : sid' = sid
    · subst same
      obtain ⟨bound, -⟩ := List.getElem?_eq_some_iff.mp own
      rw [List.getElem?_set_self bound] at found
      obtain rfl := Option.some.inj found
      exact .inr (.inr (.inl ⟨c, srv, own, rfl, by simp [Action.own], moved⟩))
    · rw [List.getElem?_set_ne same] at found
      exact .inl ⟨found, rfl, by simp [Action.own, same]⟩
  | connect =>
    obtain rfl := Option.some.inj taken
    rcases Nat.lt_or_ge sid s.sessions.length with before | after
    · rw [List.getElem?_append_left before] at found
      exact .inl ⟨found, rfl, rfl⟩
    · rw [List.getElem?_append_right after] at found
      refine .inr (.inl ⟨List.getElem?_eq_none after, ?_, rfl, rfl⟩)
      exact (List.mem_singleton.mp (List.mem_of_getElem? found))
  | engine =>
    cases taken_of_next taken <;> exact .inl ⟨found, rfl, rfl⟩
  | task n std now =>
    cases taken_of_next taken
    exact .inl ⟨found, rfl, rfl⟩
  | cleanup =>
    cases taken_of_next taken
    exact .inl ⟨found, rfl, rfl⟩

theorem sessions_grow (taken : next env s a = some s') : s.sessions.length ≤ s'.sessions.length := by
  cases taken_of_next taken with
  | connect => simp
  | message found sessions idle => simp [sessions]
  | advance found sessions moved => simp [sessions]
  | _ => exact le_rfl

/-- A client that is not there has not been, and has sent nothing. -/
theorem missing_step (taken : next env s a = some s') {sid : Nat} (missing : s'.sessions[sid]? = none) :
    s.sessions[sid]? = none ∧ a.sent sid = none := by
  have grows := sessions_grow taken
  have was : s.sessions[sid]? = none := by
    rw [List.getElem?_eq_none_iff] at missing ⊢
    omega
  refine ⟨was, ?_⟩
  cases a with
  | message sid' now data =>
    obtain ⟨c, own, -⟩ := sessions_of_message taken
    by_cases same : sid' = sid
    · rw [same, was] at own
      cases own
    · exact if_neg same
  | _ => rfl

/-- What a session has received in the steps taken so far. -/
def received (past : List (Threads R × Action R)) (sid : Nat) : List Str :=
  past.filterMap (fun t => t.2.sent sid)

/-- Every session accounts for what it has received. -/
theorem answered_run {book : OrderBook R} {nextId : Nat} {store : UserStore R} {actions : List (Action R)}
    (ran : Machine.exec (next env) (start book nextId store) actions = some s) :
    let past := Machine.trace (next env) (start book nextId store) actions
    (∀ sid, s.sessions[sid]? = none → received past sid = []) ∧
      ∀ sid (c : Session R), s.sessions[sid]? = some c → c.Answered (received past sid) :=
  Machine.exec_invariant_trace
    (fun past s => (∀ sid, s.sessions[sid]? = none → received past sid = []) ∧
      ∀ sid (c : Session R), s.sessions[sid]? = some c → c.Answered (received past sid))
    (fun past s a s' kept _ step => by
      have more : ∀ sid, received (past ++ [(s, a)]) sid = received past sid ++ (a.sent sid).toList := by
        intro sid
        unfold received
        rw [List.filterMap_append]
        cases sent : a.sent sid <;> simp [sent]
      constructor
      · intro sid none'
        obtain ⟨was, sent⟩ := missing_step step none'
        rw [more, sent, Option.toList_none, List.append_nil, kept.1 sid was]
      · intro sid c' found
        rw [more]
        rcases session_step step found with ⟨was, sent, -⟩ | ⟨was, rfl, sent, -⟩ |
          ⟨c, srv, was, sent, -, moved⟩ | ⟨c, now, data, was, sent, -, idle, rfl⟩
        · rw [sent, Option.toList_none, List.append_nil]
          exact kept.2 sid c' was
        · rw [sent, Option.toList_none, List.append_nil, kept.1 sid was]
          exact ⟨rfl, fun _ member => absurd member List.not_mem_nil,
            fun _ member => absurd member List.not_mem_nil⟩
        · have answered := kept.2 sid c was
          have handling := Session.handling_of_advance moved
          rw [sent, Option.toList_none, List.append_nil, answered.messages, Session.unanswered,
            if_pos handling]
          refine .move (answered.nothing ?_) (Session.moved_advance (Session.advanced_of_advance moved))
          intro ended
          rw [ended] at handling
          cases handling
        · have answered := kept.2 sid c was
          have waits : c.unanswered = [] := by
            rw [Session.unanswered, idle]
            rfl
          rw [sent, answered.messages, waits, List.append_nil]
          exact .move (c := { c with message := data })
            (answered.nothing (by simp [idle])) (Session.moved_receive env now _ c data))
    ⟨fun _ _ => rfl, fun sid c found => by simp [start] at found⟩
    (Machine.along_of_mem (fun _ _ _ => trivial) _) ran

/-- The steps a session still takes on its message; none where there is no session. -/
def stepsOf (sid : Nat) (s : Threads R) : Nat := (s.sessions[sid]?.map (fun c => c.phase.steps)).getD 0

/-- Each own step brings a session nearer to its answer, and the steps of the others do not take it
further away. -/
theorem steps_of_session (taken : next env s a = some s') {sid : Nat} (unsent : a.sent sid = none) :
    (if a.own sid then 1 else 0) + stepsOf sid s' ≤ stepsOf sid s := by
  unfold stepsOf
  cases found : s'.sessions[sid]? with
  | none =>
    obtain ⟨was, -⟩ := missing_step taken found
    have notOwn : a.own sid = false := by
      cases a with
      | advance sid' =>
        obtain ⟨c, srv, d, own, -⟩ := sessions_of_advance taken
        by_cases same : sid' = sid
        · rw [same, was] at own
          cases own
        · simp [Action.own, same]
      | _ => rfl
    simp [notOwn]
  | some c' =>
    rcases session_step taken found with ⟨was, -, own⟩ | ⟨was, rfl, -, own⟩ |
      ⟨c, srv, was, -, own, moved⟩ | ⟨c, now, data, was, sent, -⟩
    · simp [was, own]
    · simp [was, own, Session.connected, Phase.steps]
    · have fewer := (Session.advanced_of_advance moved).steps
      rw [was, if_pos own]
      simp only [Option.map_some, Option.getD_some]
      omega
    · rw [unsent] at sent
      cases sent

/-- A session answers what it receives once and in order: what it has been sent is what it has
answered and the message it is at, if any; and while it is sent nothing more, it takes at most
`phase.steps` steps of its own, and is at rest when it has taken them, whatever the other threads do
in between. -/
theorem answered_once (env : Env R) (book : OrderBook R) (nextId : Nat) (store : UserStore R)
    (actions : List (Action R))
    (ran : Machine.exec (next env) (start book nextId store) actions = some s) {sid : Nat}
    {c : Session R} (found : s.sessions[sid]? = some c) :
    c.Answered (actions.filterMap (fun a => a.sent sid)) ∧
    ∀ more s', (∀ a ∈ more, Action.sent sid a = none) → Machine.exec (next env) s more = some s' →
      ∃ c', s'.sessions[sid]? = some c' ∧
        more.countP (Action.own sid) + c'.phase.steps ≤ c.phase.steps ∧
        (more.countP (Action.own sid) = c.phase.steps → c'.phase.resting) := by
  constructor
  · have answered := (answered_run ran).2 sid c found
    have sent : received (Machine.trace (next env) (start book nextId store) actions) sid =
        actions.filterMap (fun a => a.sent sid) := by
      conv_rhs => rw [← Machine.trace_actions ran, List.filterMap_map]
      rfl
    rwa [sent] at answered
  · intro more s' unsent ran'
    have spent := Machine.exec_spends (stepsOf sid) (fun _ => True)
      (fun a => if a.own sid then 1 else 0) (fun _ _ _ _ _ _ => trivial)
      (fun s a s' _ silent step => steps_of_session step silent) trivial unsent ran'
    have stays : s.sessions.length ≤ s'.sessions.length :=
      Machine.exec_keeps (fun t => s.sessions.length ≤ t.sessions.length)
        (fun t a t' longer step => longer.trans (sessions_grow step)) le_rfl ran'
    obtain ⟨bound, -⟩ := List.getElem?_eq_some_iff.mp found
    have here : s'.sessions[sid]? = some s'.sessions[sid] := List.getElem?_eq_getElem (by omega)
    rw [ListFacts.sum_indicator, stepsOf, stepsOf, found, here] at spent
    simp only [Option.map_some, Option.getD_some] at spent
    refine ⟨_, here, spent, fun all => (Phase.resting_iff _).mpr ?_⟩
    omega

/-- Alice has registered and asks for the figures of a product. -/
def aliceAsksStats : List (Action ℚ) :=
  [.connect, .message 0 0 (str "REGISTER alice pw"), .advance 0, .message 0 0 (str "STATS btc/usd")]

theorem answered_once_stats : ∃ s c, Machine.exec (next exactEnv) fresh aliceAsksStats = some s ∧
    s.sessions[0]? = some c ∧ c.Answered [str "REGISTER alice pw", str "STATS btc/usd"] ∧
    c.log = [(str "REGISTER alice pw", .text (str "OK User registered as alice"))] ∧ c.phase.steps = 7 := by
  obtain ⟨s, ran, found⟩ := (Option.any_eq_true _ _).mp
    (show (Machine.exec (next exactEnv) fresh aliceAsksStats).any (fun s => s.sessions[0]?.any (fun c =>
      decide (c.log = [(str "REGISTER alice pw", .text (str "OK User registered as alice"))]) &&
        decide (c.phase.steps = 7))) by decide +kernel)
  obtain ⟨c, found, is⟩ := (Option.any_eq_true _ _).mp found
  simp only [Bool.and_eq_true, decide_eq_true_eq] at is
  exact ⟨s, c, ran, found, (answered_once exactEnv _ 1 .empty aliceAsksStats ran found).1, is.1, is.2⟩

end Threads

end MiniATS
