import MiniATS.Proofs.Queue
import MiniATS.Properties.Reports
import MiniATS.Server.Turns
import MiniATS.Proofs.WalletLedger
import MiniATS.Proofs.Work

/-!
# Runs that are not interrupted

`Session.Completes` follows a session from one phase to the end of its message when no other thread
comes between; `completes` says that the end is what `handleMessage` computes at once, command by
command, the loops of `MARKET` and `STATS` over the products and the figures included. From that, a
run in turns is an interleaved run, and to everything but the queue it is a serial run
(`turns_refine`), so what holds of all interleaved runs holds of the serial ones.
-/

namespace MiniATS

open OrderBook

variable {R : Type} [Zero R] [Add R] [Sub R] [Mul R] [Div R] [LT R] [LE R] [DecidableLT R]
  [DecidableLE R] [BEq R]

/-- The report when the figures of its product are written. -/
def Report.written (env : Env R) (r : Report R) : Report R :=
  { r with text := r.text ++ r.rest env, todo := [] }

namespace Session

/-- The session's own steps, one after the other, until it is at rest. -/
inductive Completes (env : Env R) : Server R → Session R → Server R → Session R → Prop
  | rests {srv : Server R} {c : Session R} (done : c.phase.resting) : Completes env srv c srv c
  | steps {srv srv₁ srv' : Server R} {c c₁ c' : Session R} (moved : c.advance env srv = some (srv₁, c₁))
    (rest : Completes env srv₁ c₁ srv' c') : Completes env srv c srv' c'

variable {env : Env R} {now : Int} {srv srv' : Server R} {c c' : Session R} {data : Str}

theorem completes_answer (srv : Server R) (c : Session R) (reply : Reply) :
    Completes env srv (c.answer reply) srv (c.answer reply) :=
  .rests (c.answer_resting reply)

/-- The last step of a message gives its reply. -/
theorem completes_last {reply : Reply} (moved : c.advance env srv = some (srv', c'.answer reply)) :
    Completes env srv c srv' (c'.answer reply) :=
  .steps moved (completes_answer srv' c' reply)

/-- The figures of a product are read one after the other. -/
theorem completes_lines (mirrored : srv.orderBook.Mirrored) (r : Report R)
    (readable : r.Readable srv.orderBook)
    (rest : Completes env srv { c with phase := .reporting (r.written env) } srv' c') :
    Completes env srv { c with phase := .reporting r } srv' c' := by
  obtain ⟨text, product, bids, asks, todo, products⟩ := r
  induction todo generalizing text with
  | nil => simpa [Report.written, Report.rest] using rest
  | cons line todo ih =>
    have read := Report.readAll_of_mem mirrored
      fun ptr member => readable ptr (Report.mem_needed List.mem_cons_self member)
    have moved : Session.advance env srv
        { c with phase := .reporting ⟨text, product, bids, asks, line :: todo, products⟩ } =
      some (srv, { c with phase := .reporting ⟨text ++ line.text env (Report.pointers
        ⟨text, product, bids, asks, line :: todo, products⟩ line.figure.side), product, bids, asks, todo,
        products⟩ }) := by
      simp only [advance, advanceReport, read]
    apply Completes.steps moved
    apply ih
    · intro ptr member
      obtain ⟨line', inTodo, member⟩ := List.mem_flatMap.mp member
      exact readable ptr (Report.mem_needed (List.mem_cons_of_mem _ inTodo) member)
    · simpa [Report.written, Report.rest, Report.pointers] using rest

variable (env) in
/-- A report goes through the products that are left. -/
theorem completes_report (mirrored : srv.orderBook.Mirrored) (c : Session R) (r : Report R)
    (readable : r.Readable srv.orderBook) :
    Completes env srv { c with phase := .reporting r } srv
      (c.answer (.text (r.text ++ r.rest env ++
        r.products.flatMap (Report.marketLine env srv.orderBook)))) := by
  induction left : r.products generalizing r with
  | nil =>
    apply completes_lines mirrored r readable
    have moved : Session.advance env srv { c with phase := .reporting (r.written env) } =
        some (srv, c.answer (.text (r.text ++ r.rest env ++ []))) := by
      simp [advance, advanceReport, Report.written, left, answer]
    exact completes_last moved
  | cons product products ih =>
    apply completes_lines mirrored r readable
    have turned := ih ((r.written env).turn srv.orderBook product products)
      (Report.readable_of_taken rfl rfl) rfl
    rw [Report.rest_turn] at turned
    have moved : Session.advance env srv { c with phase := .reporting (r.written env) } =
        some (srv, { c with phase := .reporting ((r.written env).turn srv.orderBook product products) }) := by
      simp [advance, advanceReport, Report.written, left]
    apply Completes.steps moved
    simpa [Report.turn, Report.written] using turned

/-- `MARKET` and `STATS`. -/
theorem completes_market (mirrored : srv.orderBook.Mirrored) (c : Session R) :
    Completes env srv { c with phase := .reporting (.market srv.orderBook) } srv
      (c.answer (srv.handleMarket env)) := by
  have done := completes_report env mirrored c (.market srv.orderBook)
    (fun ptr member => by simp [Report.needed, Report.market] at member)
  rwa [Report.handleMarket_eq]

theorem completes_stats (mirrored : srv.orderBook.Mirrored) (c : Session R) (first token : Str) :
    Completes env srv { c with phase := .reporting (.stats srv.orderBook (Str.toUpper token)) } srv
      (c.answer (srv.handleStats env [first, token])) := by
  have done := completes_report env mirrored c (.stats srv.orderBook (Str.toUpper token))
    (Report.readable_of_taken rfl rfl)
  rw [Report.handleStats_eq]
  simpa [Report.stats] using done

theorem completes_register (c : Session R) (tokens : List Str) :
    Completes env srv (c.receiveRegister srv tokens) (srv.handleRegister c.username tokens).1
      ({ c with username := (srv.handleRegister c.username tokens).2.1 }.answer
        (srv.handleRegister c.username tokens).2.2) := by
  unfold receiveRegister Server.handleRegister
  rcases tokens with _ | ⟨first, _ | ⟨u, _ | ⟨p, _ | ⟨other, rest⟩⟩⟩⟩
  case cons.cons.cons.nil =>
    by_cases reserved : u = defaultUser
    · simp only [if_pos reserved]
      exact completes_answer srv c _
    by_cases known : srv.userStore.userExists u
    · simp only [if_neg reserved, if_pos known]
      exact completes_answer srv c _
    · simp only [if_neg reserved, if_neg known]
      exact completes_last rfl
  -- any other number of tokens
  all_goals exact completes_answer srv c _

theorem completes_login (c : Session R) (tokens : List Str) :
    Completes env srv (c.receiveLogin srv tokens) (srv.handleLogin c.username tokens).1
      ({ c with username := (srv.handleLogin c.username tokens).2.1 }.answer
        (srv.handleLogin c.username tokens).2.2) := by
  unfold receiveLogin Server.handleLogin
  rcases tokens with _ | ⟨first, _ | ⟨u, _ | ⟨p, _ | ⟨other, rest⟩⟩⟩⟩
  case cons.cons.cons.nil =>
    by_cases reserved : u = defaultUser
    · simp only [if_pos reserved]
      exact completes_answer srv c _
    by_cases known : srv.userStore.userExists u
    · simp only [if_neg reserved, if_pos known]
      by_cases valid : srv.userStore.validatePassword u p
      · simp only [if_pos valid]
        apply completes_last
        simp only [advance, UserStore.getUser_of_known known, if_pos valid]
        rfl
      · simp only [if_neg valid]
        apply completes_last
        simp only [advance, UserStore.getUser_of_known known, if_neg valid]
        rfl
    · simp only [if_neg reserved, if_neg known]
      exact completes_answer srv c _
  all_goals exact completes_answer srv c _

/-- `ASK` and `BID`. -/
theorem completes_order (env : Env R) (now : Int) (srv : Server R) (c : Session R)
    {order : OrderBookEntry R} (tokens : List Str)
    (admitted : srv.admitOrder env now c.username (Server.commandOf (Server.tokenise c.message)) tokens =
      (srv', .inr order)) :
    Completes env srv' { c with phase := .inserting order }
      (srv.handleOrder env now c.username (Server.commandOf (Server.tokenise c.message)) tokens).1
      (c.answer (srv.handleOrder env now c.username
        (Server.commandOf (Server.tokenise c.message)) tokens).2) := by
  unfold Server.handleOrder
  rw [admitted]
  apply Completes.steps rfl
  exact completes_last rfl

theorem completes_cancel (c : Session R) (order : OrderBookEntry R) (tokens : List Str)
    (found : srv.findOwnOrder c.username tokens = .inr order) :
    Completes env srv { c with phase := .unlocking order } (srv.handleCancel c.username tokens).1
      (c.answer (srv.handleCancel c.username tokens).2) := by
  unfold Server.handleCancel
  rw [found]
  dsimp only
  cases unlocked : srv.cancelFunds c.username order with
  | error e =>
    apply completes_last
    simp only [advance, unlocked]
    rfl
  | ok r =>
    obtain ⟨done, srv'⟩ := r
    apply Completes.steps
    · simp only [advance, unlocked]
      rfl
    · dsimp only
      split
      · apply completes_last
        simp only [advance, *]
        rfl
      · apply completes_last
        simp only [advance, *]
        rfl

/-- What a message does in steps, when nothing comes between them, is what it does at once. -/
theorem completes (env : Env R) (now : Int) {srv : Server R} (mirrored : srv.orderBook.Mirrored)
    (c : Session R) (data : Str) :
    Completes env (c.receive env now srv data).1 (c.receive env now srv data).2
      (srv.handleMessage env now c.username data).1
      ({ c with username := (srv.handleMessage env now c.username data).2.1, message := data }.answer
        (srv.handleMessage env now c.username data).2.2) := by
  unfold receive Server.handleMessage
  dsimp only
  have once : ∀ reply, Completes env srv ({ c with message := data }.answer reply) srv
      ({ c with message := data }.answer reply) := fun reply => completes_answer srv _ reply
  by_cases empty : Server.tokenise data = []
  · simp only [if_pos empty]
    exact once _
  simp only [if_neg empty]
  by_cases is : Server.commandOf (Server.tokenise data) = str "REGISTER"
  · simp only [if_pos is]
    exact completes_register { c with message := data } _
  simp only [if_neg is]
  by_cases is : Server.commandOf (Server.tokenise data) = str "LOGIN"
  · simp only [if_pos is]
    exact completes_login { c with message := data } _
  simp only [if_neg is]
  by_cases is : Server.commandOf (Server.tokenise data) = str "ASK" ∨
      Server.commandOf (Server.tokenise data) = str "BID"
  · simp only [if_pos is]
    split
    · unfold Server.handleOrder
      simp only [*]
      exact completes_answer _ _ _
    · exact completes_order env now srv { c with message := data } _ ‹_›
  simp only [if_neg is]
  by_cases is : Server.commandOf (Server.tokenise data) = str "ORDERS"
  · simp only [if_pos is]
    exact once _
  simp only [if_neg is]
  by_cases is : Server.commandOf (Server.tokenise data) = str "CANCEL"
  · simp only [if_pos is]
    split
    · unfold Server.handleCancel
      simp only [*]
    · exact completes_cancel { c with message := data } _ _ ‹_›
  simp only [if_neg is]
  by_cases is : Server.commandOf (Server.tokenise data) = str "WALLET"
  · simp only [if_pos is]
    exact once _
  simp only [if_neg is]
  by_cases is : Server.commandOf (Server.tokenise data) = str "DEPOSIT" ∨
      Server.commandOf (Server.tokenise data) = str "WITHDRAW"
  · simp only [if_pos is]
    exact completes_answer _ _ _
  simp only [if_neg is]
  by_cases is : Server.commandOf (Server.tokenise data) = str "MARKET"
  · simp only [if_pos is]
    exact completes_market mirrored { c with message := data }
  simp only [if_neg is]
  by_cases is : Server.commandOf (Server.tokenise data) = str "STATS"
  · simp only [if_pos is]
    split
    · rename_i first token two
      rw [two]
      exact completes_stats mirrored { c with message := data } first token
    · rename_i other
      unfold Server.handleStats
      split
      · rename_i first token two
        exact absurd two (other first token)
      · exact once _
  simp only [if_neg is]
  by_cases is : Server.commandOf (Server.tokenise data) = str "EXIT"
  · simp only [if_pos is]
    exact once _
  simp only [if_neg is]
  exact once _

end Session

namespace Threads

variable {env : Env R} {s s' : Threads R}

omit [Zero R] [Add R] [Sub R] [Mul R] [Div R] [LT R] [LE R] [DecidableLT R] [DecidableLE R] [BEq R] in
theorem put_put (s : Threads R) (sid : Nat) (r r' : Server R × Session R) :
    (s.put sid r).put sid r' = s.put sid r' := by
  unfold put
  dsimp only
  rw [List.set_set]

omit [Zero R] [Add R] [Sub R] [Mul R] [Div R] [LT R] [LE R] [DecidableLT R] [DecidableLE R] [BEq R] in
theorem put_self {sid : Nat} {c : Session R} (found : s.sessions[sid]? = some c) :
    s.put sid (s.server, c) = s := by
  obtain ⟨bound, rfl⟩ := List.getElem?_eq_some_iff.mp found
  unfold put
  dsimp only
  rw [List.set_getElem_self]

omit [Zero R] [Add R] [Sub R] [Mul R] [Div R] [LT R] [LE R] [DecidableLT R] [DecidableLE R] [BEq R] in
theorem found_put {sid : Nat} {c : Session R} (found : s.sessions[sid]? = some c)
    (r : Server R × Session R) : (s.put sid r).sessions[sid]? = some r.2 := by
  obtain ⟨bound, -⟩ := List.getElem?_eq_some_iff.mp found
  simp [put, bound]

/-- The steps of a session by itself are a run of the server. -/
theorem exec_completes {sid : Nat} {c c' : Session R} {srv srv' : Server R}
    (done : Session.Completes env srv c srv' c') (server : s.server = srv)
    (found : s.sessions[sid]? = some c) :
    ∃ n, Machine.exec (next env) s (List.replicate n (.advance sid)) = some (s.put sid (srv', c')) := by
  induction done generalizing s with
  | rests done =>
    subst server
    exact ⟨0, congrArg some (put_self found).symm⟩
  | @steps srv srv₁ srv' c c₁ c' moved rest ih =>
    subst server
    obtain ⟨n, ran⟩ := ih (s := s.put sid (srv₁, c₁)) rfl (found_put found _)
    refine ⟨n + 1, Machine.exec_cons_some.mpr ⟨s.put sid (srv₁, c₁), ?_, ?_⟩⟩
    · simp [next, found, moved]
    · rw [ran, put_put]

/-- The engine waits, and the server is not stopped. -/
structure Waiting (s : Threads R) : Prop where
  filed : s.Filed
  engine : s.engine = .waiting
  runs : s.isStopped = false

/-- A turn is a run of the server. -/
theorem exec_turn (waiting : s.Waiting) {t : Turn R} (taken : turn env s t = some s') :
    ∃ actions, Machine.exec (next env) s actions = some s' ∧ s'.Waiting := by
  have turned : ∃ actions, Machine.exec (next env) s actions = some s' ∧ s'.engine = .waiting ∧
      s'.isStopped = false := by
    cases t with
    | connect =>
      obtain rfl := Option.some.inj taken
      exact ⟨[.connect], rfl, waiting.engine, waiting.runs⟩
    | message sid now data =>
      simp only [turn] at taken
      cases found : s.sessions[sid]? with
      | none => simp [found] at taken
      | some c =>
        simp only [found] at taken
        cases phase : c.phase with
        | idle =>
          simp only [phase] at taken
          obtain rfl := Option.some.inj taken
          have done := Session.completes env now waiting.filed.mirrored c data
          obtain ⟨n, ran⟩ := exec_completes (s := s.put sid (c.receive env now s.server data)) done rfl
            (found_put found _)
          rw [put_put] at ran
          refine ⟨.message sid now data :: List.replicate n (.advance sid),
            Machine.exec_cons_some.mpr ⟨_, ?_, ran⟩, waiting.engine, waiting.runs⟩
          simp [next, found, phase]
        | _ => simp [phase] at taken
    | pass std now =>
      simp only [turn] at taken
      cases pending : s.server.pendingProducts with
      | nil => simp [pending] at taken
      | cons product products =>
        simp only [pending] at taken
        obtain rfl := Option.some.inj taken
        have runs := waiting.runs
        refine ⟨[.engine, .engine, .task s.tasks.length std now], ?_, waiting.engine, runs⟩
        simp [Machine.exec, next, engineStep, waiting.engine, runs, pending, withPending,
          List.eraseIdx_append_of_length_le]
  obtain ⟨actions, ran, engine, runs⟩ := turned
  exact ⟨actions, ran, waiting.filed.run ran, engine, runs⟩

/-- A serial run and a run in turns have the same book, users, ids and logins. The replies are not
compared here. -/
structure Agree (σ : System R) (s : Threads R) : Prop where
  server : ∃ products, σ.server = s.server.withQueue products
  users : ∀ sid, σ.sessions sid = ((s.sessions[sid]?).map (fun c => c.username)).getD []

theorem agree_turn {σ : System R} (agree : Agree σ s) {t : Turn R} (taken : turn env s t = some s') :
    Agree (System.run env σ (s.events t)) s' := by
  obtain ⟨products, server⟩ := agree.server
  cases t with
  | connect =>
    obtain rfl := Option.some.inj taken
    refine ⟨⟨products, server⟩, fun sid => ?_⟩
    rw [show System.run env σ (s.events .connect) = σ from rfl, agree.users sid]
    rcases Nat.lt_trichotomy sid s.sessions.length with before | rfl | after
    · simp [List.getElem?_append_left before]
    · simp [Session.connected]
    · have out : s.sessions.length ≤ sid := by omega
      rw [List.getElem?_append_right out, List.getElem?_eq_none out,
        List.getElem?_eq_none (by simp only [List.length_cons, List.length_nil]; omega)]
  | message sid now data =>
    simp only [turn] at taken
    cases found : s.sessions[sid]? with
    | none => simp [found] at taken
    | some c =>
      simp only [found] at taken
      cases phase : c.phase with
      | idle =>
        simp only [phase] at taken
        obtain rfl := Option.some.inj taken
        obtain ⟨bound, -⟩ := List.getElem?_eq_some_iff.mp found
        obtain ⟨products', same⟩ := s.server.handleMessage_withQueue env now products c.username data
        have user : σ.sessions sid = c.username := by rw [agree.users, found]; rfl
        have stepped : System.run env σ (s.events (.message sid now data)) =
            System.step env σ (.message sid now data) := rfl
        rw [stepped]
        unfold System.step
        dsimp only
        rw [server, user, same]
        refine ⟨⟨products', rfl⟩, fun sid' => ?_⟩
        by_cases own : sid' = sid
        · subst own
          simp [put, bound]
        · simp only [put]
          rw [Function.update_of_ne own, agree.users sid', List.getElem?_set_ne (Ne.symm own)]
      | _ => simp [phase] at taken
  | pass std now =>
    simp only [turn] at taken
    cases pending : s.server.pendingProducts with
    | nil => simp [pending] at taken
    | cons product rest =>
      simp only [pending] at taken
      obtain rfl := Option.some.inj taken
      have stepped : System.run env σ (s.events (.pass std now)) =
          System.step env σ (.pass std now product) := by
        simp [events, pending]
      rw [stepped]
      refine ⟨⟨products, ?_⟩, agree.users⟩
      unfold System.step
      dsimp only
      rw [server]
      rfl

/-- Whatever is done in turns, by a server whose engine has started, an interleaved run does as well,
and the serial run of the same messages and passes has the same book, users, ids and logins. -/
theorem turns_refine (env : Env R) {filename : Str} {file : Option Str} {book : OrderBook R}
    {nextId : Nat} (made : OrderBook.make env filename file 1 = .ok (book, nextId)) (store : UserStore R)
    (turns : List (Turn R)) (ran : Machine.exec (turn env) (ready book nextId store) turns = some s) :
    (∃ actions, Machine.exec (next env) (start book nextId store) actions = some s) ∧
    Agree (System.run env (System.start book nextId store)
      ((Machine.trace (turn env) (ready book nextId store) turns).flatMap (fun t => t.1.events t.2))) s := by
  have started : Machine.exec (next env) (start book nextId store) [.engine, .engine] =
      some (ready book nextId store) := rfl
  have filed : (ready book nextId store).Filed := (Filed.start (make_loaded made) store).run started
  constructor
  · obtain ⟨actions, s', ran', same, -⟩ := Machine.exec_simulated (fun s t => t = s ∧ s.Waiting)
      (fun s t a s' related step => by
        obtain ⟨rfl, waiting⟩ := related
        obtain ⟨actions, ran, waiting'⟩ := exec_turn waiting step
        exact ⟨actions, s', ran, rfl, waiting'⟩)
      (show _ ∧ (ready book nextId store).Waiting from ⟨rfl, filed, rfl, rfl⟩) ran
    refine ⟨[.engine, .engine] ++ actions, ?_⟩
    rw [Machine.exec_append, started]
    exact same ▸ ran'
  · exact Machine.exec_invariant_trace
      (fun past s => Agree (System.run env (System.start book nextId store)
        (past.flatMap (fun t => t.1.events t.2))) s)
      (fun past s a s' agree _ step => by
        rw [List.flatMap_append, List.flatMap_singleton, System.run_eq, List.foldl_append]
        exact agree_turn agree step)
      ⟨⟨[], rfl⟩, fun _ => rfl⟩ (Machine.along_of_mem (fun _ _ _ => trivial) _) ran

/-- Alice bids, the pass over the product runs, and she asks for the market. -/
def bidInTurn : List (Turn ℚ) :=
  [.connect, .message 0 0 (str "REGISTER alice pw"), .message 0 0 (str "DEPOSIT usd 9"),
    .message 0 0 (str "BID btc/usd 1 6"), .pass (StdSort.insertion _) 0, .message 0 0 (str "MARKET")]

theorem turns_refine_bid : ∃ s actions,
    Machine.exec (turn exactEnv) (ready ⟨str "orders.csv", [], ∅, ∅⟩ 1 .empty) bidInTurn = some s ∧
      Machine.exec (next exactEnv) fresh actions = some s ∧
      s.sessions.map (fun c => c.log.getLast?) = [some (str "MARKET",
        .text (str "\n Product: BTC/USD\t Best bid: 6\t Best ask: 0"))] := by
  obtain ⟨s, ran, found⟩ := (Option.any_eq_true _ _).mp
    (show (Machine.exec (turn exactEnv) (ready ⟨str "orders.csv", [], ∅, ∅⟩ 1 .empty) bidInTurn).any
      (fun s => s.sessions.map (fun c => c.log.getLast?) = [some (str "MARKET",
        .text (str "\n Product: BTC/USD\t Best bid: 6\t Best ask: 0"))]) by decide +kernel)
  obtain ⟨actions, taken⟩ := (turns_refine exactEnv (System.fresh_book exactEnv) .empty bidInTurn ran).1
  exact ⟨s, actions, ran, taken, of_decide_eq_true found⟩

end Threads

end MiniATS
