import MiniATS.Proofs.ThreadBook

/-!
# The work that is left

How many steps the threads still take on what they have been given. A session's `steps` are its
own; what it leaves for the engine is counted with it (`Phase.work`), as an order that is yet to be
inserted may bring in a product and will wake it. `work_step` says that every step but a new client,
a new message and the shutdown lowers the `work` of the server.
-/

namespace MiniATS

variable {R : Type}

namespace OrderBook

theorem knownProducts_insertOrder (book : OrderBook R) (order : OrderBookEntry R) :
    (book.insertOrder order).getKnownProducts.length ≤ book.getKnownProducts.length + 1 :=
  KeyedMap.length_insert_le _ _ _

theorem knownProducts_removeOrderById (book : OrderBook R) (username : Str) (id : Nat) :
    (book.removeOrderById username id).2.getKnownProducts.length = book.getKnownProducts.length := by
  unfold removeOrderById
  split
  · rfl
  split
  · rfl
  split
  · rfl
  split
  · rfl
  split
  · exact KeyedMap.length_insert_of_lookup ‹_› _
  · rfl

theorem knownProducts_removeMatchedOrders [Zero R] [LE R] [DecidableLE R] (book : OrderBook R)
    (product : Str) :
    (book.removeMatchedOrders product).getKnownProducts.length = book.getKnownProducts.length := by
  unfold removeMatchedOrders
  split
  · rfl
  · exact KeyedMap.length_insert_of_lookup ‹_› _

/-- A pass brings in no product. -/
theorem knownProducts_matchAsksToBids [Zero R] [Add R] [Sub R] [Mul R] [LT R] [LE R] [DecidableLT R]
    [DecidableLE R] [BEq R] (std : StdSort (EntryPtr R)) (book : OrderBook R)
    (product currentTimestamp : Str) (userStore : UserStore R) (nextId : Nat) :
    (book.matchAsksToBids std product currentTimestamp userStore nextId).book.getKnownProducts.length =
      book.getKnownProducts.length := by
  unfold matchAsksToBids
  split
  · rfl
  · rename_i orderList found
    dsimp only
    split
    · exact KeyedMap.length_insert_of_lookup found _
    · rw [knownProducts_removeMatchedOrders]
      exact KeyedMap.length_insert_of_lookup found _

end OrderBook

/-- The steps a session in this phase takes at most before it has answered. -/
def Phase.steps : Phase R → Nat
  | .idle | .undefined | .ended => 0
  | .registering _ _ | .loggingIn _ _ | .starting _ | .removing _ => 1
  | .inserting _ | .unlocking _ => 2
  -- a product is turned to, and its two figures are read
  | .reporting r => r.todo.length + 3 * r.products.length + 1

/-- The steps of a session and those of the engine and its tasks that it may cause: a product that
is put into the queue takes three, and a product that gets its first order before the engine has read
the known products takes three more. -/
def Phase.work : Phase R → Nat
  | .inserting _ => 8
  | .starting _ => 4
  | phase => phase.steps

/-- A session that waits for a message, or for nothing any more. -/
def Phase.resting : Phase R → Prop
  | .idle | .undefined | .ended => True
  | _ => False

theorem Phase.resting_iff (phase : Phase R) : phase.resting ↔ phase.steps = 0 := by
  cases phase <;> simp [resting, steps]

/-- The steps of the engine and its tasks on the products it has read, when it still has to read
`known` of them. -/
def Engine.work (known : Nat) : Engine → Nat
  | .starting => 3 * known + 2
  | .enqueuing products => 3 * products.length + 1
  | .waiting => 0
  | .holding _ => 2

theorem Engine.work_le {known known' : Nat} (engine : Engine) (fewer : known ≤ known') :
    engine.work known ≤ engine.work known' := by
  cases engine <;> simp only [work] <;> omega

theorem Engine.work_succ (known : Nat) (engine : Engine) :
    engine.work (known + 1) ≤ engine.work known + 3 := by
  cases engine <;> simp only [work] <;> omega

/-- A step that the server takes by itself: no new client, no message and no signal. -/
def Action.Internal : Action R → Prop
  | .advance _ | .engine | .task _ _ _ => True
  | .connect | .message _ _ _ | .cleanup => False

/-- What is left for the threads to do. -/
def Threads.work (s : Threads R) : Nat :=
  (s.sessions.map (fun c => c.phase.work)).sum +
    s.engine.work s.server.orderBook.getKnownProducts.length +
    3 * s.server.pendingProducts.length + s.tasks.length

theorem Threads.work_sessions {s : Threads R} {before after : List (Session R)} {c : Session R}
    (sessions : s.sessions = before ++ c :: after) :
    (s.sessions.map (fun c => c.phase.work)).sum =
      ((before ++ after).map (fun c => c.phase.work)).sum + c.phase.work := by
  rw [sessions]
  simp only [List.map_append, List.map_cons, List.sum_append, List.sum_cons]
  omega

theorem Server.pending_startMatchingProduct (srv : Server R) (product : Str) :
    (srv.startMatchingProduct product).pendingProducts.length ≤ srv.pendingProducts.length + 1 := by
  unfold startMatchingProduct
  split
  · omega
  · simp

variable [Zero R] [Add R] [Sub R] [Mul R] [Div R] [LT R] [LE R] [DecidableLT R] [DecidableLE R] [BEq R]

namespace Session

variable {env : Env R} {srv srv' : Server R} {c c' : Session R}

omit [Zero R] [Add R] [Sub R] [Mul R] [Div R] [LT R] [LE R] [DecidableLT R] [DecidableLE R] [BEq R] in
theorem answer_resting (c : Session R) (reply : Reply) : (c.answer reply).phase.resting := by
  rcases c.answer_phase reply with phase | phase <;> rw [phase] <;> trivial

omit [Zero R] [Add R] [Sub R] [Mul R] [Div R] [LT R] [LE R] [DecidableLT R] [DecidableLE R] [BEq R] in
theorem answer_steps (c : Session R) (reply : Reply) : (c.answer reply).phase.steps = 0 :=
  (Phase.resting_iff _).mp (c.answer_resting reply)

omit [Zero R] [Add R] [Sub R] [Mul R] [Div R] [LT R] [LE R] [DecidableLT R] [DecidableLE R] [BEq R] in
theorem answer_work (c : Session R) (reply : Reply) : (c.answer reply).phase.work = 0 := by
  rcases c.answer_phase reply with phase | phase <;> rw [phase] <;> rfl

/-- A session that is not at rest has a step to take. -/
theorem advance_isSome (env : Env R) (srv : Server R) (busy : ¬ c.phase.resting) :
    (c.advance env srv).isSome := by
  unfold advance
  cases phase : c.phase with
  | idle => exact absurd (show c.phase.resting by rw [phase]; trivial) busy
  | undefined => exact absurd (show c.phase.resting by rw [phase]; trivial) busy
  | ended => exact absurd (show c.phase.resting by rw [phase]; trivial) busy
  | loggingIn u p =>
    dsimp only
    split
    · rfl
    · split <;> rfl
  | unlocking order =>
    dsimp only
    split <;> rfl
  | removing id =>
    dsimp only
    split <;> rfl
  | _ => rfl

omit [Sub R] [LE R] [DecidableLE R] in
/-- A report comes nearer to its end with every step. -/
theorem advanceReport_steps (env : Env R) (book : OrderBook R) (c : Session R) (r : Report R) :
    (c.advanceReport env book r).phase.steps < (Phase.reporting r).steps := by
  have next := reported_of_advanceReport env book c r
  generalize c.advanceReport env book r = c' at next
  cases next with
  | figure next read => simp only [Phase.steps, next, List.length_cons]; omega
  | dangling next read => simp only [Phase.steps]; omega
  | @turned product products next rest =>
    have lines : (r.turn book product products).todo.length ≤ 2 := by
      unfold Report.turn
      dsimp only
      split
      · exact Nat.zero_le _
      · rfl
    have left : (r.turn book product products).products = products := rfl
    simp only [Phase.steps, next, rest, left, List.length_cons, List.length_nil]
    omega
  | answered next rest =>
    rw [answer_steps]
    simp only [Phase.steps]
    omega

/-- A step of a session brings it nearer to its answer. -/
theorem Advanced.steps (moved : Advanced env srv c srv' c') : c'.phase.steps < c.phase.steps := by
  cases moved with
  | inserted phase => rw [phase]; exact Nat.lt_succ_self 1
  | unlocked phase unlocked => rw [phase]; exact Nat.lt_succ_self 1
  | reported phase =>
    rw [phase]
    exact advanceReport_steps env srv.orderBook c _
  | registered phase => rw [phase, answer_steps]; exact Nat.zero_lt_one
  | loggedIn phase got valid => rw [phase, answer_steps]; exact Nat.zero_lt_one
  | rejected phase reply got => rw [phase, answer_steps]; exact Nat.zero_lt_one
  | started phase reply => rw [phase, answer_steps]; exact Nat.zero_lt_one
  | failed phase reply thrown => rw [phase, answer_steps]; exact Nat.zero_lt_two
  | removed phase reply => rw [phase, answer_steps]; exact Nat.zero_lt_one

/-- What a step leaves to do for the session itself and, by the products it brings in or wakes, for
an engine in any state. -/
theorem Advanced.work (engine : Engine) (moved : Advanced env srv c srv' c') :
    c'.phase.work + engine.work srv'.orderBook.getKnownProducts.length +
        3 * srv'.pendingProducts.length <
      c.phase.work + engine.work srv.orderBook.getKnownProducts.length +
        3 * srv.pendingProducts.length := by
  cases moved with
  | @inserted order phase =>
    have known := engine.work_le (srv.orderBook.knownProducts_insertOrder order)
    have one := engine.work_succ srv.orderBook.getKnownProducts.length
    simp only [phase, Phase.work, Server.insertOrder] at *
    omega
  | @started product phase reply =>
    have pending := srv.pending_startMatchingProduct product
    rw [answer_work, phase, Server.startMatchingProduct_orderBook]
    simp only [Phase.work]
    omega
  | @unlocked order srv' done phase unlocked =>
    obtain ⟨store, rfl⟩ := Server.cancelFunds_book _ unlocked
    simp only [phase, Phase.work, Phase.steps]
    omega
  | @removed id phase reply =>
    have known := srv.orderBook.knownProducts_removeOrderById c.username id
    rw [answer_work, phase]
    simp only [Server.removeOrderById, known, Phase.work, Phase.steps]
    omega
  | @reported r phase =>
    have fewer := advanceReport_steps env srv.orderBook c r
    have steps : (c.advanceReport env srv.orderBook r).phase.work =
        (c.advanceReport env srv.orderBook r).phase.steps := by
      have next := reported_of_advanceReport env srv.orderBook c r
      generalize c.advanceReport env srv.orderBook r = c' at next
      cases next with
      | answered => rw [answer_work, answer_steps]
      | _ => rfl
    rw [steps, phase]
    simp only [Phase.work]
    omega
  | registered phase => rw [answer_work, phase]; simp only [Phase.work, Phase.steps]; omega
  | loggedIn phase got valid => rw [answer_work, phase]; simp only [Phase.work, Phase.steps]; omega
  | rejected phase reply got => rw [answer_work, phase]; simp only [Phase.work, Phase.steps]; omega
  | failed phase reply thrown => rw [answer_work, phase]; simp only [Phase.work, Phase.steps]; omega

end Session

namespace Threads

variable {env : Env R} {s s' : Threads R} {a : Action R}

/-- Every step that the server takes by itself leaves less to do. -/
theorem work_step (internal : a.Internal) (taken : Taken env s a s') : s'.work < s.work := by
  cases taken with
  | connect => exact internal.elim
  | message found sessions idle => exact internal.elim
  | cleanup moved => exact internal.elim
  | @advance sid c c' srv before after found sessions moved =>
    have less := (Session.advanced_of_advance moved).work s.engine
    have old := work_sessions sessions
    have new := work_sessions (s := { s with server := srv, sessions := before ++ c' :: after }) rfl
    simp only [work] at old new ⊢
    omega
  | readProducts engine =>
    simp only [work, engine, Engine.work]
    omega
  | enqueue engine =>
    simp only [work, withPending, engine, Engine.work, List.length_append]
    omega
  | pop engine pending =>
    simp only [work, withPending, engine, pending, Engine.work, List.length_cons]
    omega
  | launch engine =>
    simp only [work, engine, Engine.work, List.length_append, List.length_cons, List.length_nil]
    omega
  | task found tasks =>
    simp only [work, tasks, Server.matchProduct, OrderBook.knownProducts_matchAsksToBids,
      List.length_append, List.length_cons]
    omega

end Threads

end MiniATS
