import MiniATS.Proofs.PassSpares
import MiniATS.Proofs.ThreadBook

/-!
# `STATS` and `MARKET`

`getOrders` returns pointers into the list of a product, and the statistics functions read
through them after the lock is released. As long as no step of another thread changes or
removes an order that a figure is still to be computed from, every figure of a product is the
one of its list at the moment of `getOrders`, and so is the whole reply.
-/

namespace MiniATS

open OrderBook

variable {R : Type}

namespace Report

/-- The pointers that are still to be read through, with the orders as they were taken. -/
def needed (r : Report R) : List (EntryPtr R) :=
  r.todo.flatMap (fun line => r.pointers line.figure.side)

/-- Every order still to be read is in the list of its product, as it was taken. -/
def Readable (book : OrderBook R) (r : Report R) : Prop :=
  ∀ ptr ∈ r.needed, ptr.entry ∈ book.orders r.product

theorem mem_needed {r : Report R} {line : Line} {ptr : EntryPtr R} (next : line ∈ r.todo)
    (member : ptr ∈ r.pointers line.figure.side) : ptr ∈ r.needed :=
  List.mem_flatMap.mpr ⟨line, next, member⟩

theorem pointers_taken {l : List (OrderBookEntry R)} {ptr : EntryPtr R} {type : OrderBookType}
    (member : ptr ∈ getOrders l type) : ptr.entry ∈ l :=
  List.mem_of_getElem? (mem_getOrders.mp member).1

/-- Pointers just taken can be read. -/
theorem readable_of_taken {book : OrderBook R} {r : Report R}
    (bids : r.bids = getOrders (book.orders r.product) .bid)
    (asks : r.asks = getOrders (book.orders r.product) .ask) : r.Readable book := by
  intro ptr member
  obtain ⟨line, -, member⟩ := List.mem_flatMap.mp member
  unfold pointers at member
  split at member
  · rw [bids] at member
    exact pointers_taken member
  · rw [asks] at member
    exact pointers_taken member
  · cases member

theorem read_of_mem {book : OrderBook R} (mirrored : book.Mirrored) {product : Str} {ptr : EntryPtr R}
    (member : ptr.entry ∈ book.orders product) : book.read product ptr = some ptr := by
  unfold OrderBook.read
  cases found : (book.orders product).find? (fun o => o.id == ptr.entry.id) with
  | none =>
    have missing := List.find?_eq_none.mp found _ member
    simp at missing
  | some o =>
    have inList := List.mem_of_find?_eq_some found
    have id : o.id = ptr.entry.id := by simpa using List.find?_some found
    have same := eq_of_id mirrored.distinct (mem_getAllOrders.mpr ⟨product, inList⟩)
      (mem_getAllOrders.mpr ⟨product, member⟩) id
    rw [same]
    rfl

/-- A figure is read from the orders as they were taken. -/
theorem readAll_of_mem {book : OrderBook R} (mirrored : book.Mirrored) {product : Str}
    {ptrs : List (EntryPtr R)} (readable : ∀ ptr ∈ ptrs, ptr.entry ∈ book.orders product) :
    ptrs.mapM (book.read product) = some ptrs := by
  induction ptrs with
  | nil => rfl
  | cons ptr ptrs ih =>
    rw [List.mapM_cons, read_of_mem mirrored (readable ptr List.mem_cons_self),
      ih fun ptr member => readable ptr (List.mem_cons_of_mem _ member)]
    rfl

end Report

/-- The ids of the orders that a session is still to read through its pointers. -/
def Session.reads (c : Session R) : List Nat :=
  match c.phase with
  | .reporting r => r.needed.map (fun ptr => ptr.entry.id)
  | _ => []

instance (trades : List (Trade R × SaleFlags)) (id : Nat) : Decidable (Traded trades id) :=
  inferInstanceAs (Decidable (∃ t ∈ trades, _))

variable [Zero R] [Add R] [Sub R] [Mul R] [Div R] [LT R] [LE R] [DecidableLT R] [DecidableLE R]
  [BEq R]

namespace Report

/-- The text still to come about the product, by the orders as they were taken. -/
def rest (env : Env R) (r : Report R) : Str :=
  r.todo.flatMap (fun line => line.text env (r.pointers line.figure.side))

/-- What `MARKET` says about a product of a book. -/
def marketLine (env : Env R) (book : OrderBook R) (product : Str) : Str :=
  let bids := getOrders (book.orders product) .bid
  let asks := getOrders (book.orders product) .ask
  if bids.isEmpty && asks.isEmpty then []
  else str "\n Product: " ++ product ++ str "\t Best bid: " ++ env.ostream (Server.getHighPrice bids) ++
    str "\t Best ask: " ++ env.ostream (Server.getLowPrice asks)

omit [Add R] [Sub R] [Mul R] [Div R] [LE R] [DecidableLE R] [BEq R] in
theorem handleMarket_eq (env : Env R) (srv : Server R) :
    srv.handleMarket env =
      .text (srv.orderBook.getKnownProducts.flatMap (marketLine env srv.orderBook)) := rfl

omit [Sub R] [LE R] [DecidableLE R] in
theorem rest_turn (env : Env R) (r : Report R) (book : OrderBook R) (product : Str)
    (products : List Str) : (r.turn book product products).rest env = marketLine env book product := by
  unfold rest marketLine turn
  dsimp only
  split
  · rfl
  · simp [marketLines, Line.text, pointers, Figure.side, Figure.value]

omit [Sub R] [LE R] [DecidableLE R] in
theorem handleStats_eq (env : Env R) (srv : Server R) (first token : Str) :
    srv.handleStats env [first, token] =
      .text ((stats srv.orderBook (Str.toUpper token)).rest env) := by
  simp [Server.handleStats, rest, stats, statsLines, Line.text, pointers, Figure.side, Figure.value]

end Report

section Truth

variable (env : Env R) (moments : List (Threads R))

/-- A text is made of lines about the first known products of one moment, each line as it was at one
moment; `products` are the known products left. -/
def MarketText (products : List Str) (text : Str) : Prop :=
  ∃ lines : List (Str × Threads R), (∀ line ∈ lines, line.2 ∈ moments) ∧
    (∃ m ∈ moments, lines.map Prod.fst ++ products = m.server.orderBook.getKnownProducts) ∧
    text = lines.flatMap (fun line => Report.marketLine env line.2.server.orderBook line.1)

/-- A reply to `STATS` describes the list of the product at one moment, a reply to `MARKET` the list
of each product at one moment. -/
def TrueReply (data : Str) (reply : Reply) : Prop :=
  (Server.commandOf (Server.tokenise data) = str "STATS" →
    ∃ m ∈ moments, reply = m.server.handleStats env (Server.tokenise data)) ∧
  (Server.commandOf (Server.tokenise data) = str "MARKET" →
    ∃ text, reply = .text text ∧ MarketText env moments [] text)

/-- The text of a report so far and what its pointers still stand for make a true reply. -/
def TrueReport (data : Str) (r : Report R) : Prop :=
  (Server.commandOf (Server.tokenise data) = str "STATS" → r.products = [] ∧
    ∃ m ∈ moments, .text (r.text ++ r.rest env) = m.server.handleStats env (Server.tokenise data)) ∧
  (Server.commandOf (Server.tokenise data) = str "MARKET" →
    MarketText env moments r.products (r.text ++ r.rest env))

/-- What holds of every session while nothing disturbs a report. -/
structure Session.Truthful (book : OrderBook R) (c : Session R) : Prop where
  defined : c.phase ≠ .undefined
  readable : ∀ r, c.phase = .reporting r → r.Readable book
  report : ∀ r, c.phase = .reporting r → TrueReport env moments c.message r
  replies : ∀ entry ∈ c.log, TrueReply env moments entry.1 entry.2

variable {env moments} {moments' : List (Threads R)}

omit [Add R] [Sub R] [Mul R] [Div R] [LE R] [DecidableLE R] [BEq R] in
theorem MarketText.mono {products : List Str} {text : Str}
    (market : MarketText env moments products text) (more : moments ⊆ moments') :
    MarketText env moments' products text := by
  obtain ⟨lines, all, ⟨m, member, known⟩, made⟩ := market
  exact ⟨lines, fun line inLines => more (all line inLines), ⟨m, more member, known⟩, made⟩

omit [Sub R] [LE R] [DecidableLE R] in
theorem TrueReply.mono {data : Str} {reply : Reply} (true' : TrueReply env moments data reply)
    (more : moments ⊆ moments') : TrueReply env moments' data reply := by
  refine ⟨fun is => ?_, fun is => ?_⟩
  · obtain ⟨m, member, same⟩ := true'.1 is
    exact ⟨m, more member, same⟩
  · obtain ⟨text, same, market⟩ := true'.2 is
    exact ⟨text, same, market.mono more⟩

omit [Sub R] [LE R] [DecidableLE R] in
theorem TrueReport.mono {data : Str} {r : Report R} (true' : TrueReport env moments data r)
    (more : moments ⊆ moments') : TrueReport env moments' data r := by
  refine ⟨fun is => ?_, fun is => (true'.2 is).mono more⟩
  obtain ⟨last, m, member, same⟩ := true'.1 is
  exact ⟨last, m, more member, same⟩

omit [Sub R] [LE R] [DecidableLE R] in
/-- A command that reports nothing can be answered by anything. -/
theorem trueReply_of_other {data : Str} (reply : Reply)
    (other : Server.commandOf (Server.tokenise data) ∉ [str "MARKET", str "STATS"]) :
    TrueReply env moments data reply := by
  simp only [List.mem_cons, List.not_mem_nil, or_false, not_or] at other
  exact ⟨fun is => absurd is other.2, fun is => absurd is other.1⟩

namespace Session.Truthful

variable {book book' : OrderBook R} {c c' : Session R}

omit [Sub R] [LE R] [DecidableLE R] in
theorem connected : Session.connected.Truthful env moments book where
  defined := fun is => by cases is
  readable := fun _ is => by cases is
  report := fun _ is => by cases is
  replies := fun _ member => absurd member List.not_mem_nil

omit [Sub R] [LE R] [DecidableLE R] in
theorem mono (truthful : c.Truthful env moments book) (more : moments ⊆ moments')
    (stays : ∀ r, c.phase = .reporting r → r.Readable book') : c.Truthful env moments' book' where
  defined := truthful.defined
  readable := stays
  report := fun r is => (truthful.report r is).mono more
  replies := fun entry member => (truthful.replies entry member).mono more

omit [Sub R] [LE R] [DecidableLE R] in
/-- A message that is not being reported on. -/
theorem waits (truthful : c.Truthful env moments book) {data : Str} {phase : Phase R}
    (defined : phase ≠ .undefined) (noReport : ∀ r, phase ≠ .reporting r) (book' : OrderBook R) :
    Session.Truthful env moments book' { c with message := data, phase } where
  defined := defined
  readable := fun r is => absurd is (noReport r)
  report := fun r is => absurd is (noReport r)
  replies := truthful.replies

omit [Sub R] [LE R] [DecidableLE R] in
theorem answer (truthful : c.Truthful env moments book) (message : Str) {reply : Reply}
    (true' : TrueReply env moments message reply) (book' : OrderBook R) :
    ({ c with message := message }.answer reply).Truthful env moments book' := by
  have notReporting : ∀ r, ({ c with message := message }.answer reply).phase ≠ .reporting r := by
    intro r is
    rcases Session.answer_phase { c with message := message } reply with phase | phase <;>
      cases phase.symm.trans is
  refine ⟨fun is => ?_, fun r is => absurd is (notReporting r), fun r is => absurd is (notReporting r),
    fun entry member => ?_⟩
  · rcases Session.answer_phase { c with message := message } reply with phase | phase <;>
      cases phase.symm.trans is
  · rcases List.mem_append.mp (show entry ∈ c.log ++ [(message, reply)] from member) with old | new
    · exact truthful.replies entry old
    · obtain rfl := List.mem_singleton.mp new
      exact true'

/-- A message begins a report on the book as it is, which is one moment more. -/
theorem receive {s : Threads R} (truthful : c.Truthful env moments s.server.orderBook)
    (here : s ∈ moments) (now : Int) (data : Str) (book' : OrderBook R)
    (same : book' = s.server.orderBook) :
    (c.receive env now s.server data).2.Truthful env moments book' := by
  subst same
  have answered : Server.commandOf (Server.tokenise data) ∉ [str "MARKET", str "STATS"] → ∀ reply,
      ({ c with message := data }.answer reply).Truthful env moments s.server.orderBook :=
    fun other reply => truthful.answer data (trueReply_of_other reply other) _
  have waiting : ∀ {phase : Phase R}, phase ≠ .undefined → (∀ r, phase ≠ .reporting r) →
      Session.Truthful env moments s.server.orderBook { c with message := data, phase } :=
    fun defined noReport => truthful.waits defined noReport _
  refine Session.receive_cases (motive := fun r => r.2.Truthful env moments s.server.orderBook)
    (fun is => ?_) (fun is => ?_) (fun is _ reply _ => answered ?_ reply)
    (fun _ _ _ _ => waiting (by simp) (by simp)) (fun _ _ _ => waiting (by simp) (by simp))
    (fun is => answered ?_ _) (fun is => ?_) (fun is first token tokens => ?_)
    (fun reply stats other => ?_)
  · have other : Server.commandOf (Server.tokenise data) ∉ [str "MARKET", str "STATS"] := by
      rw [is]
      decide
    unfold Session.receiveRegister
    split
    · split
      · exact answered other _
      split
      · exact answered other _
      · exact waiting (by simp) (by simp)
    · exact answered other _
  · have other : Server.commandOf (Server.tokenise data) ∉ [str "MARKET", str "STATS"] := by
      rw [is]
      decide
    unfold Session.receiveLogin
    split
    · split
      · exact answered other _
      split
      · exact waiting (by simp) (by simp)
      · exact answered other _
    · exact answered other _
  · rcases is with is | is <;> rw [is] <;> decide
  · rcases is with is | is <;> rw [is] <;> decide
  · -- `MARKET` has the known products of this moment to go through
    refine ⟨by simp, ?_, ?_, truthful.replies⟩
    · rintro _ ⟨⟩ ptr member
      cases member
    · rintro _ ⟨⟩
      refine ⟨fun stats => absurd (is.symm.trans stats) (by decide), fun _ => ⟨[], ?_, ⟨s, here, rfl⟩, rfl⟩⟩
      exact fun _ member => absurd member List.not_mem_nil
  · -- `STATS` has taken the pointers of this moment
    refine ⟨by simp, ?_, ?_, truthful.replies⟩
    · rintro _ ⟨⟩
      exact Report.readable_of_taken rfl rfl
    · rintro _ ⟨⟩
      refine ⟨fun _ => ⟨rfl, s, here, ?_⟩, fun market => absurd (is.symm.trans market) (by decide)⟩
      rw [tokens, Report.handleStats_eq]
      rfl
  · refine truthful.answer data ⟨fun is => ⟨s, here, stats is⟩, fun is => ?_⟩ _
    rw [is] at other
    exact absurd other (by decide)

omit [Sub R] [LE R] [DecidableLE R] in
/-- A step of a report: what it says stays true. -/
theorem advanceReport {s : Threads R} (truthful : c.Truthful env moments s.server.orderBook)
    (mirrored : s.server.orderBook.Mirrored) (here : s ∈ moments) {r : Report R}
    (phase : c.phase = .reporting r) (next : Session.Reported env s.server.orderBook c r c') :
    c'.Truthful env moments s.server.orderBook := by
  have readable := truthful.readable r phase
  have report := truthful.report r phase
  cases next with
  | @figure line todo orders next read =>
    have taken := Report.readAll_of_mem mirrored fun ptr member =>
      readable ptr (Report.mem_needed (by rw [next]; exact List.mem_cons_self) member)
    obtain rfl := Option.some.inj (taken.symm.trans read)
    refine ⟨by simp, ?_, ?_, truthful.replies⟩
    · rintro _ ⟨⟩ ptr member
      apply readable ptr
      unfold Report.needed
      rw [next, List.flatMap_cons]
      exact List.mem_append_right _ member
    · rintro _ ⟨⟩
      have whole : r.text ++ r.rest env = (r.text ++ line.text env (r.pointers line.figure.side)) ++
          Report.rest env { r with text := r.text ++ line.text env (r.pointers line.figure.side), todo } := by
        unfold Report.rest
        rw [next, List.flatMap_cons, List.append_assoc]
        rfl
      unfold TrueReport at report ⊢
      rw [whole] at report
      exact report
  | @dangling line todo next read =>
    have taken := Report.readAll_of_mem mirrored fun ptr member =>
      readable ptr (Report.mem_needed (by rw [next]; exact List.mem_cons_self) member)
    rw [taken] at read
    cases read
  | @turned product products next rest =>
    refine ⟨by simp, ?_, ?_, truthful.replies⟩
    · rintro _ ⟨⟩
      exact Report.readable_of_taken rfl rfl
    · rintro _ ⟨⟩
      refine ⟨fun is => absurd (report.1 is).1 (by rw [rest]; simp), fun is => ?_⟩
      obtain ⟨lines, all, ⟨m, member, known⟩, made⟩ := report.2 is
      have told : r.text = r.text ++ r.rest env := by
        unfold Report.rest
        rw [next]
        exact (List.append_nil _).symm
      refine ⟨lines ++ [(product, s)], ?_, ⟨m, member, ?_⟩, ?_⟩
      · intro line inLines
        rcases List.mem_append.mp inLines with old | new
        · exact all line old
        · obtain rfl := List.mem_singleton.mp new
          exact here
      · rw [← known, rest, List.map_append, List.append_assoc]
        rfl
      · rw [Report.rest_turn, List.flatMap_append, ← made, ← told]
        simp [Report.turn]
  | answered next rest =>
    have told : r.text ++ r.rest env = r.text := by
      unfold Report.rest
      rw [next]
      exact List.append_nil _
    refine truthful.answer c.message ⟨fun is => ?_, fun is => ?_⟩ _
    · obtain ⟨-, m, member, same⟩ := report.1 is
      exact ⟨m, member, told ▸ same⟩
    · have market := report.2 is
      rw [told, rest] at market
      exact ⟨r.text, rfl, market⟩

/-- The next step of a session, whatever it does to the book. -/
theorem advance {s : Threads R} {srv : Server R} (truthful : c.Truthful env moments s.server.orderBook)
    (coherent : c.Coherent) (mirrored : s.server.orderBook.Mirrored) (here : s ∈ moments)
    (moved : Session.Advanced env s.server c srv c') : c'.Truthful env moments srv.orderBook := by
  have answered : ∀ {phase : Phase R} {names : List Str} {reply : Reply}, c.phase = phase →
      phase.commands = some names → str "MARKET" ∉ names → str "STATS" ∉ names →
      (c.answer reply).Truthful env moments srv.orderBook := by
    intro phase names reply is commands market stats
    refine truthful.answer c.message (trueReply_of_other reply ?_) _
    simp only [List.mem_cons, List.not_mem_nil, or_false, not_or]
    exact ⟨coherent.other is commands market, coherent.other is commands stats⟩
  cases moved with
  | @registered u p phase =>
    have own := @answered _ _ (.text (str "OK User registered as " ++ u)) phase rfl (by decide) (by decide)
    exact ⟨own.defined, own.readable, own.report, own.replies⟩
  | @loggedIn u p store phase got valid =>
    have own := @answered _ _ (.text (str "OK Logged in as " ++ u)) phase rfl (by decide) (by decide)
    exact ⟨own.defined, own.readable, own.report, own.replies⟩
  | rejected phase reply got => exact answered phase rfl (by decide) (by decide)
  | inserted phase => exact truthful.waits (by simp) (by simp) _
  | started phase reply => exact answered phase rfl (by decide) (by decide)
  | unlocked phase unlocked => exact truthful.waits (by simp) (by simp) _
  | failed phase reply thrown => exact answered phase rfl (by decide) (by decide)
  | removed phase reply => exact answered phase rfl (by decide) (by decide)
  | @reported r phase =>
    exact truthful.advanceReport mirrored here phase (Session.reported_of_advanceReport env _ c r)

end Session.Truthful

end Truth

/-- The pass trades no order with this id and does not clear it away. -/
def Server.Spares (env : Env R) (std : StdSort (EntryPtr R)) (now : Int) (srv : Server R) (product : Str)
    (id : Nat) : Prop :=
  ¬ Traded (srv.matchProduct env std now product).2.trades id ∧
    ∀ o ∈ srv.orderBook.orders product, o.id = id → ¬ o.amount ≤ 0

instance (env : Env R) (std : StdSort (EntryPtr R)) (now : Int) (srv : Server R) (product : Str)
    (id : Nat) : Decidable (srv.Spares env std now product id) :=
  inferInstanceAs (Decidable (¬ _ ∧ ∀ o ∈ srv.orderBook.orders product, _))

namespace Threads

variable {env : Env R} {s s' : Threads R} {a : Action R} {moments : List (Threads R)}

/-- The step neither removes nor changes an order that a session has still to read. -/
def Undisturbed (env : Env R) (s : Threads R) : Action R → Prop
  | .advance sid => ∀ c ∈ s.sessions[sid]?, ∀ id ∈ c.removes, ∀ d ∈ s.sessions, id ∉ d.reads
  | .task n std now => ∀ product ∈ s.tasks[n]?, ∀ d ∈ s.sessions, ∀ id ∈ d.reads,
    s.server.Spares env std now product id
  | _ => True

instance (env : Env R) (s : Threads R) (a : Action R) : Decidable (s.Undisturbed env a) :=
  match a with
  | .advance sid =>
    inferInstanceAs (Decidable (∀ c ∈ s.sessions[sid]?, ∀ id ∈ c.removes, ∀ d ∈ s.sessions, id ∉ d.reads))
  | .task n std now => inferInstanceAs (Decidable (∀ product ∈ s.tasks[n]?, ∀ d ∈ s.sessions,
      ∀ id ∈ d.reads, s.server.Spares env std now product id))
  | .connect | .message _ _ _ | .engine | .cleanup => inferInstanceAs (Decidable True)

/-- What a report is still to read stands in its list, and every reply of `STATS` and `MARKET` is a
true one. -/
structure ReportsTrue (env : Env R) (moments : List (Threads R)) (s : Threads R) : Prop where
  readable : ∀ c ∈ s.sessions, c.phase ≠ .undefined ∧
    ∀ r, c.phase = .reporting r → r.Readable s.server.orderBook
  replies : ∀ c ∈ s.sessions, ∀ entry ∈ c.log, TrueReply env moments entry.1 entry.2

omit [Div R] in
/-- An undisturbed step leaves what the sessions are to read. -/
theorem readable_step (filed : s.Filed) {c c' : Session R} {srv : Server R} {sid : Nat}
    (found : s.sessions[sid]? = some c) (undisturbed : s.Undisturbed env (.advance sid))
    (moved : Session.AdvancedBook s.server c srv c') {d : Session R} (other : d ∈ s.sessions)
    {r : Report R} (phase : d.phase = .reporting r) (readable : r.Readable s.server.orderBook) :
    r.Readable srv.orderBook := by
  intro ptr member
  have inList := readable ptr member
  cases moved with
  | kept book => rwa [book]
  | inserted _ server => rw [server]; exact mem_insertOrder inList
  | started _ server =>
    rw [server]
    rw [Server.startMatchingProduct_orderBook]
    exact inList
  | @removed id removing server =>
    rw [server]
    apply mem_removeOrderById filed.mirrored inList
    intro same
    have unread := undisturbed c found id (by simp [Session.removes, removing]) d other
    apply unread
    unfold Session.reads
    rw [phase]
    exact List.mem_map.mpr ⟨ptr, member, same⟩

theorem truthful_step (filed : s.Filed) (coherent : ∀ c ∈ s.sessions, c.Coherent)
    (truthful : ∀ c ∈ s.sessions, c.Truthful env moments s.server.orderBook)
    (undisturbed : s.Undisturbed env a) (taken : Taken env s a s') :
    ∀ c ∈ s'.sessions, c.Truthful env (moments ++ [s]) s'.server.orderBook := by
  have here : s ∈ moments ++ [s] := by simp
  have more : moments ⊆ moments ++ [s] := List.subset_append_left _ _
  have kept : ∀ c ∈ s.sessions, c.Truthful env (moments ++ [s]) s.server.orderBook :=
    fun c member => (truthful c member).mono more (truthful c member).readable
  cases taken with
  | connect =>
    intro c member
    rcases List.mem_append.mp member with old | new
    · exact kept c old
    · obtain rfl := List.mem_singleton.mp new
      exact .connected
  | @message sid now data c before after found sessions idle =>
    have book := (Session.receive_book env now s.server c data).book
    have own := (kept c (mem_sessions sessions)).receive here now data _ book
    rw [sessions] at kept
    exact forall_sessions (fun d member => (kept d member).mono (List.Subset.refl _) fun r phase =>
      book ▸ (kept d member).readable r phase) own
  | @advance sid c c' srv before after found sessions moved =>
    have advanced := Session.advanced_of_advance moved
    have own := (kept c (mem_sessions sessions)).advance (coherent c (mem_sessions sessions))
      filed.mirrored here advanced
    have others : ∀ d ∈ s.sessions, d.Truthful env (moments ++ [s]) srv.orderBook :=
      fun d member => (kept d member).mono (List.Subset.refl _) fun r phase =>
        readable_step filed found undisturbed (Session.advanced_book advanced) member phase
          ((kept d member).readable r phase)
    rw [sessions] at others
    exact forall_sessions others own
  | @task n std now product before after found tasks =>
    intro d member
    apply (kept d member).mono (List.Subset.refl _)
    intro r phase ptr needed
    have inList := (kept d member).readable r phase ptr needed
    have spared := undisturbed product found d member ptr.entry.id
      (by unfold Session.reads; rw [phase]; exact List.mem_map_of_mem needed)
    apply matchAsksToBids_spares inList (fun _ => spared.1)
    intro same
    exact spared.2 ptr.entry (same ▸ inList) rfl
  | _ => exact kept

/-- In every state of a run that leaves alone what the reports are still to read, they can be read,
and every reply describes lists that stood at moments of the run. -/
theorem reports_true (env : Env R) {filename : Str} {file : Option Str} {book : OrderBook R}
    {nextId : Nat} (made : OrderBook.make env filename file 1 = .ok (book, nextId))
    (store : UserStore R) (actions : List (Action R))
    (undisturbed : Machine.Along (next env) (Undisturbed env) (start book nextId store) actions)
    (ran : Machine.exec (next env) (start book nextId store) actions = some s) :
    s.ReportsTrue env ((Machine.trace (next env) (start book nextId store) actions).map Prod.fst) := by
  obtain ⟨-, -, truthful⟩ := Machine.exec_invariant_trace
    (fun past s => s.Filed ∧ (∀ c ∈ s.sessions, c.Coherent) ∧
      ∀ c ∈ s.sessions, c.Truthful env (past.map Prod.fst) s.server.orderBook)
    (fun past s a s' holds undisturbed step => by
      obtain ⟨filed, coherent, truthful⟩ := holds
      have taken := taken_of_next step
      refine ⟨filed.step taken, coherent_step coherent taken, ?_⟩
      rw [List.map_append]
      exact truthful_step filed coherent truthful undisturbed taken)
    ⟨.start (make_loaded made) store, fun _ member => absurd member List.not_mem_nil,
      fun _ member => absurd member List.not_mem_nil⟩ undisturbed ran
  exact ⟨fun c member => ⟨(truthful c member).defined, (truthful c member).readable⟩,
    fun c member => (truthful c member).replies⟩

/-- While another client's `STATS` reads Bob's bid, he places and cancels a second one, and a pass
goes over the product. -/
def bidSpared : List (Action ℚ) :=
  [.connect, .connect, .message 1 0 (str "REGISTER bob pw"), .advance 1,
    .message 1 0 (str "DEPOSIT usd 20"), .message 1 0 (str "BID btc/usd 1 6"), .advance 1, .advance 1,
    .message 0 0 (str "STATS btc/usd"), .advance 0, .message 1 0 (str "BID btc/usd 1 7"), .advance 1,
    .advance 1, .message 1 0 (str "CANCEL 2"), .advance 1, .advance 1, .engine, .engine, .engine,
    .engine, .task 0 (StdSort.insertion _) 0] ++ List.replicate 6 (.advance 0)

theorem reports_true_spared : ∃ s, Machine.exec (next exactEnv) fresh bidSpared = some s ∧
    s.sessions.map (fun c => c.log.length) = [1, 5] ∧
    s.ReportsTrue exactEnv ((Machine.trace (next exactEnv) fresh bidSpared).map Prod.fst) := by
  obtain ⟨s, ran, logs⟩ := Option.map_eq_some_iff.mp
    (show (Machine.exec (next exactEnv) fresh bidSpared).map
      (fun s => s.sessions.map (fun c => c.log.length)) = some [1, 5] by decide +kernel)
  exact ⟨s, ran, logs, reports_true exactEnv (System.fresh_book exactEnv) .empty bidSpared
    (by decide +kernel) ran⟩

/-- A pass removes the ask and the bid that a client's `STATS` has taken pointers to. -/
def passBeneath : List (Action ℚ) :=
  [.engine, .engine, .engine, .engine, .connect, .message 0 0 (str "STATS btc/usd"),
    .task 0 (StdSort.insertion _) 0, .advance 0]

/-- The first figure is then read through a pointer to an order that is gone. -/
theorem dangling_read : ∃ s ∈ crossedFile, ∃ s',
    Machine.exec (next exactEnv) s passBeneath = some s' ∧
      ¬ s'.ReportsTrue exactEnv ((Machine.trace (next exactEnv) s passBeneath).map Prod.fst) := by
  obtain ⟨s, made, found⟩ := (Option.any_eq_true _ _).mp
    (show crossedFile.any (fun s => (Machine.exec (next exactEnv) s passBeneath).any (fun s' =>
      s'.sessions.any (fun c => match c.phase with | .undefined => true | _ => false))) by
      decide +kernel)
  obtain ⟨s', ran, found⟩ := (Option.any_eq_true _ _).mp found
  obtain ⟨c, member, undefined⟩ := List.any_eq_true.mp found
  refine ⟨s, made, s', ran, fun reports => (reports.readable c member).1 ?_⟩
  split at undefined
  · assumption
  · cases undefined

end Threads

end MiniATS
