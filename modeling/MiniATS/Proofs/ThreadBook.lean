import MiniATS.Proofs.ThreadSteps

/-!
# The book over an interleaved run

Orders have ids of their own, also those that are still in flight, and the index mirrors the
lists. This holds of every state of an interleaved run, for any type of numbers, and it is what
lets a pointer be found again by its id.
-/

namespace MiniATS

open OrderBook

variable {R : Type}

/-- What holds of the book and the ids in every state of an interleaved run. -/
structure Threads.Filed (s : Threads R) : Prop where
  mirrored : s.server.orderBook.Mirrored
  booked : ∀ o ∈ s.server.orderBook.getAllOrders, o.id < s.server.nextId
  numbered : ∀ o ∈ s.inflight, o.id < s.server.nextId
  distinct : (s.inflight.map (fun o => o.id)).Nodup
  apart : ∀ o ∈ s.inflight, ∀ o' ∈ s.server.orderBook.getAllOrders, o'.id ≠ o.id

/-- A server whose orders file holds an ask and a bid that cross. -/
def Threads.crossedFile : Option (Threads ℚ) :=
  (OrderBook.make exactEnv (str "orders.csv")
    (some (str "1,BTC/USD,ask,4,1\n2,BTC/USD,bid,6,1\n")) 1).toOption.map
    fun r => Threads.start r.1 r.2 .empty

theorem Threads.mem_crossedFile {s : Threads ℚ} (is : s ∈ Threads.crossedFile) :
    ∃ book nextId, OrderBook.make exactEnv (str "orders.csv")
      (some (str "1,BTC/USD,ask,4,1\n2,BTC/USD,bid,6,1\n")) 1 = .ok (book, nextId) ∧
        s = Threads.start book nextId .empty := by
  obtain ⟨⟨book, nextId⟩, loaded, made⟩ := Option.map_eq_some_iff.mp is
  refine ⟨book, nextId, ?_, made.symm⟩
  cases made' : OrderBook.make exactEnv (str "orders.csv")
      (some (str "1,BTC/USD,ask,4,1\n2,BTC/USD,bid,6,1\n")) 1 with
  | error e =>
    rw [made'] at loaded
    cases loaded
  | ok r =>
    rw [made'] at loaded
    exact congrArg _ (Option.some.inj loaded)

theorem Threads.Filed.start {book : OrderBook R} {nextId : Nat} (loaded : Loaded book nextId)
    (store : UserStore R) : (Threads.start book nextId store).Filed where
  mirrored := loaded.indexed.toMirrored
  booked := loaded.fresh
  numbered := fun _ member => absurd member List.not_mem_nil
  distinct := List.nodup_nil
  apart := fun _ member => absurd member List.not_mem_nil

namespace Threads.Filed

variable {s s' : Threads R}

/-- The book has lost orders at most, and nothing has come into flight. -/
theorem of_fewer (filed : s.Filed) (inflight : s'.inflight = s.inflight)
    (mirrored : s'.server.orderBook.Mirrored)
    (ids : ∀ o' ∈ s'.server.orderBook.getAllOrders, ∃ o ∈ s.server.orderBook.getAllOrders, o.id = o'.id)
    (later : s.server.nextId ≤ s'.server.nextId) : s'.Filed where
  mirrored := mirrored
  booked := by
    intro o' member
    obtain ⟨o, inBook, same⟩ := ids o' member
    rw [← same]
    exact lt_of_lt_of_le (filed.booked o inBook) later
  numbered := fun o member => lt_of_lt_of_le (filed.numbered o (inflight ▸ member)) later
  distinct := by
    rw [inflight]
    exact filed.distinct
  apart := by
    intro o member o' inBook' same
    obtain ⟨was, inBook, same'⟩ := ids o' inBook'
    exact filed.apart o (inflight ▸ member) was inBook (same'.trans same)

theorem of_book (filed : s.Filed) (inflight : s'.inflight = s.inflight)
    (book : s'.server.orderBook = s.server.orderBook) (later : s.server.nextId ≤ s'.server.nextId) :
    s'.Filed :=
  filed.of_fewer inflight (book ▸ filed.mirrored) (fun o' member => ⟨o', book ▸ member, rfl⟩) later

end Threads.Filed

theorem Threads.inflight_of_sessions {s s' : Threads R} {before after : List (Session R)} {c c' : Session R}
    (sessions : s.sessions = before ++ c :: after) (sessions' : s'.sessions = before ++ c' :: after)
    (same : c'.inflight = c.inflight) : s'.inflight = s.inflight := by
  simp only [Threads.inflight, sessions, sessions', List.filterMap_append, List.filterMap_cons, same]

variable [Zero R] [Add R] [Sub R] [Mul R] [Div R] [LT R] [LE R] [DecidableLT R] [DecidableLE R]
  [BEq R]

section Server

variable (env : Env R) (now : Int) (srv : Server R) (u command : Str) (tokens : List Str)

omit [Div R] [BEq R] in
theorem Server.admitOrder_pending :
    (srv.admitOrder env now u command tokens).1.pendingProducts = srv.pendingProducts := by
  have reserve : ∀ (srv : Server R) (o : OrderBookEntry R),
      (srv.reserveFunds u command o).1.pendingProducts = srv.pendingProducts := by
    intro srv o
    unfold Server.reserveFunds
    split
    · rfl
    · split <;> rfl
  unfold Server.admitOrder
  split
  · rfl
  split
  · split
    · exact reserve _ _
    · rfl
  · rfl

omit [Mul R] [Div R] [BEq R] in
theorem Server.handleFunds_pending :
    (srv.handleFunds env u command tokens).1.pendingProducts = srv.pendingProducts := by
  have deposit : ∀ {srv' : Server R} {product : Str} {amount : R},
      srv.deposit u product amount = .ok srv' → srv'.pendingProducts = srv.pendingProducts := by
    intro srv' product amount done
    unfold Server.deposit at done
    split at done
    · cases done
    · split at done
      · cases done
      · obtain rfl := Except.ok.inj done
        rfl
  have withdraw : ∀ {srv' : Server R} {product : Str} {amount : R} {removed : Bool},
      srv.withdraw u product amount = .ok (removed, srv') →
      srv'.pendingProducts = srv.pendingProducts := by
    intro srv' product amount removed done
    unfold Server.withdraw at done
    split at done
    · cases done
    · split at done
      · cases done
      · obtain ⟨-, rfl⟩ := Prod.mk.inj (Except.ok.inj done)
        rfl
  unfold Server.handleFunds
  split
  · rfl
  split
  · dsimp only
    split
    · rfl
    split
    · split
      · rfl
      · exact withdraw ‹_›
      · exact withdraw ‹_›
    · split
      · rfl
      · exact deposit ‹_›
  · rfl

omit [Div R] [LT R] [DecidableLT R] [BEq R] in
theorem Server.cancelFunds_book {order : OrderBookEntry R} {done : Bool} {srv srv' : Server R}
    (unlocked : srv.cancelFunds u order = .ok (done, srv')) :
    ∃ store, srv' = { srv with userStore := store } := by
  unfold Server.cancelFunds at unlocked
  split at unlocked
  · cases unlocked
  · split at unlocked
    · cases unlocked
    · obtain ⟨-, rfl⟩ := Prod.mk.inj (Except.ok.inj unlocked)
      exact ⟨_, rfl⟩

end Server

/-- What a message does to the book, the queue and the ids before its first locked call. -/
structure Session.ReceivedBook (srv : Server R) (c : Session R) (r : Server R × Session R) : Prop where
  username : r.2.username = c.username
  book : r.1.orderBook = srv.orderBook
  pending : r.1.pendingProducts = srv.pendingProducts
  ids : r.2.inflight = none ∧ srv.nextId ≤ r.1.nextId ∨
    ∃ o, r.2.inflight = some o ∧ o.id = srv.nextId ∧ r.1.nextId = srv.nextId + 1
  started : ∀ product, r.2.phase ≠ .starting product

theorem Session.receive_book (env : Env R) (now : Int) (srv : Server R) (c : Session R) (data : Str) :
    ReceivedBook srv c (c.receive env now srv data) := by
  have answered : ∀ reply, ReceivedBook srv c (srv, { c with message := data }.answer reply) := by
    intro reply
    refine ⟨rfl, rfl, rfl, Or.inl ⟨Session.answer_inflight _ _, le_rfl⟩, fun product started => ?_⟩
    rcases Session.answer_phase { c with message := data } reply with phase | phase
    · cases phase.symm.trans started
    · cases phase.symm.trans started
  have waits : ∀ phase : Phase R, (∀ o, phase ≠ .inserting o) → (∀ p, phase ≠ .starting p) →
      ReceivedBook srv c (srv, { c with message := data, phase }) := by
    intro phase noOrder notStarted
    exact ⟨rfl, rfl, rfl, Or.inl ⟨Session.inflight_of_phase noOrder, le_rfl⟩, notStarted⟩
  refine Session.receive_cases ?_ ?_ ?_ ?_ (fun _ order _ => ?_) ?_ (fun _ => ?_) (fun _ _ token _ => ?_)
    (fun reply _ _ => answered reply)
  · intro _
    unfold Session.receiveRegister
    split
    · split
      · exact answered _
      · split
        · exact answered _
        · exact waits _ (by simp) (by simp)
    · exact answered _
  · intro _
    unfold Session.receiveLogin
    split
    · split
      · exact answered _
      · split
        · exact waits _ (by simp) (by simp)
        · exact answered _
    · exact answered _
  · intro _ srv' reply admitted
    obtain ⟨book, later, -⟩ := srv.admitOrder_book env now c.username
      (Server.commandOf (Server.tokenise data)) (Server.tokenise data)
    have pending := srv.admitOrder_pending env now c.username
      (Server.commandOf (Server.tokenise data)) (Server.tokenise data)
    rw [admitted] at book later pending
    exact ⟨rfl, book, pending, Or.inl ⟨Session.answer_inflight _ _, later⟩, (answered reply).started⟩
  · intro _ srv' order admitted
    obtain ⟨book, -, taken⟩ := srv.admitOrder_book env now c.username
      (Server.commandOf (Server.tokenise data)) (Server.tokenise data)
    have pending := srv.admitOrder_pending env now c.username
      (Server.commandOf (Server.tokenise data)) (Server.tokenise data)
    rw [admitted] at book taken pending
    obtain ⟨later, -, -, id, -⟩ := taken order rfl
    exact ⟨rfl, book, pending, Or.inr ⟨order, rfl, id, later⟩, by simp⟩
  · exact waits _ (by simp) (by simp)
  · intro _
    obtain ⟨book, nextId⟩ := srv.handleFunds_book env c.username
      (Server.commandOf (Server.tokenise data)) (Server.tokenise data)
    have pending := srv.handleFunds_pending env c.username
      (Server.commandOf (Server.tokenise data)) (Server.tokenise data)
    exact ⟨rfl, book, pending, Or.inl ⟨Session.answer_inflight _ _, nextId.ge⟩, (answered _).started⟩
  · exact waits _ (by simp) (by simp)
  · exact waits _ (by simp) (by simp)

omit [Div R] in
theorem Threads.matchProduct_ids (env : Env R) (std : StdSort (EntryPtr R)) (now : Int) (srv : Server R)
    (product : Str) : ∀ o' ∈ (srv.matchProduct env std now product).1.orderBook.getAllOrders,
    ∃ o ∈ srv.orderBook.getAllOrders, o.id = o'.id := by
  intro o' member
  obtain ⟨p, inList⟩ := mem_getAllOrders.mp member
  have ids := matchAsksToBids_fields (f := fun o : OrderBookEntry R => o.id) (fun _ _ => rfl) std
    srv.orderBook product (Server.getCurrentTimestamp env now) srv.userStore srv.nextId p
  obtain ⟨o, was, same⟩ := List.mem_map.mp (ids.subset (List.mem_map_of_mem inList))
  exact ⟨o, mem_getAllOrders.mpr ⟨p, was⟩, same⟩

/-- What the next step of a message does to the book, the queue and the ids. -/
inductive Session.AdvancedBook (srv : Server R) (c : Session R) (srv' : Server R) (c' : Session R) : Prop
  | kept (book : srv'.orderBook = srv.orderBook) (pending : srv'.pendingProducts = srv.pendingProducts)
    (nextId : srv'.nextId = srv.nextId) (before : c.inflight = none) (after : c'.inflight = none)
    (notStarted : ∀ product, c.phase ≠ .starting product)
  | inserted {o : OrderBookEntry R} (phase : c.phase = .inserting o) (server : srv' = srv.insertOrder o)
    (session : c' = { c with phase := .starting o.product })
  | started {product : Str} (phase : c.phase = .starting product)
    (server : srv' = srv.startMatchingProduct product) (after : c'.inflight = none)
  | removed {id : Nat} (phase : c.phase = .removing id)
    (server : srv' = (srv.removeOrderById c.username id).2) (after : c'.inflight = none)

theorem Session.advanced_book {env : Env R} {srv srv' : Server R} {c c' : Session R}
    (moved : Advanced env srv c srv' c') : AdvancedBook srv c srv' c' := by
  have notStarted : ∀ {phase : Phase R}, c.phase = phase → (∀ p, phase ≠ .starting p) →
      ∀ p, c.phase ≠ .starting p := fun is no p same => no p (is.symm.trans same)
  cases moved with
  | registered phase =>
    exact .kept rfl rfl rfl (Session.inflight_of_phase (by simp [phase]))
      (Session.answer_inflight _ _) (notStarted phase (by simp))
  | loggedIn phase got valid =>
    exact .kept rfl rfl rfl (Session.inflight_of_phase (by simp [phase]))
      (Session.answer_inflight _ _) (notStarted phase (by simp))
  | rejected phase reply got =>
    exact .kept rfl rfl rfl (Session.inflight_of_phase (by simp [phase]))
      (Session.answer_inflight _ _) (notStarted phase (by simp))
  | inserted phase => exact .inserted phase rfl rfl
  | started phase reply => exact .started phase rfl (Session.answer_inflight _ _)
  | unlocked phase unlocked =>
    obtain ⟨store, rfl⟩ := Server.cancelFunds_book _ unlocked
    exact .kept rfl rfl rfl (Session.inflight_of_phase (by simp [phase])) rfl (notStarted phase (by simp))
  | failed phase reply thrown =>
    exact .kept rfl rfl rfl (Session.inflight_of_phase (by simp [phase]))
      (Session.answer_inflight _ _) (notStarted phase (by simp))
  | removed phase reply => exact .removed phase rfl (Session.answer_inflight _ _)
  | @reported r phase =>
    refine .kept rfl rfl rfl (Session.inflight_of_phase (by simp [phase])) ?_ (notStarted phase (by simp))
    have next := Session.reported_of_advanceReport env srv.orderBook c r
    generalize c.advanceReport env srv.orderBook r = c' at next
    cases next with
    | figure => rfl
    | dangling => rfl
    | turned => rfl
    | answered => exact Session.answer_inflight _ _

namespace Threads.Filed

variable {env : Env R} {s s' : Threads R} {a : Action R}

theorem message (filed : s.Filed) {now : Int} {data : Str} {c : Session R}
    {before after : List (Session R)} (sessions : s.sessions = before ++ c :: after)
    (idle : c.phase = .idle) :
    Filed { s with server := (c.receive env now s.server data).1
                   sessions := before ++ (c.receive env now s.server data).2 :: after } := by
  have received := Session.receive_book env now s.server c data
  generalize c.receive env now s.server data = r at received ⊢
  obtain ⟨srv, c'⟩ := r
  have flew : c.inflight = none := Session.inflight_of_phase (by simp [idle])
  rcases received.ids with ⟨none', later⟩ | ⟨o, some', id, next⟩
  · exact filed.of_book (inflight_of_sessions sessions rfl (none'.trans flew.symm)) received.book later
  · have old := inflight_perm sessions
    have new := inflight_perm (s := { s with server := srv, sessions := before ++ c' :: after }) rfl
    rw [flew] at old
    rw [show c'.inflight = some o from some'] at new
    have perm := new.trans (old.symm.cons o)
    have fresh : ∀ o' ∈ s.inflight, o'.id ≠ o.id := by
      intro o' member
      have := filed.numbered o' member
      omega
    refine ⟨received.book ▸ filed.mirrored, fun o' member => ?_, fun o' member => ?_, ?_, ?_⟩
    · have := filed.booked o' (received.book ▸ member)
      dsimp only at next ⊢
      omega
    · dsimp only at next ⊢
      rcases List.mem_cons.mp (perm.mem_iff.mp member) with rfl | member
      · omega
      · have := filed.numbered o' member
        omega
    · refine (perm.map _).nodup_iff.mpr (List.nodup_cons.mpr ⟨?_, filed.distinct⟩)
      rintro listed
      obtain ⟨o', member, same⟩ := List.mem_map.mp listed
      exact fresh o' member same
    · intro o' member o'' inBook
      have inBook' := received.book ▸ inBook
      rcases List.mem_cons.mp (perm.mem_iff.mp member) with rfl | member
      · have := filed.booked o'' inBook'
        omega
      · exact filed.apart o' member o'' inBook'

omit [Zero R] [Add R] [Sub R] [Mul R] [Div R] [LT R] [LE R] [DecidableLT R] [DecidableLE R] [BEq R] in
theorem advance (filed : s.Filed) {c c' : Session R} {srv : Server R} {before after : List (Session R)}
    (sessions : s.sessions = before ++ c :: after) (moved : Session.AdvancedBook s.server c srv c') :
    Filed { s with server := srv, sessions := before ++ c' :: after } := by
  cases moved with
  | kept book pending nextId flew lands =>
    exact filed.of_book (inflight_of_sessions sessions rfl (lands.trans flew.symm)) book nextId.ge
  | @inserted o phase server session =>
    have old := inflight_perm sessions
    have new := inflight_perm (s := { s with server := srv, sessions := before ++ c' :: after }) rfl
    have flew : c.inflight = some o := by
      unfold Session.inflight
      rw [phase]
    have lands : c'.inflight = none := by
      rw [session]
      rfl
    rw [flew] at old
    rw [lands] at new
    have perm := old.trans (new.symm.cons o)
    have inFlight : o ∈ s.inflight := perm.mem_iff.mpr List.mem_cons_self
    have distinct := (perm.map (fun o => o.id)).nodup_iff.mp filed.distinct
    rw [List.map_cons, List.nodup_cons] at distinct
    subst server
    have book : ∀ o' ∈ (s.server.insertOrder o).orderBook.getAllOrders,
        o' = o ∨ o' ∈ s.server.orderBook.getAllOrders := fun o' member =>
      List.mem_cons.mp ((insertOrder_perm _ o).mem_iff.mp member)
    refine ⟨insertOrder_mirrored filed.mirrored (filed.apart o inFlight), fun o' member => ?_,
      fun o' member => filed.numbered o' (perm.mem_iff.mpr (List.mem_cons_of_mem _ member)),
      distinct.2, fun o' member o'' inBook => ?_⟩
    · rcases book o' member with rfl | inBook
      · exact filed.numbered o' inFlight
      · exact filed.booked o' inBook
    · rcases book o'' inBook with rfl | inBook'
      · exact fun same => distinct.1 (List.mem_map.mpr ⟨o', member, same.symm⟩)
      · exact filed.apart o' (perm.mem_iff.mpr (List.mem_cons_of_mem _ member)) o'' inBook'
  | started phase server lands =>
    have flew : c.inflight = none := Session.inflight_of_phase (by simp [phase])
    subst server
    exact filed.of_book (inflight_of_sessions sessions rfl (lands.trans flew.symm))
      (Server.startMatchingProduct_orderBook _ _) (Server.startMatchingProduct_nextId _ _).ge
  | @removed id phase server lands =>
    have flew : c.inflight = none := Session.inflight_of_phase (by simp [phase])
    subst server
    exact filed.of_fewer (inflight_of_sessions sessions rfl (lands.trans flew.symm))
      (removeOrderById_mirrored filed.mirrored _ _)
      (fun o' member => ⟨o', removeOrderById_subset filed.mirrored _ id member, rfl⟩) le_rfl

theorem step (filed : s.Filed) (taken : Taken env s a s') : s'.Filed := by
  cases taken with
  | connect =>
    refine filed.of_book ?_ rfl le_rfl
    simp [Threads.inflight, Session.connected, Session.inflight]
  | message found sessions idle => exact filed.message sessions idle
  | advance found sessions moved =>
    exact filed.advance sessions (Session.advanced_book (Session.advanced_of_advance moved))
  | readProducts engine => exact filed.of_book rfl rfl le_rfl
  | enqueue engine => exact filed.of_book rfl rfl le_rfl
  | pop engine pending => exact filed.of_book rfl rfl le_rfl
  | launch engine => exact filed.of_book rfl rfl le_rfl
  | @task n std now product before after found tasks =>
    exact filed.of_fewer rfl (matchAsksToBids_mirrored filed.mirrored _ _ _ _ _)
      (matchProduct_ids env std now s.server product) (matchAsksToBids_nextId _ _ _ _ _ _)
  | cleanup moved => exact filed.of_book rfl rfl le_rfl

/-- The run lemma of `Filed.step`. -/
theorem run (filed : s.Filed) {actions : List (Action R)}
    (ran : Machine.exec (next env) s actions = some s') : s'.Filed :=
  Machine.exec_keeps (fun s : Threads R => s.Filed) (fun _ _ _ kept moved => kept.step (taken_of_next moved))
    filed ran

end Threads.Filed

end MiniATS
