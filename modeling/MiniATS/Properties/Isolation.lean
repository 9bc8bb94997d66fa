import MiniATS.Properties.Lifetimes
import MiniATS.Proofs.StoreChanges

/-!
# Accounts are apart

A step acts for the user of its session, or for the users its pass trades for. Over any interleaving
the account and the open orders of a user change at such steps only, and name and password of a user
never do, whatever the other clients send (`ServerMain.cpp:87-348`, `UserStore.cpp:16-37`).
-/

namespace MiniATS

open OrderBook UserStore

namespace Session

variable {env : Env ℚ} {srv srv' : Server ℚ} {c c' : Session ℚ}

/-- An order that is still to be inserted is of the session's user. -/
def Own (c : Session ℚ) : Prop := ∀ o, c.inflight = some o → o.username = c.username

theorem own_of_landed (landed : c.inflight = none) : c.Own := by
  intro o flies
  rw [landed] at flies
  cases flies

theorem own_receive {now : Int} {data : Str} : (c.receive env now srv data).2.Own := by
  have answered : ∀ reply, ({ c with message := data }.answer reply).Own :=
    fun reply => own_of_landed (answer_inflight _ _)
  have waits : ∀ {phase : Phase ℚ}, (∀ o, phase ≠ .inserting o) →
      Session.Own { c with message := data, phase } := fun other => own_of_landed (inflight_of_phase other)
  apply receive_cases (motive := fun r => r.2.Own)
  · intro _
    unfold receiveRegister
    repeat' split
    all_goals first | exact answered _ | exact waits (by simp)
  · intro _
    unfold receiveLogin
    repeat' split
    all_goals first | exact answered _ | exact waits (by simp)
  · exact fun _ _ reply _ => answered reply
  · intro _ srv' order admitted o flies
    obtain rfl := Option.some.inj flies
    have taken := (srv.admitOrder_book env now c.username (Server.commandOf (Server.tokenise data))
      (Server.tokenise data)).2.2
    rw [admitted] at taken
    exact (taken _ rfl).2.2.1
  · exact fun _ _ _ => waits (by simp)
  · exact fun _ => answered _
  · exact fun _ => waits (by simp)
  · exact fun _ _ _ _ => waits (by simp)
  · exact fun reply _ _ => answered reply

theorem own_advance (moved : Advanced env srv c srv' c') : c'.Own := by
  apply own_of_landed
  cases advanced_book moved with
  | kept book pending nextId flew lands => exact lands
  | inserted phase server session => rw [session]; rfl
  | started phase server lands => exact lands
  | removed phase server lands => exact lands

end Session

namespace Threads

theorem own_step {env : Env ℚ} {s s' : Threads ℚ} {a : Action ℚ} (own : ∀ c ∈ s.sessions, c.Own)
    (taken : Taken env s a s') : ∀ c ∈ s'.sessions, c.Own :=
  sessions_step (Session.own_of_landed rfl) (fun _ => Session.own_receive)
    (fun _ moved => Session.own_advance moved) own taken

section Store

variable {R : Type} [Zero R] [Add R] [Sub R] [Mul R] [Div R] [LT R] [LE R] [DecidableLT R] [DecidableLE R] [BEq R]

/-- The users that a step acts for. -/
def actsFor (env : Env R) (s : Threads R) : Action R → List Str
  | .message sid _ _ => (s.sessions[sid]?).toList.map Session.username
  | .advance sid => (s.sessions[sid]?).toList.map Session.username
  | .task n std now => match s.pass env (.task n std now) with
    | none => []
    | some (_, ended) => parties (ended.trades.map Prod.fst)
  | _ => []

variable {env : Env R} {s s' : Threads R} {a : Action R}

theorem receive_changes (env : Env R) (now : Int) (srv : Server R) (c : Session R) (data : Str) :
    Changes [c.username] srv.userStore (c.receive env now srv data).1.userStore := by
  apply Session.receive_cases (motive := fun r => Changes [c.username] srv.userStore r.1.userStore)
  · exact fun _ => .refl
  · exact fun _ => .refl
  · intro _ srv' reply admitted
    have changes := srv.admitOrder_changes env now c.username (Server.commandOf (Server.tokenise data))
      (Server.tokenise data)
    rwa [admitted] at changes
  · intro _ srv' order admitted
    have changes := srv.admitOrder_changes env now c.username (Server.commandOf (Server.tokenise data))
      (Server.tokenise data)
    rwa [admitted] at changes
  · exact fun _ _ _ => .refl
  · exact fun _ => srv.handleFunds_changes env _ _ _
  · exact fun _ => .refl
  · exact fun _ _ _ _ => .refl
  · exact fun _ _ _ => .refl

theorem advance_changes {srv srv' : Server R} {c c' : Session R}
    (moved : Session.Advanced env srv c srv' c') : Changes [c.username] srv.userStore srv'.userStore := by
  cases moved with
  | registered phase => exact Changes.refl.added _ _
  | loggedIn phase got valid => exact getUser_changes _ got
  | rejected phase reply got =>
    rcases got with rfl | got
    · exact .refl
    · exact getUser_changes _ got
  | inserted phase => exact .refl
  | started phase reply =>
    rw [Server.startMatchingProduct_userStore]
    exact .refl
  | unlocked phase unlocked => exact Server.cancelFunds_changes _ _ unlocked
  | failed phase reply thrown => exact .refl
  | removed phase reply => exact .refl
  | reported phase => exact .refl

/-- A step replaces the wallets of those it acts for. -/
theorem store_step (taken : Taken env s a s') :
    Changes (s.actsFor env a) s.server.userStore s'.server.userStore := by
  cases taken with
  | message found sessions idle =>
    simp only [actsFor, found]
    exact receive_changes env _ _ _ _
  | advance found sessions moved =>
    simp only [actsFor, found]
    exact advance_changes (Session.advanced_of_advance moved)
  | @task n std now product before after found tasks =>
    simp only [actsFor, Threads.pass, found, Option.map_some]
    exact matchAsksToBids_changes std s.server.orderBook product _ _ _
  | _ => exact .refl

end Store

section Orders

variable {env : Env ℚ} {s s' : Threads ℚ} {a : Action ℚ} {u : Str}

/-- The open orders of a user with something left of them stay as they are. A pass drops the others
of its product even when it trades for nobody. -/
def SameOrders (u : Str) (s s' : Threads ℚ) : Prop :=
  ∀ o : OrderBookEntry ℚ, o.username = u → 0 < o.amount →
    (o ∈ s'.server.orderBook.getAllOrders ↔ o ∈ s.server.orderBook.getAllOrders)

theorem SameOrders.of_book (book : s'.server.orderBook = s.server.orderBook) : SameOrders u s s' := by
  intro o _ _
  rw [book]

/-- A pass that does not trade for a user leaves the orders of the user alone. -/
theorem pass_sameOrders (mirrored : s.server.orderBook.Mirrored) {std : StdSort (EntryPtr ℚ)} {now : Int}
    {product : Str} (server : s'.server = (s.server.matchProduct env std now product).1)
    (apart : u ∉ parties (passTrades env std now s.server product)) : SameOrders u s s' := by
  have untouched : ∀ o ∈ s.server.orderBook.getAllOrders, o.username = u →
      filledBy (passTrades env std now s.server product) o = 0 := by
    intro o inBook owner
    -- a matched order with the id would be the order itself
    have other : ∀ t ∈ passTrades env std now s.server product, ∀ p : EntryPtr ℚ,
        p.entry.username ∈ [t.bid.entry.username, t.ask.entry.username] →
        (∃ o' ∈ s.server.orderBook.orders product, SameOrder o' p.entry) → p.entry.id ≠ o.id := by
      rintro t member p party ⟨o', inList, x, same⟩ id
      have was : o' = o := List.inj_on_of_nodup_map mirrored.distinct
        (mem_getAllOrders.mpr ⟨product, inList⟩) inBook (by rw [← id, same]; rfl)
      apply apart
      rw [← owner, ← was]
      refine List.mem_flatMap.mpr ⟨t, member, ?_⟩
      rwa [same] at party
    apply filledBy_of_others
    · intro t member
      obtain ⟨bid, inList, -, -, -, -, -, -, same, -⟩ := (passTrades_between mirrored t member).parties
      exact other t member t.bid (by simp) ⟨bid, inList, same⟩
    · intro t member
      obtain ⟨-, -, ask, inList, -, -, -, -, -, same⟩ := (passTrades_between mirrored t member).parties
      exact other t member t.ask (by simp) ⟨ask, inList, same⟩
  have unchanged : ∀ {o o' : OrderBookEntry ℚ}, o ∈ s.server.orderBook.getAllOrders → o.username = u →
      LeftBy (passTrades env std now s.server product) o o' → o' = o := by
    intro o o' inBook owner left
    have taken := left.taken
    rw [untouched o inBook owner, zero_add] at taken
    obtain ⟨x, same, -⟩ := left.shrunk
    rw [same] at taken
    rw [same, ← show o.amount = x from taken, OrderBookEntry.withAmount_self]
  intro o owner positive
  rw [server]
  constructor
  · intro stands
    obtain ⟨was, inBook, left⟩ := matchProduct_comes mirrored o stands
    rw [unchanged inBook (left.shrunk.username.symm.trans owner) left]
    exact inBook
  · intro inBook
    obtain ⟨o', left, stands | empty⟩ := matchProduct_leaves env std now product mirrored o inBook
    · exact unchanged inBook owner left ▸ stands
    · rw [unchanged inBook owner left] at empty
      exact absurd positive (not_lt_of_ge empty)

theorem sameOrders_step (filed : s.Filed) (own : ∀ c ∈ s.sessions, c.Own) (taken : Taken env s a s')
    (apart : u ∉ s.actsFor env a) : SameOrders u s s' := by
  cases taken with
  | @message sid now data c before after found sessions idle =>
    exact .of_book (Session.receive_book env now s.server c data).book
  | @advance sid c c' srv before after found sessions moved =>
    have other : c.username ≠ u := by
      intro same
      simp [actsFor, found, same] at apart
    cases Session.advanced_book (Session.advanced_of_advance moved) with
    | kept book pending nextId flew lands => exact .of_book book
    | @inserted o phase server session =>
      subst server
      have owner : o.username = c.username :=
        own c (mem_sessions sessions) o (by unfold Session.inflight; rw [phase])
      intro o' owner' _
      have inserted := (insertOrder_perm s.server.orderBook o).mem_iff (a := o')
      refine inserted.trans (List.mem_cons.trans (or_iff_right ?_))
      rintro rfl
      exact other (owner.symm.trans owner')
    | started phase server lands =>
      apply SameOrders.of_book
      rw [server]
      exact Server.startMatchingProduct_orderBook _ _
    | @removed id phase server lands =>
      subst server
      intro o owner _
      constructor
      · exact fun stands => removeOrderById_subset filed.mirrored _ id stands
      · intro inBook
        refine (stays_or_removed filed.mirrored c.username id inBook).resolve_right ?_
        rintro ⟨-, owner'⟩
        exact other (owner'.symm.trans owner)
  | @task n std now product before after found tasks =>
    simp only [actsFor, Threads.pass, found, Option.map_some] at apart
    exact pass_sameOrders filed.mirrored rfl apart
  | _ => exact .of_book rfl

/-- Over every run from a state that is reached, a user keeps name and password, and the account and the
open orders when no step acts for the user. -/
theorem accounts_isolated (env : Env ℚ) {filename : Str} {file : Option Str} {book : OrderBook ℚ}
    {nextId : Nat} (made : OrderBook.make env filename file 1 = .ok (book, nextId))
    (store : UserStore ℚ) (actions : List (Action ℚ)) {s s' : Threads ℚ}
    (ran : Machine.exec (next env) (start book nextId store) actions = some s) {u : Str} {user : User ℚ}
    (known : s.server.userStore.users.lookup u = some user) (more : List (Action ℚ))
    (ran' : Machine.exec (next env) s more = some s') :
    (∃ w, s'.server.userStore.users.lookup u = some { user with wallet := w }) ∧
      (Machine.Along (next env) (fun t a => u ∉ t.actsFor env a) s more →
        s'.server.userStore.users.lookup u = some user ∧ SameOrders u s s') := by
  have filed : s.Filed := (Filed.start (make_loaded made) store).run ran
  have own : ∀ c ∈ s.sessions, c.Own :=
    Machine.exec_keeps (fun s : Threads ℚ => ∀ c ∈ s.sessions, c.Own)
      (fun _ _ _ all step => own_step all (taken_of_next step))
      (fun _ member => absurd member List.not_mem_nil) ran
  constructor
  · exact Machine.exec_keeps
      (fun t : Threads ℚ => ∃ w, t.server.userStore.users.lookup u = some { user with wallet := w })
      (fun t a t' kept step => by
        obtain ⟨w, found⟩ := kept
        obtain ⟨w', found'⟩ := (store_step (taken_of_next step)).keeps found
        exact ⟨w', found'⟩)
      ⟨user.wallet, known⟩ ran'
  · intro apart
    exact (Machine.exec_invariant
      (fun t : Threads ℚ => (t.Filed ∧ ∀ c ∈ t.sessions, c.Own) ∧
        t.server.userStore.users.lookup u = some user ∧ SameOrders u s t)
      (fun t a t' kept apart step => by
        obtain ⟨⟨filed, own⟩, found, same⟩ := kept
        have taken := taken_of_next step
        refine ⟨⟨filed.step taken, own_step own taken⟩, (store_step taken).spares apart found, ?_⟩
        exact fun o owner positive =>
          (sameOrders_step filed own taken apart o owner positive).trans (same o owner positive))
      ⟨⟨filed, own⟩, known, fun _ _ _ => Iff.rfl⟩ apart ran').2

/-- Alice has a bid in the book. -/
def aliceOwns : List (Action ℚ) :=
  [.connect, .message 0 0 (str "REGISTER alice pw"), .advance 0, .message 0 0 (str "DEPOSIT usd 9"),
    .message 0 0 (str "BID btc/usd 1 4"), .advance 0, .advance 0, .connect]

/-- Bob outbids Alice, tries to cancel her order, and a pass runs. -/
def bobInterferes : List (Action ℚ) :=
  [.message 1 0 (str "REGISTER bob pw"), .advance 1, .message 1 0 (str "DEPOSIT usd 9"),
    .message 1 0 (str "BID btc/usd 1 6"), .advance 1, .advance 1, .message 1 0 (str "CANCEL 1"),
    .engine, .engine, .engine, .engine, .task 0 (StdSort.insertion _) 0]

theorem accounts_isolated_bob : ∃ s s' user,
    Machine.exec (next exactEnv) fresh aliceOwns = some s ∧
      Machine.exec (next exactEnv) s bobInterferes = some s' ∧
      s'.server.userStore.users.lookup (str "alice") = some user ∧ SameOrders (str "alice") s s' := by
  obtain ⟨s, ran, found⟩ := (Option.any_eq_true _ _).mp
    (show (Machine.exec (next exactEnv) fresh aliceOwns).any (fun s =>
      (Machine.exec (next exactEnv) s bobInterferes).isSome &&
        (s.server.userStore.users.lookup (str "alice")).isSome &&
        decide (Machine.Along (next exactEnv) (fun t a => str "alice" ∉ t.actsFor exactEnv a) s bobInterferes))
      by decide +kernel)
  simp only [Bool.and_eq_true, decide_eq_true_eq] at found
  obtain ⟨⟨runs, known⟩, apart⟩ := found
  obtain ⟨s', ran'⟩ := Option.isSome_iff_exists.mp runs
  obtain ⟨user, known⟩ := Option.isSome_iff_exists.mp known
  exact ⟨s, s', user, ran, ran', (accounts_isolated exactEnv (System.fresh_book exactEnv) .empty aliceOwns
    ran known bobInterferes ran').2 apart⟩

end Orders

end Threads

end MiniATS
