import MiniATS.Proofs.LoadedBook
import MiniATS.Proofs.PassLists
import MiniATS.Server.Serial

/-!
# The book over a serial run

What a step of a serial run does to the book, for any type of numbers: a message inserts one
new order, removes one or leaves the book alone, and a pass changes amounts and takes orders
out. From this every state of a run that starts from a loaded book has a consistent index,
lists in order of time and no order with an id still to come.
-/

namespace MiniATS

open OrderBookEntry

variable {R : Type} [Zero R] [Add R] [Sub R] [Mul R] [Div R] [LT R] [LE R] [DecidableLT R]
  [DecidableLE R] [BEq R]

namespace Server

variable {env : Env R} {now : Int} {srv : Server R} {u command : Str} {tokens : List Str}

/-- The commands of `handleMessage` that can change the server, and all the others. -/
theorem handleMessage_cases {env : Env R} {now : Int} {srv : Server R} {u data : Str}
    {motive : Server R × Str × Reply → Prop}
    (register : commandOf (tokenise data) = str "REGISTER" →
      motive (srv.handleRegister u (tokenise data)))
    (login : commandOf (tokenise data) = str "LOGIN" → motive (srv.handleLogin u (tokenise data)))
    (order : commandOf (tokenise data) = str "ASK" ∨ commandOf (tokenise data) = str "BID" →
      motive ((srv.handleOrder env now u (commandOf (tokenise data)) (tokenise data)).1, u,
        (srv.handleOrder env now u (commandOf (tokenise data)) (tokenise data)).2))
    (cancel : commandOf (tokenise data) = str "CANCEL" →
      motive ((srv.handleCancel u (tokenise data)).1, u, (srv.handleCancel u (tokenise data)).2))
    (funds : commandOf (tokenise data) = str "DEPOSIT" ∨ commandOf (tokenise data) = str "WITHDRAW" →
      motive ((srv.handleFunds env u (commandOf (tokenise data)) (tokenise data)).1, u,
        (srv.handleFunds env u (commandOf (tokenise data)) (tokenise data)).2))
    (other : ¬ (commandOf (tokenise data) = str "ASK" ∨ commandOf (tokenise data) = str "BID") →
      ¬ (commandOf (tokenise data) = str "DEPOSIT" ∨ commandOf (tokenise data) = str "WITHDRAW") →
      ¬ commandOf (tokenise data) = str "CANCEL" → ∀ reply, motive (srv, u, reply)) :
    motive (srv.handleMessage env now u data) := by
  unfold handleMessage
  dsimp only
  refine iteInduction (fun empty => ?_) fun _ => ?_
  · rw [empty] at other
    exact other (by decide) (by decide) (by decide) _
  apply iteInduction register
  intro _
  apply iteInduction login
  intro _
  apply iteInduction order
  intro notOrder
  refine iteInduction (fun is => other notOrder (by rw [is]; decide) (by rw [is]; decide) _)
    fun _ => ?_
  apply iteInduction cancel
  intro notCancel
  apply iteInduction (fun is => other notOrder (by rw [is]; decide) notCancel _)
  intro _
  apply iteInduction funds
  intro notFunds
  apply iteInduction (fun _ => other notOrder notFunds notCancel _)
  intro _
  apply iteInduction (fun _ => other notOrder notFunds notCancel _)
  intro _
  exact iteInduction (fun _ => other notOrder notFunds notCancel _)
    fun _ => other notOrder notFunds notCancel _

omit [Div R] [BEq R] in
theorem reserveFunds_book (srv : Server R) (u command : Str) (o : OrderBookEntry R) :
    (srv.reserveFunds u command o).1.orderBook = srv.orderBook ∧
      (srv.reserveFunds u command o).1.nextId = srv.nextId ∧
      ∀ o', (srv.reserveFunds u command o).2 = .inr o' → o' = o := by
  unfold reserveFunds
  split
  · exact ⟨rfl, rfl, by simp⟩
  · split
    · exact ⟨rfl, rfl, by simp⟩
    · exact ⟨rfl, rfl, by simp⟩
    · exact ⟨rfl, rfl, by simp⟩

omit [Div R] [BEq R] in
/-- The first part of `ASK` and `BID` leaves the book alone and takes an id for the order. -/
theorem admitOrder_book (env : Env R) (now : Int) (srv : Server R) (u command : Str)
    (tokens : List Str) :
    (srv.admitOrder env now u command tokens).1.orderBook = srv.orderBook ∧
      srv.nextId ≤ (srv.admitOrder env now u command tokens).1.nextId ∧
      ∀ o, (srv.admitOrder env now u command tokens).2 = .inr o →
        (srv.admitOrder env now u command tokens).1.nextId = srv.nextId + 1 ∧ u ≠ [] ∧
          o.username = u ∧ o.id = srv.nextId ∧ o.timestamp = getCurrentTimestamp env now := by
  unfold admitOrder
  split
  · exact ⟨rfl, le_rfl, by simp⟩
  rename_i loggedIn
  split
  · split
    · dsimp only [OrderBookEntry.make]
      generalize getCurrentTimestamp env now = time
      obtain ⟨book, nextId, order⟩ := reserveFunds_book { srv with nextId := srv.nextId + 1 } u command
        ⟨_, _, time, _, _, u, srv.nextId⟩
      refine ⟨book, nextId.symm ▸ Nat.le_succ _, fun o reserved => ?_⟩
      obtain rfl := order o reserved
      exact ⟨nextId, loggedIn, rfl, rfl, rfl⟩
    · exact ⟨rfl, le_rfl, by simp⟩
  · exact ⟨rfl, le_rfl, by simp⟩

omit [Div R] [BEq R] in
/-- The terms of an admitted order are those of the tokens. -/
theorem admitOrder_terms {env : Env R} {now : Int} {srv : Server R} {u command : Str}
    {tokens : List Str} {o : OrderBookEntry R}
    (admitted : (srv.admitOrder env now u command tokens).2 = .inr o) :
    ∃ first token amountStr priceStr, tokens = [first, token, amountStr, priceStr] ∧
      env.stod amountStr = some o.amount ∧ env.stod priceStr = some o.price ∧
      o.product = Str.toUpper token ∧
      o.orderType = if command = str "ASK" then .ask else .bid := by
  unfold admitOrder at admitted
  split at admitted
  · cases admitted
  · split at admitted
    · rename_i first token amountStr priceStr
      split at admitted
      · rename_i amount price isAmount isPrice
        obtain rfl := (reserveFunds_book _ _ _ _).2.2 o admitted
        exact ⟨first, token, amountStr, priceStr, rfl, isAmount, isPrice, rfl, rfl⟩
      · cases admitted
    · cases admitted

omit [Mul R] [Div R] [BEq R] in
theorem handleFunds_book (env : Env R) (srv : Server R) (u command : Str) (tokens : List Str) :
    (srv.handleFunds env u command tokens).1.orderBook = srv.orderBook ∧
      (srv.handleFunds env u command tokens).1.nextId = srv.nextId := by
  have deposit : ∀ {srv' : Server R} {product : Str} {amount : R},
      srv.deposit u product amount = .ok srv' →
      srv'.orderBook = srv.orderBook ∧ srv'.nextId = srv.nextId := by
    intro srv' product amount done
    unfold Server.deposit at done
    split at done
    · cases done
    · split at done
      · cases done
      · obtain rfl := Except.ok.inj done
        exact ⟨rfl, rfl⟩
  have withdraw : ∀ {srv' : Server R} {product : Str} {amount : R} {removed : Bool},
      srv.withdraw u product amount = .ok (removed, srv') →
      srv'.orderBook = srv.orderBook ∧ srv'.nextId = srv.nextId := by
    intro srv' product amount removed done
    unfold Server.withdraw at done
    split at done
    · cases done
    · split at done
      · cases done
      · obtain ⟨-, rfl⟩ := Prod.mk.inj (Except.ok.inj done)
        exact ⟨rfl, rfl⟩
  unfold handleFunds
  split
  · exact ⟨rfl, rfl⟩
  · split
    · dsimp only
      split
      · exact ⟨rfl, rfl⟩
      · split
        · split
          · exact ⟨rfl, rfl⟩
          · exact withdraw ‹_›
          · exact withdraw ‹_›
        · split
          · exact ⟨rfl, rfl⟩
          · exact deposit ‹_›
    · exact ⟨rfl, rfl⟩

omit [Div R] [LT R] [DecidableLT R] [BEq R] in
theorem handleCancel_book (srv : Server R) (u : Str) (tokens : List Str) :
    (srv.handleCancel u tokens).1.nextId = srv.nextId ∧
      ((srv.handleCancel u tokens).1.orderBook = srv.orderBook ∨ ∃ id,
        (srv.handleCancel u tokens).1.orderBook = (srv.orderBook.removeOrderById u id).2) := by
  unfold handleCancel
  split
  · exact ⟨rfl, Or.inl rfl⟩
  rename_i order found
  unfold cancelFunds
  cases srv.userStore.getUser u with
  | error e => exact ⟨rfl, Or.inl rfl⟩
  | ok store =>
    dsimp only
    cases store.cancelOrder u order with
    | error e => exact ⟨rfl, Or.inl rfl⟩
    | ok r =>
      dsimp only
      -- both replies come with the server after `removeOrderById`
      split
      all_goals
        rename_i removed
        obtain rfl := congrArg Prod.snd removed
        exact ⟨rfl, Or.inr ⟨order.id, rfl⟩⟩

end Server

namespace System

/-- How a message changes the book and the next id. -/
inductive BookEnd (env : Env R) (s : System R) (sid : Nat) (now : Int) (data : Str) (s' : System R) : Prop
  | kept (placed : s.placedBy env sid now data = none) (book : s'.server.orderBook = s.server.orderBook)
    (later : s.server.nextId ≤ s'.server.nextId)
  | inserted {o : OrderBookEntry R} (placed : s.placedBy env sid now data = some o)
    (owner : o.username = s.sessions sid) (id : o.id = s.server.nextId)
    (time : o.timestamp = Server.getCurrentTimestamp env now)
    (book : s'.server.orderBook = s.server.orderBook.insertOrder o)
    (later : s'.server.nextId = s.server.nextId + 1)
  | removed (placed : s.placedBy env sid now data = none) (id : Nat)
    (book : s'.server.orderBook = (s.server.orderBook.removeOrderById (s.sessions sid) id).2)
    (later : s'.server.nextId = s.server.nextId)

omit [Div R] [BEq R] in
theorem handleOrder_book {env : Env R} {s s' : System R} {sid : Nat} {now : Int} {data : Str}
    (order : Server.commandOf (Server.tokenise data) = str "ASK" ∨
      Server.commandOf (Server.tokenise data) = str "BID")
    (ran : s'.server = (s.server.handleOrder env now (s.sessions sid)
      (Server.commandOf (Server.tokenise data)) (Server.tokenise data)).1) :
    BookEnd env s sid now data s' := by
  obtain ⟨book, later, admitted⟩ := Server.admitOrder_book env now s.server (s.sessions sid)
    (Server.commandOf (Server.tokenise data)) (Server.tokenise data)
  have placed : s.placedBy env sid now data = (s.server.admitOrder env now (s.sessions sid)
      (Server.commandOf (Server.tokenise data)) (Server.tokenise data)).2.getRight? := by
    unfold placedBy
    exact if_pos order
  unfold Server.handleOrder at ran
  generalize s.server.admitOrder env now (s.sessions sid) (Server.commandOf (Server.tokenise data))
    (Server.tokenise data) = r at book later admitted placed ran
  obtain ⟨srv, reply | o⟩ := r
  · refine .kept placed ?_ ?_
    · rw [ran]
      exact book
    · rw [ran]
      exact later
  · obtain ⟨later', -, owner, id, time⟩ := admitted o rfl
    refine .inserted placed owner id time ?_ ?_
    · rw [ran, Server.startMatchingProduct_orderBook]
      unfold Server.insertOrder
      rw [← book]
    · rw [ran, Server.startMatchingProduct_nextId]
      exact later'

theorem message_book (env : Env R) (s : System R) (sid : Nat) (now : Int) (data : Str) :
    BookEnd env s sid now data (step env s (.message sid now data)) := by
  by_cases order : Server.commandOf (Server.tokenise data) = str "ASK" ∨
      Server.commandOf (Server.tokenise data) = str "BID"
  · apply handleOrder_book order
    unfold step
    refine Server.handleMessage_cases (motive := fun r => r.1 = _) ?_ ?_ (fun _ => rfl) ?_ ?_ ?_
    · exact fun command => absurd order (by rw [command]; decide)
    · exact fun command => absurd order (by rw [command]; decide)
    · exact fun command => absurd order (by rw [command]; decide)
    · exact fun command => absurd order (by rcases command with is | is <;> rw [is] <;> decide)
    · exact fun notOrder _ _ => absurd order notOrder
  · have placed : s.placedBy env sid now data = none := by
      unfold placedBy
      exact if_neg order
    have keep : ∀ {srv : Server R}, srv.orderBook = s.server.orderBook →
        srv.nextId = s.server.nextId → ∀ sessions, BookEnd env s sid now data ⟨srv, sessions⟩ :=
      fun book nextId _ => .kept placed book nextId.ge
    unfold step
    refine Server.handleMessage_cases
      (motive := fun r => BookEnd env s sid now data ⟨r.1, Function.update s.sessions sid r.2.1⟩)
      ?_ ?_ (fun isOrder => absurd isOrder order) ?_ ?_ (fun _ _ _ _ => keep rfl rfl _)
    · intro _
      unfold Server.handleRegister
      split
      · split
        · exact keep rfl rfl _
        · split
          · exact keep rfl rfl _
          · exact .kept placed rfl le_rfl
      · exact keep rfl rfl _
    · intro _
      unfold Server.handleLogin
      split
      · split
        · exact keep rfl rfl _
        · split
          · split <;> exact keep rfl rfl _
          · exact keep rfl rfl _
      · exact keep rfl rfl _
    · intro _
      obtain ⟨nextId, book | ⟨id, book⟩⟩ :=
        s.server.handleCancel_book (s.sessions sid) (Server.tokenise data)
      · exact keep book nextId _
      · exact .removed placed id book nextId
    · intro _
      obtain ⟨book, nextId⟩ := s.server.handleFunds_book env (s.sessions sid)
        (Server.commandOf (Server.tokenise data)) (Server.tokenise data)
      exact keep book nextId _

/-- `REGISTER` and `LOGIN` do not let a session become `default`. -/
theorem message_session (env : Env R) (s : System R) (sid : Nat) (now : Int) (data : Str)
    (user : s.sessions sid ≠ defaultUser) :
    (s.server.handleMessage env now (s.sessions sid) data).2.1 ≠ defaultUser := by
  refine Server.handleMessage_cases (motive := fun r => r.2.1 ≠ defaultUser) ?_ ?_ (fun _ => user)
    (fun _ => user) (fun _ => user) (fun _ _ _ _ => user)
  · intro _
    unfold Server.handleRegister
    split
    · split
      · exact user
      · split
        · exact user
        · assumption
    · exact user
  · intro _
    unfold Server.handleLogin
    split
    · split
      · exact user
      · split
        · split
          · assumption
          · exact user
        · exact user
    · exact user

/-- What holds of the book and the sessions in every state of a serial run. -/
structure Filed (s : System R) : Prop where
  indexed : s.server.orderBook.Indexed
  fresh : ∀ o ∈ s.server.orderBook.getAllOrders, o.id < s.server.nextId
  users : ∀ sid, s.sessions sid ≠ defaultUser

omit [Zero R] [Add R] [Sub R] [Mul R] [Div R] [LT R] [LE R] [DecidableLT R] [DecidableLE R] [BEq R] in
theorem Filed.start {book : OrderBook R} {nextId : Nat} (loaded : Loaded book nextId)
    (store : UserStore R) : Filed (start book nextId store) :=
  ⟨loaded.indexed, loaded.fresh, fun _ => show ([] : Str) ≠ defaultUser by decide⟩

theorem Filed.message {env : Env R} {s : System R} (filed : Filed s) (sid : Nat) (now : Int)
    (data : Str) : Filed (step env s (.message sid now data)) := by
  have users : ∀ sid', (step env s (.message sid now data)).sessions sid' ≠ defaultUser := by
    intro sid'
    show Function.update s.sessions sid _ sid' ≠ defaultUser
    rw [Function.update_apply]
    split
    · exact message_session env s sid now data (filed.users sid)
    · exact filed.users sid'
  cases message_book env s sid now data with
  | kept placed book later =>
    refine ⟨by rw [book]; exact filed.indexed, fun o member => ?_, users⟩
    rw [book] at member
    exact lt_of_lt_of_le (filed.fresh o member) later
  | @inserted o placed owner id time book later =>
    refine ⟨?_, fun o' member => ?_, users⟩
    · rw [book]
      refine OrderBook.insertOrder_indexed filed.indexed ?_ (by rw [owner]; exact filed.users sid)
      exact fun o' member same => absurd (filed.fresh o' member) (by omega)
    · rw [book, (OrderBook.insertOrder_perm _ o).mem_iff] at member
      rw [later]
      rcases List.mem_cons.mp member with rfl | old
      · omega
      · exact Nat.lt_succ_of_lt (filed.fresh o' old)
  | removed placed id book later =>
    refine ⟨?_, fun o' member => ?_, users⟩
    · rw [book]
      exact OrderBook.removeOrderById_indexed filed.indexed (filed.users sid) id
    · rw [later]
      rw [book] at member
      exact filed.fresh o' (OrderBook.removeOrderById_subset filed.indexed.toMirrored _ id member)

theorem Filed.pass {env : Env R} {s : System R} (filed : Filed s) (std : StdSort (EntryPtr R))
    (now : Int) (product : Str) : Filed (step env s (.pass std now product)) := by
  have later : s.server.nextId ≤ (step env s (.pass std now product)).server.nextId :=
    OrderBook.matchAsksToBids_nextId _ _ _ _ _ _
  refine ⟨OrderBook.matchAsksToBids_indexed filed.indexed _ _ _ _ _, fun o' member => ?_, filed.users⟩
  obtain ⟨p, inList⟩ := OrderBook.mem_getAllOrders.mp member
  have ids := OrderBook.matchAsksToBids_fields (f := fun o : OrderBookEntry R => o.id)
    (fun _ _ => rfl) std s.server.orderBook product (Server.getCurrentTimestamp env now)
    s.server.userStore s.server.nextId p
  obtain ⟨o, was, same⟩ := List.mem_map.mp (ids.subset (List.mem_map_of_mem inList))
  rw [← same]
  exact lt_of_lt_of_le (filed.fresh o (OrderBook.mem_getAllOrders.mpr ⟨p, was⟩)) later

theorem Filed.step {env : Env R} {s : System R} (filed : Filed s) (e : Event R) :
    Filed (System.step env s e) := by
  cases e with
  | message sid now data => exact filed.message sid now data
  | pass std now product => exact filed.pass std now product

theorem Filed.run {env : Env R} {s : System R} (filed : Filed s) (events : List (Event R)) :
    Filed (System.run env s events) :=
  @Machine.run_invariant _ _ (System.step env) Filed (fun _ e filed => filed.step e) s filed events

end System

end MiniATS
