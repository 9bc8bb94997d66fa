import MiniATS.Proofs.Accounts
import MiniATS.Proofs.Refusals
import MiniATS.Proofs.UserOrders
import MiniATS.Properties.ReservedFunds

/-!
# A command happens or does not

What a client may conclude from the reply to a command that runs without interference: after `ERR`
nothing has changed, after an `OK` to `ASK`, `BID` or `CANCEL` exactly what was asked for has.
`CANCEL` ignores whether the funds were unlocked, so that it does not lie rests on the invariant
of the reserved funds.
-/

namespace MiniATS

open Ledger OrderBookEntry OrderBook CSVHandler

/-- The server is as it was, except for the id counter and for balances of zero that have become
keys. -/
structure Server.Unchanged (srv srv' : Server ℚ) : Prop where
  balances : ∀ v d, srv'.userStore.available v d = srv.userStore.available v d ∧
    srv'.userStore.locked v d = srv.userStore.locked v d
  users : ∀ v, srv'.userStore.passwordOf v = srv.userStore.passwordOf v
  book : srv'.orderBook = srv.orderBook
  pending : srv'.pendingProducts = srv.pendingProducts
  nextId : srv.nextId ≤ srv'.nextId

/-- The amount `x` of the currency `c` that an order keeps locked: the amount of the base token for
an ask, amount times price of the quote token for a bid. -/
def OrderBookEntry.Reserves (o : OrderBookEntry ℚ) (c : Str) (x : ℚ) : Prop :=
  ∃ base quote', extractTokens o.product 47 = .ok [base, quote'] ∧
    (o.orderType = .ask ∧ c = base ∧ x = o.amount ∨
      o.orderType = .bid ∧ c = quote' ∧ x = o.amount * o.price)

/-- `ASK` and `BID` have placed the order `o` of the user `u`, whose terms are in the tokens, and
have locked `x` of the currency `c` for it. -/
structure Server.OrderPlaced (env : Env ℚ) (srv srv' : Server ℚ) (u : Str) (tokens : List Str)
    (o : OrderBookEntry ℚ) (c : Str) (x : ℚ) : Prop where
  terms : ∃ first token amountStr priceStr, tokens = [first, token, amountStr, priceStr] ∧
    env.stod amountStr = some o.amount ∧ env.stod priceStr = some o.price ∧
    o.product = Str.toUpper token ∧
    o.orderType = if Server.commandOf tokens = str "ASK" then .ask else .bid
  owner : o.username = u
  new : ∀ o' ∈ srv.orderBook.getAllOrders, o'.id ≠ o.id
  all : srv'.orderBook.getAllOrders.Perm (o :: srv.orderBook.getAllOrders)
  lists : ∀ p, srv'.orderBook.orders p =
    if p = o.product then insertInto (srv.orderBook.orders p) o else srv.orderBook.orders p
  orders : ∀ v, srv'.orderBook.getOrdersForUser v =
    if v = u then srv.orderBook.getOrdersForUser v ++ [o] else srv.orderBook.getOrdersForUser v
  sales : srv'.orderBook.finalizedSales = srv.orderBook.finalizedSales
  reserves : o.Reserves c x
  available : ∀ v d, srv'.userStore.available v d =
    srv.userStore.available v d - if v = u ∧ d = c then x else 0
  locked : ∀ v d, srv'.userStore.locked v d =
    srv.userStore.locked v d + if v = u ∧ d = c then x else 0
  users : ∀ v, srv'.userStore.passwordOf v = srv.userStore.passwordOf v

/-- `CANCEL` has taken out the order `o` of the user `u`, whose id is in the tokens, and has
unlocked `x` of the currency `c` for it. -/
structure Server.OrderCancelled (srv srv' : Server ℚ) (u : Str) (tokens : List Str)
    (o : OrderBookEntry ℚ) (c : Str) (x : ℚ) : Prop where
  parsed : ∃ first idStr id, tokens = [first, idStr] ∧ Str.stoi idStr = some id ∧
    o.id = Str.toSizeT id
  listed : o ∈ srv.orderBook.getOrdersForUser u
  owner : o.username = u
  book : srv.orderBook.Removed srv'.orderBook o
  orders : ∀ v, srv'.orderBook.getOrdersForUser v =
    if v = u then (srv.orderBook.getOrdersForUser v).filter (fun e => e.id ≠ o.id)
    else srv.orderBook.getOrdersForUser v
  reserves : o.Reserves c x
  available : ∀ v d, srv'.userStore.available v d =
    srv.userStore.available v d + if v = u ∧ d = c then x else 0
  locked : ∀ v d, srv'.userStore.locked v d =
    srv.userStore.locked v d - if v = u ∧ d = c then x else 0
  users : ∀ v, srv'.userStore.passwordOf v = srv.userStore.passwordOf v
  nextId : srv'.nextId = srv.nextId

/-- What a reply tells: about the server, and about the username of the session. -/
structure Server.ReplyHolds (env : Env ℚ) (srv srv' : Server ℚ) (u u' : Str) (tokens : List Str)
    (reply : Reply) : Prop where
  err : reply.begins (str "ERR") → srv.Unchanged srv' ∧ u' = u
  order : commandOf tokens = str "ASK" ∨ commandOf tokens = str "BID" → reply.begins (str "OK") →
    (∃ o c x, OrderPlaced env srv srv' u tokens o c x) ∧ u' = u
  cancel : commandOf tokens = str "CANCEL" → reply.begins (str "OK") →
    (∃ o c x, OrderCancelled srv srv' u tokens o c x) ∧ u' = u

theorem OrderBookEntry.reserves_of_token {o : OrderBookEntry ℚ} {c : Str}
    (token : o.reservedToken = some c) : o.Reserves c o.need := by
  unfold reservedToken at token
  cases pair : pairTokens Wallet.invalidProduct o.product with
  | error e => simp [pair] at token
  | ok tokens =>
    obtain ⟨base, quote'⟩ := tokens
    refine ⟨base, quote', extractTokens_of_pairTokens pair, ?_⟩
    cases type : o.orderType with
    | ask =>
      obtain rfl : base = c := by simpa [pair, type] using token
      exact Or.inl ⟨rfl, rfl, need_of_ask type⟩
    | bid =>
      obtain rfl : quote' = c := by simpa [pair, type] using token
      exact Or.inr ⟨rfl, rfl, need_of_bid type⟩
    | sale => simp [pair, type] at token

namespace Server

theorem Unchanged.refl (srv : Server ℚ) : Unchanged srv srv :=
  ⟨fun _ _ => ⟨rfl, rfl⟩, fun _ => rfl, rfl, rfl, le_rfl⟩

theorem SessionUser.ne_default {store : UserStore ℚ} {u : Str} (session : SessionUser store u) :
    u ≠ defaultUser := by
  rcases session with rfl | ⟨user, -⟩
  · decide
  · exact user

section Handlers

variable {env : Env ℚ} {now : Int} {srv : Server ℚ} {u : Str} {tokens : List Str}

theorem handleRegister_err : (srv.handleRegister u tokens).2.2.begins (str "ERR") →
    (srv.handleRegister u tokens).1 = srv ∧ (srv.handleRegister u tokens).2.1 = u := by
  unfold handleRegister
  split
  · split
    · exact fun _ => ⟨rfl, rfl⟩
    · split
      · exact fun _ => ⟨rfl, rfl⟩
      · intro failed
        cases failed
  · exact fun _ => ⟨rfl, rfl⟩

theorem handleLogin_err : (srv.handleLogin u tokens).2.2.begins (str "ERR") →
    (srv.handleLogin u tokens).1 = srv ∧ (srv.handleLogin u tokens).2.1 = u := by
  unfold handleLogin
  split
  · split
    · exact fun _ => ⟨rfl, rfl⟩
    · split
      · split
        · intro failed
          cases failed
        · exact fun _ => ⟨rfl, rfl⟩
      · exact fun _ => ⟨rfl, rfl⟩
  · exact fun _ => ⟨rfl, rfl⟩

theorem handleFunds_err (session : SessionUser srv.userStore u) (command : Str)
    (failed : (srv.handleFunds env u command tokens).2.begins (str "ERR")) :
    Unchanged srv (srv.handleFunds env u command tokens).1 := by
  have users : ∀ v, (srv.handleFunds env u command tokens).1.userStore.passwordOf v =
      srv.userStore.passwordOf v := fun v => handleFunds_passwords env session.ne_default v
  have ends := handleFunds_end env command tokens session
  generalize srv.handleFunds env u command tokens = r at *
  obtain ⟨srv', reply⟩ := r
  cases ends with
  | refused rest same within =>
    exact ⟨UserStore.balances_of_ledger same, users, rfl, rfl, le_rfl⟩
  | deposited loggedIn is other amount nonneg credited within => cases failed
  | withdrew loggedIn is same amount nonneg enough debited within => cases failed

end Handlers

end Server

namespace System

variable {s : System ℚ}

theorem handleOrder_whole (env : Env ℚ) (secured : Secured s) (sid : Nat) (now : Int)
    (tokens : List Str) :
    let u := s.sessions sid
    let r := s.server.handleOrder env now u (Server.commandOf tokens) tokens
    (r.2.begins (str "ERR") → s.server.Unchanged r.1) ∧
      (r.2.begins (str "OK") → ∃ o c x, Server.OrderPlaced env s.server r.1 u tokens o c x) := by
  have session := secured.sessions sid
  have ends := Server.admitOrder_end env now (Server.commandOf tokens) tokens session
  have users : ∀ v, (s.server.admitOrder env now (s.sessions sid) (Server.commandOf tokens)
      tokens).1.userStore.passwordOf v = s.server.userStore.passwordOf v :=
    fun v => Server.admitOrder_passwords env now session.ne_default v
  have admission : Server.Admission s.server _ (s.server.admitOrder env now (s.sessions sid)
      (Server.commandOf tokens) tokens) := Server.admitOrder_admission session.ne_default
  have terms := @Server.admitOrder_terms _ _ _ _ _ _ _ _ _ env now s.server (s.sessions sid)
    (Server.commandOf tokens) tokens
  dsimp only [Server.handleOrder]
  generalize s.server.admitOrder env now (s.sessions sid) (Server.commandOf tokens) tokens = r at *
  obtain ⟨srv', stop⟩ := r
  cases ends with
  | stopped reply later within same =>
    refine ⟨fun _ => ⟨UserStore.balances_of_ledger same, users, rfl, rfl, later⟩, fun ok => ?_⟩
    cases admission with
    | refused answer no kept => exact absurd ok (Reply.not_ok_of_err answer)
  | @admitted store o c loggedIn owner id open' time token nonneg enough locked within =>
    refine ⟨fun failed => (nomatch failed), fun _ => ⟨o, c, o.need, ?_⟩⟩
    dsimp only
    have fresh : ∀ o' ∈ s.server.orderBook.getAllOrders, o'.id ≠ o.id :=
      fun o' member same => absurd (secured.sane.fresh o' member) (by omega)
    rw [lock_of_le enough] at locked
    have balances := UserStore.balances_of_ledger locked
    generalize placed : (({ s.server with userStore := store, nextId := s.server.nextId + 1 } :
      Server ℚ).insertOrder o).startMatchingProduct o.product = srv' at *
    have book : srv'.orderBook = s.server.orderBook.insertOrder o := by
      rw [← placed, Server.startMatchingProduct_orderBook]
      rfl
    have funds : srv'.userStore = store := by
      rw [← placed, Server.startMatchingProduct_userStore]
      rfl
    refine ⟨terms rfl, owner, fresh, ?_, fun p => ?_, fun v => ?_, ?_, reserves_of_token token,
      fun v d => ?_, fun v d => ?_, fun v => ?_⟩
    · rw [book]
      exact insertOrder_perm _ o
    · rw [book, orders_insert s.server.orderBook rfl]
      by_cases filed : p = o.product
      · rw [if_pos filed, if_pos filed, filed]
      · rw [if_neg filed, if_neg filed]
    · rw [book, getOrdersForUser_insertOrder secured.sane.indexed.toMirrored fresh, owner]
    · rw [book]
      dsimp only [OrderBook.insertOrder]
    · rw [funds]
      exact (balances v d).1
    · rw [funds]
      exact (balances v d).2
    · rw [funds]
      exact users v

theorem handleCancel_whole (secured : Secured s) (sid : Nat) (tokens : List Str) :
    let u := s.sessions sid
    let r := s.server.handleCancel u tokens
    (r.2.begins (str "ERR") → r.1 = s.server) ∧
      (r.2.begins (str "OK") → ∃ o c x, Server.OrderCancelled s.server r.1 u tokens o c x) := by
  have session := secured.sessions sid
  dsimp only [Server.handleCancel]
  have ends := Server.findOwnOrder_own s.server (s.sessions sid) tokens
  generalize found : s.server.findOwnOrder (s.sessions sid) tokens = r at ends
  cases ends with
  | missing answer no => exact ⟨fun _ => rfl, fun ok => absurd ok (Reply.not_ok_of_err answer)⟩
  | @found o loggedIn listed parsed =>
    obtain ⟨-, inBook, owner⟩ := Server.findOwnOrder_eq secured.sane.indexed session found
    obtain ⟨user, known⟩ := session.known loggedIn
    dsimp only
    generalize s.sessions sid = u at *
    subst owner
    obtain ⟨c, token⟩ := Option.isSome_iff_exists.mp (secured.sane.admitted o inBook user).token
    obtain ⟨store, ran, unlocked, -⟩ := Server.cancelFunds_of_token known token
    obtain ⟨book', removed, perm, lists, index, sales, -⟩ :=
      removeOrderById_of_mem secured.sane.indexed inBook user
    have users : ∀ v, store.passwordOf v = s.server.userStore.passwordOf v :=
      fun v => Server.cancelFunds_passwords user ran v
    have book : s.server.orderBook.Removed book' o := ⟨perm, lists, index, sales⟩
    rw [unlock_of_le (secured.need_le_locked inBook user token)] at unlocked
    have balances := UserStore.balances_of_ledger unlocked
    simp only [ran, Server.removeOrderById, removed]
    refine ⟨fun failed => (nomatch failed), fun _ => ⟨o, c, o.need, ?_⟩⟩
    refine ⟨parsed, listed, rfl, book, fun v => ?_, reserves_of_token token, fun v d => ?_,
      fun v d => ?_, users, rfl⟩
    · exact getOrdersForUser_of_removed secured.sane.indexed.toMirrored book v
    · rw [(balances v d).1]
      rfl
    · rw [(balances v d).2]
      rfl

theorem message_holds (env : Env ℚ) (secured : Secured s) (sid : Nat) (now : Int) (data : Str) :
    let r := s.server.handleMessage env now (s.sessions sid) data
    Server.ReplyHolds env s.server r.1 (s.sessions sid) r.2.1 (Server.tokenise data) r.2.2 := by
  refine Server.handleMessage_cases (motive := fun r => Server.ReplyHolds env s.server r.1
    (s.sessions sid) r.2.1 (Server.tokenise data) r.2.2) ?_ ?_ ?_ ?_ ?_ ?_
  · intro command
    refine ⟨fun failed => ?_, fun is => ?_, fun is => ?_⟩
    · obtain ⟨server, user⟩ := Server.handleRegister_err failed
      exact ⟨server.symm ▸ .refl _, user⟩
    · exact absurd is (by rw [command]; decide)
    · exact absurd is (by rw [command]; decide)
  · intro command
    refine ⟨fun failed => ?_, fun is => ?_, fun is => ?_⟩
    · obtain ⟨server, user⟩ := Server.handleLogin_err failed
      exact ⟨server.symm ▸ .refl _, user⟩
    · exact absurd is (by rw [command]; decide)
    · exact absurd is (by rw [command]; decide)
  · intro command
    obtain ⟨err, ok⟩ := handleOrder_whole env secured sid now (Server.tokenise data)
    refine ⟨fun failed => ⟨err failed, rfl⟩, fun _ replied => ⟨ok replied, rfl⟩, fun is => ?_⟩
    exact absurd command (by rw [is]; decide)
  · intro command
    obtain ⟨err, ok⟩ := handleCancel_whole secured sid (Server.tokenise data)
    refine ⟨fun failed => ⟨?_, rfl⟩, fun is => ?_, fun _ replied => ⟨ok replied, rfl⟩⟩
    · dsimp only
      rw [err failed]
      exact .refl _
    · exact absurd is (by rw [command]; decide)
  · intro command
    refine ⟨fun failed => ⟨?_, rfl⟩, fun is => ?_, fun is => ?_⟩
    · exact Server.handleFunds_err (secured.sessions sid) _ failed
    · exact absurd is (by rcases command with is' | is' <;> rw [is'] <;> decide)
    · exact absurd is (by rcases command with is' | is' <;> rw [is'] <;> decide)
  · intro notOrder _ notCancel reply
    exact ⟨fun _ => ⟨.refl _, rfl⟩, fun is => absurd is notOrder, fun is => absurd is notCancel⟩

/-- Every command is all-or-nothing: in every state of a serial run, what the reply to a message
tells has happened, and nothing else; no other session is affected. -/
theorem command_all_or_nothing (env : Env ℚ) {filename : Str} {file : Option Str}
    {book : OrderBook ℚ} {nextId : Nat}
    (made : OrderBook.make env filename file 1 = .ok (book, nextId)) (store : UserStore ℚ)
    (balances : ∀ u c, 0 ≤ store.available u c ∧ 0 ≤ store.locked u c) (events : List (Event ℚ))
    (sid : Nat) (now : Int) (data : Str) :
    let s := run env (start book nextId store) events
    let s' := step env s (.message sid now data)
    Server.ReplyHolds env s.server s'.server (s.sessions sid) (s'.sessions sid)
        (Server.tokenise data) (replyTo env s sid now data) ∧
      ∀ other, other ≠ sid → s'.sessions other = s.sessions other := by
  have secured : Secured (run env (start book nextId store) events) :=
    (Secured.start (make_loaded made) fun u _ c => (balances u c).2).run events
  dsimp only
  generalize run env (start book nextId store) events = s at secured ⊢
  refine ⟨?_, fun other different => Function.update_of_ne different _ _⟩
  have holds := message_holds env secured sid now data
  dsimp only [step, replyTo]
  rw [Function.update_self]
  exact holds

/-- Alice's ask is cancelled, and what the reply tells has happened. -/
theorem command_all_or_nothing_cancel :
    let s := run exactEnv fresh ((saleAt "4" "6").take 3)
    let s' := step exactEnv s (.line 0 "CANCEL 1")
    let reply := replyTo exactEnv s 0 0 (str "CANCEL 1")
    reply = .text (str "OK Order cancelled.") ∧
      Server.ReplyHolds exactEnv s.server s'.server (s.sessions 0) (s'.sessions 0)
        (Server.tokenise (str "CANCEL 1")) reply :=
  ⟨by decide +kernel,
    (command_all_or_nothing exactEnv (fresh_book exactEnv) .empty (fun _ _ => ⟨le_rfl, le_rfl⟩)
      ((saleAt "4" "6").take 3) 0 0 (str "CANCEL 1")).1⟩

end System

end MiniATS
