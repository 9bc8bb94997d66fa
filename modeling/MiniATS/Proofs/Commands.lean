import MiniATS.Proofs.Sane
import MiniATS.Proofs.SerialBook

/-!
# What a whole message does

`MessageEnd` is the inversion of one message over exact numbers: nothing moves, an order is
placed, an order is cancelled, or funds come in or go out. `Sound` is the invariant of serial
runs that makes it hold: the shared state is `Sane` with nothing in flight, and every session
belongs to a registered user.
-/

namespace MiniATS

open Ledger OrderBookEntry

/-- What a message brings into a currency from outside: the amount of a `DEPOSIT`, or minus the
amount of a `WITHDRAW`, when the reply says that it was accepted. -/
def Server.fundsMoved (env : Env ℚ) (tokens : List Str) (reply : Reply) (c : Str) : ℚ :=
  match tokens, reply with
  | [_, token, amountStr], .text line =>
    if (str "OK").isPrefixOf line ∧ Str.toUpper token = c then
      if Server.commandOf tokens = str "DEPOSIT" then (env.stod amountStr).getD 0
      else if Server.commandOf tokens = str "WITHDRAW" then - (env.stod amountStr).getD 0
      else 0
    else 0
  | _, _ => 0

namespace Server

variable {env : Env ℚ} {tokens : List Str}

theorem fundsMoved_of_other
    (other : ¬ (commandOf tokens = str "DEPOSIT" ∨ commandOf tokens = str "WITHDRAW"))
    (reply : Reply) : fundsMoved env tokens reply = 0 := by
  funext c
  obtain ⟨deposit, withdraw⟩ := not_or.mp other
  unfold fundsMoved
  split
  · split
    · rfl
    · rfl
  · rfl

theorem fundsMoved_of_err (rest : Str) : fundsMoved env tokens (.text (str "ERR" ++ rest)) = 0 := by
  funext c
  have refused : (str "OK").isPrefixOf (str "ERR" ++ rest) = false := rfl
  unfold fundsMoved
  split
  · rename_i line same
    obtain rfl := Reply.text.inj same
    rw [if_neg (by simp [refused])]
    rfl
  · rfl

theorem fundsMoved_of_deposited {first token amountStr line : Str} {a : ℚ}
    (command : commandOf [first, token, amountStr] = str "DEPOSIT") (amount : env.stod amountStr = some a)
    (ok : (str "OK").isPrefixOf line) (c : Str) :
    fundsMoved env [first, token, amountStr] (.text line) c = if c = Str.toUpper token then a else 0 := by
  simp only [fundsMoved, ok, true_and, command, if_true, amount, Option.getD_some, eq_comm]

theorem fundsMoved_of_withdrew {first token amountStr line : Str} {a : ℚ}
    (command : commandOf [first, token, amountStr] = str "WITHDRAW")
    (amount : env.stod amountStr = some a) (ok : (str "OK").isPrefixOf line) (c : Str) :
    fundsMoved env [first, token, amountStr] (.text line) c =
      if c = Str.toUpper token then - a else 0 := by
  have other : str "DEPOSIT" ≠ str "WITHDRAW" := by decide
  simp only [fundsMoved, ok, true_and, command, if_neg other, if_true, amount,
    Option.getD_some, eq_comm]

end Server

namespace System

/-- The invariant of serial runs over exact numbers. -/
structure Sound (s : System ℚ) : Prop where
  sane : Sane s.server []
  sessions : ∀ sid, Server.SessionUser s.server.userStore (s.sessions sid)

/-- How a message ends. -/
inductive MessageEnd (env : Env ℚ) (s : System ℚ) (sid : Nat) (now : Int) (data : Str) (reply : Reply) :
    System ℚ → Prop
  | quiet {store : UserStore ℚ} {nextId : Nat} {u : Str} (later : s.server.nextId ≤ nextId)
    (users : ∀ v, s.server.userStore.userExists v → store.userExists v)
    (same : store.ledger = s.server.userStore.ledger) (session : Server.SessionUser store u)
    (moved : Server.fundsMoved env (Server.tokenise data) reply = 0) :
    MessageEnd env s sid now data reply
      ⟨{ s.server with userStore := store, nextId }, Function.update s.sessions sid u⟩
  | placed {store : UserStore ℚ} {o : OrderBookEntry ℚ} {c : Str}
    (loggedIn : s.sessions sid ≠ []) (owner : o.username = s.sessions sid)
    (id : o.id = s.server.nextId) (open' : o.orderType ≠ .sale) (token : o.reservedToken = some c)
    (nonneg : 0 ≤ o.need) (enough : o.need ≤ s.server.userStore.available o.username c)
    (locked : store.ledger = s.server.userStore.ledger.lock o.username c o.need)
    (within : UserStore.Within [o.username] s.server.userStore store)
    (moved : Server.fundsMoved env (Server.tokenise data) reply = 0) :
    MessageEnd env s sid now data reply
      ⟨(({ s.server with userStore := store, nextId := s.server.nextId + 1 } : Server ℚ).insertOrder
        o).startMatchingProduct o.product, s.sessions⟩
  | cancelled {store : UserStore ℚ} {o : OrderBookEntry ℚ} {c : Str}
    (inBook : o ∈ s.server.orderBook.getAllOrders) (owner : o.username = s.sessions sid)
    (user : o.username ≠ defaultUser) (token : o.reservedToken = some c)
    (unlocked : store.ledger = s.server.userStore.ledger.unlock o.username c o.need)
    (within : UserStore.Within [o.username] s.server.userStore store)
    (moved : Server.fundsMoved env (Server.tokenise data) reply = 0) :
    MessageEnd env s sid now data reply
      ⟨(({ s.server with userStore := store } : Server ℚ).removeOrderById o.username o.id).2, s.sessions⟩
  | deposited {store : UserStore ℚ} {c : Str} {a : ℚ} (user : s.sessions sid ≠ defaultUser)
    (known : s.server.userStore.userExists (s.sessions sid)) (nonneg : 0 ≤ a)
    (credited : store.ledger = s.server.userStore.ledger.credit (s.sessions sid) c a)
    (within : UserStore.Within [s.sessions sid] s.server.userStore store)
    (moved : ∀ d, Server.fundsMoved env (Server.tokenise data) reply d = if d = c then a else 0) :
    MessageEnd env s sid now data reply ⟨{ s.server with userStore := store }, s.sessions⟩
  | withdrew {store : UserStore ℚ} {c : Str} {a : ℚ} (user : s.sessions sid ≠ defaultUser)
    (known : s.server.userStore.userExists (s.sessions sid)) (nonneg : 0 ≤ a)
    (enough : a ≤ s.server.userStore.available (s.sessions sid) c)
    (debited : store.ledger = s.server.userStore.ledger.debit (s.sessions sid) c a)
    (within : UserStore.Within [s.sessions sid] s.server.userStore store)
    (moved : ∀ d, Server.fundsMoved env (Server.tokenise data) reply d = if d = c then - a else 0) :
    MessageEnd env s sid now data reply ⟨{ s.server with userStore := store }, s.sessions⟩

section Message

variable {env : Env ℚ} {s : System ℚ} {sid : Nat} {now : Int} {data : Str}

private theorem quiet_same (sound : Sound s) (reply : Reply)
    (moved : Server.fundsMoved env (Server.tokenise data) reply = 0) :
    MessageEnd env s sid now data reply ⟨s.server, Function.update s.sessions sid (s.sessions sid)⟩ :=
  .quiet le_rfl (fun _ known => known) rfl (sound.sessions sid) moved

theorem register_end (sound : Sound s)
    (command : Server.commandOf (Server.tokenise data) = str "REGISTER") :
    let r := s.server.handleRegister (s.sessions sid) (Server.tokenise data)
    MessageEnd env s sid now data r.2.2 ⟨r.1, Function.update s.sessions sid r.2.1⟩ := by
  have moved : ∀ reply, Server.fundsMoved env (Server.tokenise data) reply = 0 :=
    Server.fundsMoved_of_other (by rw [command]; decide)
  unfold Server.handleRegister
  split
  · split
    · exact quiet_same sound _ (moved _)
    rename_i user
    split
    · exact quiet_same sound _ (moved _)
    · refine .quiet le_rfl (fun v known => ?_) ?_ (Or.inr ⟨user, ?_⟩) (moved _)
      · exact (UserStore.userExists_emplace s.server.userStore _ v _).trans (by simp [known])
      · exact UserStore.ledger_of_wallet (UserStore.wallet_emplace _ _ _)
      · exact (UserStore.userExists_emplace s.server.userStore _ _ _).trans (by simp)
  · exact quiet_same sound _ (moved _)

theorem login_end (sound : Sound s)
    (command : Server.commandOf (Server.tokenise data) = str "LOGIN") :
    let r := s.server.handleLogin (s.sessions sid) (Server.tokenise data)
    MessageEnd env s sid now data r.2.2 ⟨r.1, Function.update s.sessions sid r.2.1⟩ := by
  have moved : ∀ reply, Server.fundsMoved env (Server.tokenise data) reply = 0 :=
    Server.fundsMoved_of_other (by rw [command]; decide)
  unfold Server.handleLogin
  split
  · split
    · exact quiet_same sound _ (moved _)
    rename_i user
    split
    · rename_i known
      split
      · exact .quiet le_rfl (fun _ known => known) rfl (Or.inr ⟨user, known⟩) (moved _)
      · exact quiet_same sound _ (moved _)
    · exact quiet_same sound _ (moved _)
  · exact quiet_same sound _ (moved _)

theorem order_end (sound : Sound s)
    (command : Server.commandOf (Server.tokenise data) = str "ASK" ∨
      Server.commandOf (Server.tokenise data) = str "BID") :
    let r := s.server.handleOrder env now (s.sessions sid) (Server.commandOf (Server.tokenise data))
      (Server.tokenise data)
    MessageEnd env s sid now data r.2 ⟨r.1, Function.update s.sessions sid (s.sessions sid)⟩ := by
  have moved : ∀ reply, Server.fundsMoved env (Server.tokenise data) reply = 0 :=
    Server.fundsMoved_of_other (by rcases command with is | is <;> rw [is] <;> decide)
  have session := sound.sessions sid
  have ends := Server.admitOrder_end env now (Server.commandOf (Server.tokenise data))
    (Server.tokenise data) session
  unfold Server.handleOrder
  generalize s.server.admitOrder env now (s.sessions sid) (Server.commandOf (Server.tokenise data))
    (Server.tokenise data) = r at ends ⊢
  obtain ⟨srv, stop⟩ := r
  cases ends with
  | stopped reply later within same =>
    exact .quiet later (fun v known => within.known known) same
      (session.mono fun known => within.known known) (moved _)
  | admitted loggedIn owner id open' time token nonneg enough locked within =>
    rw [Function.update_eq_self]
    rw [← owner] at enough locked within
    exact .placed loggedIn owner id open' token nonneg enough locked within (moved _)

theorem cancel_end (sound : Sound s)
    (command : Server.commandOf (Server.tokenise data) = str "CANCEL") :
    let r := s.server.handleCancel (s.sessions sid) (Server.tokenise data)
    MessageEnd env s sid now data r.2 ⟨r.1, Function.update s.sessions sid (s.sessions sid)⟩ := by
  have moved : ∀ reply, Server.fundsMoved env (Server.tokenise data) reply = 0 :=
    Server.fundsMoved_of_other (by rw [command]; decide)
  unfold Server.handleCancel
  split
  · exact quiet_same sound _ (moved _)
  rename_i o found
  obtain ⟨loggedIn, inBook, owner⟩ :=
    Server.findOwnOrder_eq sound.sane.indexed (sound.sessions sid) found
  obtain ⟨user, known⟩ := (sound.sessions sid).known loggedIn
  obtain ⟨c, token⟩ := Option.isSome_iff_exists.mp
    (sound.sane.admitted o inBook (by rw [owner]; exact user)).token
  obtain ⟨store, ran, unlocked, within⟩ := Server.cancelFunds_of_token known token
  rw [ran, Function.update_eq_self]
  dsimp only
  rw [← owner] at unlocked within user ⊢
  split
  all_goals
    rename_i removed
    obtain rfl := congrArg Prod.snd removed
    exact .cancelled inBook owner user token unlocked within (moved _)

theorem funds_end (sound : Sound s)
    (command : Server.commandOf (Server.tokenise data) = str "DEPOSIT" ∨
      Server.commandOf (Server.tokenise data) = str "WITHDRAW") :
    let r := s.server.handleFunds env (s.sessions sid) (Server.commandOf (Server.tokenise data))
      (Server.tokenise data)
    MessageEnd env s sid now data r.2 ⟨r.1, Function.update s.sessions sid (s.sessions sid)⟩ := by
  have session := sound.sessions sid
  have ends := Server.handleFunds_end env (Server.commandOf (Server.tokenise data))
    (Server.tokenise data) session
  generalize s.server.handleFunds env (s.sessions sid) (Server.commandOf (Server.tokenise data))
    (Server.tokenise data) = r at ends ⊢
  obtain ⟨srv, reply⟩ := r
  cases ends with
  | refused rest same within =>
    exact .quiet le_rfl (fun v known => within.known known) same
      (session.mono fun known => within.known known) (Server.fundsMoved_of_err rest)
  | deposited loggedIn is other amount nonneg credited within =>
    obtain ⟨user, known⟩ := session.known loggedIn
    rw [Function.update_eq_self]
    refine .deposited user known nonneg credited within fun d => ?_
    have deposit := command.resolve_right other
    rw [is] at deposit ⊢
    exact Server.fundsMoved_of_deposited deposit amount rfl d
  | withdrew loggedIn is same amount nonneg enough debited within =>
    obtain ⟨user, known⟩ := session.known loggedIn
    rw [Function.update_eq_self]
    refine .withdrew user known nonneg enough debited within fun d => ?_
    rw [is] at same ⊢
    exact Server.fundsMoved_of_withdrew same amount rfl d

/-- Every message ends in one of these ways. -/
theorem message_end (env : Env ℚ) (sound : Sound s) (sid : Nat) (now : Int) (data : Str) :
    MessageEnd env s sid now data (replyTo env s sid now data)
      (step env s (.message sid now data)) := by
  unfold step replyTo
  exact Server.handleMessage_cases
    (motive := fun r => MessageEnd env s sid now data r.2.2
      ⟨r.1, Function.update s.sessions sid r.2.1⟩)
    (register_end sound) (login_end sound) (order_end sound) (cancel_end sound) (funds_end sound)
    (fun _ notFunds _ reply => quiet_same sound reply (Server.fundsMoved_of_other notFunds reply))

end Message

end System

end MiniATS
