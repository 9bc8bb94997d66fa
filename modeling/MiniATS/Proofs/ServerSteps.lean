import MiniATS.Proofs.Pass
import MiniATS.Server.ServerMain

/-!
# What the pieces of a command do

One lemma for each piece of `handleClient` that takes a lock, in terms of the balances and the
lists: `admitOrder`, `findOwnOrder`, `cancelFunds`, `deposit` and `withdraw`. The session's user
is empty or is a user of the store other than `default` (`SessionUser`).
-/

namespace MiniATS

open Ledger OrderBookEntry

namespace Server

/-- What a session's username can be: empty, or that of a user who is not `default`. -/
def SessionUser (store : UserStore ℚ) (u : Str) : Prop :=
  u = [] ∨ u ≠ defaultUser ∧ store.userExists u

theorem SessionUser.known {store : UserStore ℚ} {u : Str} (session : SessionUser store u)
    (loggedIn : u ≠ []) : u ≠ defaultUser ∧ store.userExists u :=
  session.resolve_left loggedIn

theorem SessionUser.mono {store store' : UserStore ℚ} {u : Str} (session : SessionUser store u)
    (users : store.userExists u → store'.userExists u) : SessionUser store' u :=
  session.imp_right fun both => ⟨both.1, users both.2⟩

variable {env : Env ℚ} {now : Int} {srv : Server ℚ} {u command : Str} {tokens : List Str}

/-- The end of the first part of `ASK` and `BID`: the command is over and no balance has changed,
or there is an order whose need has been locked. -/
inductive AdmitEnd (env : Env ℚ) (now : Int) (srv : Server ℚ) (u : Str) :
    Server ℚ → Reply ⊕ OrderBookEntry ℚ → Prop
  | stopped {store : UserStore ℚ} {nextId : Nat} (reply : Reply) (later : srv.nextId ≤ nextId)
    (within : UserStore.Within [u] srv.userStore store) (same : store.ledger = srv.userStore.ledger) :
    AdmitEnd env now srv u { srv with userStore := store, nextId } (.inl reply)
  | admitted {store : UserStore ℚ} {o : OrderBookEntry ℚ} {c : Str}
    (loggedIn : u ≠ []) (owner : o.username = u) (id : o.id = srv.nextId)
    (open' : o.orderType ≠ .sale) (time : o.timestamp = getCurrentTimestamp env now)
    (token : o.reservedToken = some c) (nonneg : 0 ≤ o.need)
    (enough : o.need ≤ srv.userStore.available u c)
    (locked : store.ledger = srv.userStore.ledger.lock u c o.need)
    (within : UserStore.Within [u] srv.userStore store) :
    AdmitEnd env now srv u { srv with userStore := store, nextId := srv.nextId + 1 } (.inr o)

theorem reserveFunds_end (loggedIn : u ≠ []) (known : srv.userStore.userExists u)
    {o : OrderBookEntry ℚ} (owner : o.username = u) (id : o.id = srv.nextId)
    (open' : o.orderType ≠ .sale) (time : o.timestamp = getCurrentTimestamp env now) :
    AdmitEnd env now srv u (reserveFunds { srv with nextId := srv.nextId + 1 } u command o).1
      (reserveFunds { srv with nextId := srv.nextId + 1 } u command o).2 := by
  simp only [reserveFunds, UserStore.getUser_of_known known]
  cases ran : srv.userStore.fulfillOrder u o with
  | error e =>
    dsimp only
    exact .stopped _ (Nat.le_succ _) (UserStore.Within.refl _ _) rfl
  | ok r =>
    obtain ⟨fulfilled, store⟩ := r
    obtain ⟨c, token, nonneg, enough, locked, within⟩ := UserStore.fulfillOrder_ok known open' ran
    cases fulfilled with
    | false =>
      dsimp only
      refine .stopped _ (Nat.le_succ _) within ?_
      rw [locked]
      exact if_neg (of_decide_eq_false enough.symm)
    | true =>
      dsimp only
      exact .admitted loggedIn owner id open' time token nonneg (of_decide_eq_true enough.symm)
        locked within

theorem admitOrder_end (env : Env ℚ) (now : Int) (command : Str) (tokens : List Str)
    (session : SessionUser srv.userStore u) :
    AdmitEnd env now srv u (srv.admitOrder env now u command tokens).1
      (srv.admitOrder env now u command tokens).2 := by
  have stop : ∀ reply : Reply, AdmitEnd env now srv u srv (.inl reply) :=
    fun reply => .stopped reply le_rfl (UserStore.Within.refl _ _) rfl
  unfold admitOrder
  split
  · exact stop _
  rename_i loggedIn
  obtain ⟨-, known⟩ := session.known loggedIn
  split
  · split
    · dsimp only [OrderBookEntry.make]
      have open' : (if command = str "ASK" then OrderBookType.ask else OrderBookType.bid) ≠ .sale := by
        split <;> simp
      generalize (if command = str "ASK" then OrderBookType.ask else OrderBookType.bid) = type at open' ⊢
      apply reserveFunds_end loggedIn known
      · rfl
      · rfl
      · exact open'
      · dsimp only
    · exact stop _
  · exact stop _

/-- The order that `CANCEL` copies is one of the user's open orders, with the id asked for. -/
theorem findOwnOrder_mem {srv : Server ℚ} (mirrored : srv.orderBook.Mirrored) (user : u ≠ defaultUser)
    {o : OrderBookEntry ℚ} (found : srv.findOwnOrder u tokens = .inr o) :
    u ≠ [] ∧ o ∈ srv.orderBook.getAllOrders ∧ o.username = u := by
  unfold findOwnOrder at found
  split at found
  · cases found
  rename_i loggedIn
  split at found
  · split at found
    · cases found
    · split at found
      · cases found
      · rename_i order match'
        obtain rfl := Sum.inr.inj found
        have listed := List.mem_of_find?_eq_some match'
        exact ⟨loggedIn, (OrderBook.mem_getOrdersForUser mirrored user).mp listed⟩
  · cases found

theorem findOwnOrder_eq {srv : Server ℚ} (indexed : srv.orderBook.Indexed)
    (session : SessionUser srv.userStore u) {o : OrderBookEntry ℚ}
    (found : srv.findOwnOrder u tokens = .inr o) :
    u ≠ [] ∧ o ∈ srv.orderBook.getAllOrders ∧ o.username = u := by
  refine findOwnOrder_mem indexed.toMirrored ?_ found
  rcases session with rfl | ⟨user, -⟩
  · decide
  · exact user

/-- `CANCEL`'s unlocking of an order that reserves a token. -/
theorem cancelFunds_of_token (known : srv.userStore.userExists u) {o : OrderBookEntry ℚ} {c : Str}
    (token : o.reservedToken = some c) :
    ∃ store, srv.cancelFunds u o =
        .ok (decide (o.need ≤ srv.userStore.locked u c), { srv with userStore := store }) ∧
      store.ledger = srv.userStore.ledger.unlock u c o.need ∧
      UserStore.Within [u] srv.userStore store := by
  obtain ⟨store, ran, ledger, within⟩ := UserStore.cancelOrder_of_token known token
  exact ⟨store, by simp only [cancelFunds, UserStore.getUser_of_known known, ran], ledger, within⟩

/-- The end of `DEPOSIT` and `WITHDRAW`: an error text and no change of the balances, or the
amount has been moved. -/
inductive FundsEnd (env : Env ℚ) (srv : Server ℚ) (u command : Str) (tokens : List Str) :
    Server ℚ → Reply → Prop
  | refused {store : UserStore ℚ} (rest : Str) (same : store.ledger = srv.userStore.ledger)
    (within : UserStore.Within [u] srv.userStore store) :
    FundsEnd env srv u command tokens { srv with userStore := store } (.text (str "ERR" ++ rest))
  | deposited {store : UserStore ℚ} {first token amountStr : Str} {a : ℚ}
    (loggedIn : u ≠ []) (is : tokens = [first, token, amountStr]) (other : command ≠ str "WITHDRAW")
    (amount : env.stod amountStr = some a) (nonneg : 0 ≤ a)
    (credited : store.ledger = srv.userStore.ledger.credit u (Str.toUpper token) a)
    (within : UserStore.Within [u] srv.userStore store) :
    FundsEnd env srv u command tokens { srv with userStore := store }
      (.text (str "OK Deposited " ++ env.toString a ++ [32] ++ Str.toUpper token))
  | withdrew {store : UserStore ℚ} {first token amountStr : Str} {a : ℚ}
    (loggedIn : u ≠ []) (is : tokens = [first, token, amountStr]) (same : command = str "WITHDRAW")
    (amount : env.stod amountStr = some a) (nonneg : 0 ≤ a)
    (enough : a ≤ srv.userStore.available u (Str.toUpper token))
    (debited : store.ledger = srv.userStore.ledger.debit u (Str.toUpper token) a)
    (within : UserStore.Within [u] srv.userStore store) :
    FundsEnd env srv u command tokens { srv with userStore := store }
      (.text (str "OK Withdrew " ++ env.toString a ++ [32] ++ Str.toUpper token))

theorem handleFunds_end (env : Env ℚ) (command : Str) (tokens : List Str)
    (session : SessionUser srv.userStore u) :
    FundsEnd env srv u command tokens (srv.handleFunds env u command tokens).1
      (srv.handleFunds env u command tokens).2 := by
  have refuse : ∀ rest : Str, FundsEnd env srv u command tokens srv (.text (str "ERR" ++ rest)) :=
    fun rest => .refused rest rfl (UserStore.Within.refl _ _)
  unfold handleFunds
  split
  · exact refuse (str " Login required")
  rename_i loggedIn
  obtain ⟨-, known⟩ := session.known loggedIn
  split
  swap
  · exact refuse (str " Invalid " ++ command ++ str " command")
  rename_i first token amountStr
  dsimp only
  cases amount : env.stod amountStr with
  | none => exact refuse (str " Invalid amount")
  | some a =>
    dsimp only
    by_cases isWithdraw : command = str "WITHDRAW"
    · rw [if_pos isWithdraw]
      simp only [withdraw, UserStore.getUser_of_known known]
      cases ran : srv.userStore.removeCurrency u (Str.toUpper token) a with
      | error e => exact refuse (str " Invalid amount")
      | ok r =>
        obtain ⟨removed, store⟩ := r
        obtain ⟨nonneg, enough, debited, within⟩ := UserStore.removeCurrency_ok known _ _ ran
        cases removed with
        | false =>
          refine .refused (str " Insufficient funds") ?_ within
          rw [debited]
          exact if_neg (of_decide_eq_false enough.symm)
        | true =>
          exact .withdrew loggedIn rfl isWithdraw amount (not_lt.mp nonneg) (of_decide_eq_true enough.symm)
            debited within
    · rw [if_neg isWithdraw]
      simp only [deposit, UserStore.getUser_of_known known]
      rcases lt_or_ge a 0 with negative | nonneg
      · simp only [UserStore.insertCurrency_of_neg _ _ _ negative]
        exact refuse (str " Invalid amount")
      · obtain ⟨store, ran, credited, within⟩ :=
          UserStore.insertCurrency_of_nonneg known (Str.toUpper token) (not_lt.mpr nonneg)
        simp only [ran]
        exact .deposited loggedIn rfl isWithdraw amount nonneg credited within

end Server

end MiniATS
