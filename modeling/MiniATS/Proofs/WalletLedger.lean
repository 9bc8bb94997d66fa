import MiniATS.Proofs.Reservation

/-!
# Wallets as a ledger

The balances of a user store are a `Ledger`, and every wallet method acts on it as the ledger
operation of the same purpose: `insertCurrency` credits, `removeCurrency` debits,
`lockCurrency` locks, `unlockCurrency` unlocks and `spendLocked` spends. This holds for any
numbers; what an order needs and what a list claims is counted in rationals.
-/

namespace MiniATS

open Ledger

namespace Wallet

variable {R : Type} [Zero R] [LT R] [LE R] [DecidableLT R] [DecidableLE R] (w : Wallet R) (type : Str)
  (amount : R)

omit [LE R] [DecidableLE R] in
theorem insertCurrency_eq [Add R] : w.insertCurrency type amount =
    if amount < 0 then .error negativeAmount
    else .ok ⟨w.currencies.insert type (w.available type + amount), w.locked⟩ := rfl

/-- `containsAmmount` compares with the balance, a missing currency counting as zero. -/
theorem containsAmmount_eq : w.containsAmmount type amount =
    if amount < 0 then .error negativeAmount else .ok (decide (amount ≤ w.available type)) := by
  unfold containsAmmount available
  split
  · rfl
  · cases found : w.currencies.lookup type <;> simp [KeyedMap.get, found]

theorem lockCurrency_eq [Add R] [Sub R] : w.lockCurrency type amount =
    if amount < 0 then .error negativeAmount
    else if amount ≤ w.available type then
      .ok (true, ⟨w.currencies.insert type (w.available type - amount),
        w.locked.insert type (w.lockedIn type + amount)⟩)
    else .ok (false, w) := by
  unfold lockCurrency
  rw [containsAmmount_eq]
  by_cases negative : amount < 0
  · simp [negative]
  · simp only [negative, if_false]
    by_cases enough : amount ≤ w.available type
    · simp only [enough, decide_true, if_true]
      rfl
    · simp only [enough, decide_false, if_false]

theorem removeCurrency_eq [Sub R] : w.removeCurrency type amount =
    if amount < 0 then .error negativeAmount
    else if amount ≤ w.available type then
      .ok (true, ⟨w.currencies.insert type (w.available type - amount), w.locked⟩)
    else .ok (false, w) := by
  unfold removeCurrency
  rw [containsAmmount_eq]
  by_cases negative : amount < 0
  · simp [negative]
  · simp only [negative, if_false]
    by_cases enough : amount ≤ w.available type
    · simp only [enough, decide_true, if_true]
      rfl
    · simp only [enough, decide_false, if_false]

@[simp] theorem available_empty : (Wallet.empty : Wallet ℚ).available type = 0 := by
  simp [empty, available]

@[simp] theorem lockedIn_empty : (Wallet.empty : Wallet ℚ).lockedIn type = 0 := by
  simp [empty, lockedIn]

omit [LT R] [LE R] [DecidableLT R] [DecidableLE R] in
/-- Reading a balance with `operator[]` does not change it. -/
theorem get_touch (m : KeyedMap Str R) (type c : Str) :
    (touch m type).get c 0 = m.get c 0 := by
  rw [touch, KeyedMap.get_insert]
  split
  · subst_vars
    rfl
  · rfl

end Wallet

namespace UserStore

section Users

variable {R : Type} (store : UserStore R) (u v : Str)

/-- The name a user object carries is its key. -/
theorem getUsername_eq : store.getUsername u = u := by
  unfold getUsername
  split
  · exact store.named u _ ‹_›
  · rfl

@[simp] theorem userExists_put (user : User R) (same : user.username = u) :
    (store.put u user same).userExists v = (decide (v = u) || store.userExists v) := by
  simp only [userExists, put, KeyedMap.lookup_insert_eq]
  split <;> simp_all

theorem wallet_put (user : User R) (same : user.username = u) :
    (store.put u user same).wallet v = if v = u then user.wallet else store.wallet v := by
  simp only [wallet, put, KeyedMap.lookup_insert_eq]
  by_cases here : v = u
  · simp [here]
  · simp [here]

variable {store u} [Zero R]

/-- Adding a user changes nobody's balances: a user who is not there counts as having none. -/
theorem wallet_emplace (store : UserStore R) (u password : Str) :
    (store.emplace u password).wallet = store.wallet := by
  funext v
  unfold emplace
  split
  · rfl
  · rename_i missing
    rw [wallet_put]
    split
    · subst_vars
      simp [wallet, missing]
    · rfl

theorem userExists_emplace (store : UserStore R) (u v password : Str) :
    (store.emplace u password).userExists v = (decide (v = u) || store.userExists v) := by
  unfold emplace
  split
  · by_cases same : v = u
    · subst same
      simp [userExists, ‹store.users.lookup v = some _›]
    · simp [same]
  · rw [userExists_put]

omit [Zero R] in
theorem setWallet_eq_put {user : User R} (found : store.users.lookup u = some user) (w : Wallet R) :
    store.setWallet u w =
      store.put u { user with wallet := w } (store.named u user found) := by
  unfold setWallet
  split
  · rename_i user' found'
    obtain rfl : user' = user := Option.some.inj (found'.symm.trans found)
    rfl
  · simp_all

omit [Zero R] in
@[simp] theorem userExists_setWallet (store : UserStore R) (u v : Str) (w : Wallet R) :
    (store.setWallet u w).userExists v = store.userExists v := by
  cases found : store.users.lookup u with
  | none =>
    have same : store.setWallet u w = store := by
      unfold setWallet
      split <;> simp_all
    rw [same]
  | some user =>
    rw [setWallet_eq_put found, userExists_put]
    by_cases same : v = u
    · subst same
      simp [userExists, found]
    · simp [same]

omit [Zero R] in
theorem wallet_setWallet (known : store.userExists u) (w : Wallet R) (v : Str) :
    (store.setWallet u w).wallet v = if v = u then w else store.wallet v := by
  obtain ⟨user, found⟩ := Option.isSome_iff_exists.mp known
  rw [setWallet_eq_put found, wallet_put]

omit [Zero R] in
/-- Changing one user's wallet leaves the others'. -/
theorem wallet_setWallet_of_ne (store : UserStore R) (w : Wallet R) {u v : Str} (other : v ≠ u) :
    (store.setWallet u w).wallet v = store.wallet v := by
  by_cases known : store.userExists u
  · rw [wallet_setWallet known, if_neg other]
  · have missing : store.users.lookup u = none := by
      simpa [userExists] using known
    unfold setWallet
    split <;> simp_all

theorem getUser_of_known (known : store.userExists u) : store.getUser u = .ok store := by
  obtain ⟨user, found⟩ := Option.isSome_iff_exists.mp known
  simp [getUser, found]

theorem getUser_of_unknown (unknown : store.userExists u = false) (other : u ≠ defaultUser) :
    store.getUser u = .error (userNotFound u) := by
  have missing : store.users.lookup u = none := by
    simpa [userExists] using unknown
  simp [getUser, missing, other]

/-- `getUser` finds the user or creates `default`: the user is there afterwards, nobody else
appears, and all wallets are as before. -/
theorem getUser_ok {store' : UserStore R} (found : store.getUser u = .ok store') :
    store'.userExists u ∧ (∀ v, store'.userExists v = (decide (v = u) || store.userExists v)) ∧
      store'.wallet = store.wallet := by
  by_cases known : store.userExists u
  · rw [getUser_of_known known] at found
    obtain rfl := Except.ok.inj found
    refine ⟨known, fun v => ?_, rfl⟩
    by_cases same : v = u <;> simp [same, known]
  · have missing : store.users.lookup u = none := by
      simpa [userExists] using known
    simp only [getUser, missing] at found
    split at found
    · obtain rfl := Except.ok.inj found
      exact ⟨by simp [userExists_emplace], fun v => userExists_emplace _ _ _ _,
        wallet_emplace _ _ _⟩
    · cases found

theorem getUser_error {e : Exn} (missing : store.getUser u = .error e) :
    store.userExists u = false ∧ u ≠ defaultUser ∧ e = userNotFound u := by
  by_cases known : store.userExists u
  · rw [getUser_of_known known] at missing
    cases missing
  · have lookup : store.users.lookup u = none := by
      simpa [userExists] using known
    simp only [getUser, lookup] at missing
    split at missing
    · cases missing
    · exact ⟨by simpa using known, ‹_›, (Except.error.inj missing).symm⟩

end Users

variable {R : Type} [Zero R] (store : UserStore R) (u v : Str)

/-- The balances of a store. -/
def ledger (store : UserStore R) : Ledger Str Str R := ⟨store.available, store.locked⟩

@[simp] theorem ledger_available : store.ledger.available = store.available := rfl

@[simp] theorem ledger_locked : store.ledger.locked = store.locked := rfl

theorem balances_of_ledger {store : UserStore R} {l : Ledger Str Str R} (same : store.ledger = l)
    (u c : Str) : store.available u c = l.available u c ∧ store.locked u c = l.locked u c := by
  subst same
  exact ⟨rfl, rfl⟩

theorem ledger_of_wallet {store store' : UserStore R} (same : store'.wallet = store.wallet) :
    store'.ledger = store.ledger := by
  simp only [ledger, Ledger.mk.injEq]
  exact ⟨by funext v c; simp [available, same], by funext v c; simp [locked, same]⟩

/-- Only the wallets of the users in `touched` differ between two stores. -/
structure Within (touched : List Str) (store store' : UserStore R) : Prop where
  users : ∀ v, store'.userExists v = store.userExists v
  wallets : ∀ v, v ∉ touched → store'.wallet v = store.wallet v

omit [Zero R] in
theorem Within.refl (touched : List Str) (store : UserStore R) : Within touched store store :=
  ⟨fun _ => rfl, fun _ _ => rfl⟩

omit [Zero R] in
theorem Within.trans {touched : List Str} {store store' store'' : UserStore R}
    (first : Within touched store store') (second : Within touched store' store'') :
    Within touched store store'' :=
  ⟨fun v => (second.users v).trans (first.users v),
    fun v out => (second.wallets v out).trans (first.wallets v out)⟩

omit [Zero R] in
theorem Within.mono {touched touched' : List Str} {store store' : UserStore R} (more : touched ⊆ touched')
    (within : Within touched store store') : Within touched' store store' :=
  ⟨within.users, fun v out => within.wallets v fun member => out (more member)⟩

omit [Zero R] in
theorem Within.known {touched : List Str} {store store' : UserStore R}
    (within : Within touched store store') {v : Str} (known : store.userExists v) :
    store'.userExists v := by
  rw [within.users]
  exact known

omit [Zero R] in
theorem setWallet_within {touched : List Str} {u : Str} (member : u ∈ touched)
    (store : UserStore R) (w : Wallet R) : Within touched store (store.setWallet u w) := by
  refine ⟨fun v => userExists_setWallet store u v w, fun v out => wallet_setWallet_of_ne store w ?_⟩
  rintro rfl
  exact out member

/-- What a store's balances become when one wallet is replaced. -/
private theorem ledger_setWallet {store : UserStore R} {u : Str} (known : store.userExists u)
    {w : Wallet R} {l : Ledger Str Str R}
    (own : ∀ c, w.available c = l.available u c ∧ w.lockedIn c = l.locked u c)
    (others : ∀ v, v ≠ u → ∀ c, l.available v c = store.available v c ∧
      l.locked v c = store.locked v c) :
    (store.setWallet u w).ledger = l := by
  ext v c
  · simp only [ledger_available, available, wallet_setWallet known]
    split
    · subst_vars
      exact (own c).1
    · exact (others v ‹_› c).1.symm
  · simp only [ledger_locked, locked, wallet_setWallet known]
    split
    · subst_vars
      exact (own c).2
    · exact (others v ‹_› c).2.symm

section Methods

variable [LT R] [LE R] [DecidableLT R] [DecidableLE R] [Add R] [Sub R] {store u}
  (known : store.userExists u) (type : Str) (amount : R)

omit [LE R] [DecidableLE R] [Sub R] in
theorem insertCurrency_of_neg (store : UserStore R) (u type : Str) {amount : R}
    (negative : amount < 0) :
    store.insertCurrency u type amount = .error Wallet.negativeAmount := by
  simp [insertCurrency, Wallet.insertCurrency_eq, negative]

include known

omit [LE R] [DecidableLE R] [Sub R] in
theorem insertCurrency_of_nonneg {amount : R} (nonneg : ¬ amount < 0) :
    ∃ store', store.insertCurrency u type amount = .ok store' ∧
      store'.ledger = store.ledger.credit u type amount ∧ Within [u] store store' := by
  let w : Wallet R :=
    ⟨(store.wallet u).currencies.insert type ((store.wallet u).available type + amount),
      (store.wallet u).locked⟩
  have ran : (store.wallet u).insertCurrency type amount = .ok w := by
    rw [Wallet.insertCurrency_eq, if_neg nonneg]
  refine ⟨store.setWallet u w, by simp only [insertCurrency, ran], ?_,
    setWallet_within (by simp) _ _⟩
  refine ledger_setWallet known (fun c => ⟨?_, rfl⟩) (fun v other c => ⟨?_, rfl⟩)
  · by_cases same : c = type <;>
      simp [w, Wallet.available, KeyedMap.get_insert, credit, replace, same, available]
  · exact congrFun (replace_of_ne _ other _ _) c

omit [Add R] in
theorem removeCurrency_ok {store' : UserStore R} {removed : Bool}
    (ran : store.removeCurrency u type amount = .ok (removed, store')) :
    ¬ amount < 0 ∧ removed = decide (amount ≤ store.available u type) ∧
      store'.ledger = store.ledger.debit u type amount ∧ Within [u] store store' := by
  simp only [removeCurrency, Wallet.removeCurrency_eq] at ran
  by_cases negative : amount < 0
  · simp [negative] at ran
  by_cases enough : amount ≤ (store.wallet u).available type
  · have enough' : amount ≤ store.ledger.available u type := enough
    simp only [negative, enough, if_true, if_false, Except.ok.injEq, Prod.mk.injEq] at ran
    obtain ⟨rfl, rfl⟩ := ran
    refine ⟨negative, (decide_eq_true enough).symm, ?_, setWallet_within (by simp) _ _⟩
    rw [debit, if_pos enough']
    refine ledger_setWallet known (fun c => ⟨?_, rfl⟩) (fun v other c => ⟨?_, rfl⟩)
    · by_cases same : c = type <;>
        simp [Wallet.available, KeyedMap.get_insert, replace, same, available]
    · exact congrFun (replace_of_ne _ other _ _) c
  · have short : ¬ amount ≤ store.ledger.available u type := enough
    simp only [negative, enough, if_false, Except.ok.injEq, Prod.mk.injEq] at ran
    obtain ⟨rfl, rfl⟩ := ran
    refine ⟨negative, (decide_eq_false enough).symm, ?_, setWallet_within (by simp) _ _⟩
    rw [debit, if_neg short]
    exact ledger_setWallet known (fun c => ⟨rfl, rfl⟩) (fun v _ c => ⟨rfl, rfl⟩)

omit [LT R] [DecidableLT R] [Add R] in
theorem spendLocked_ledger :
    (store.spendLocked u type amount).1 = decide (amount ≤ store.locked u type) ∧
      (store.spendLocked u type amount).2.ledger = store.ledger.spend u type amount ∧
      Within [u] store (store.spendLocked u type amount).2 := by
  simp only [spendLocked, Wallet.spendLocked]
  by_cases enough : amount ≤ (store.wallet u).locked.get type 0
  · have enough' : amount ≤ store.ledger.locked u type := enough
    rw [if_pos enough, spend, if_pos enough']
    refine ⟨(decide_eq_true enough).symm, ?_, setWallet_within (by simp) _ _⟩
    refine ledger_setWallet known (fun c => ⟨rfl, ?_⟩) (fun v other c => ⟨rfl, ?_⟩)
    · by_cases same : c = type <;>
        simp [Wallet.lockedIn, KeyedMap.get_insert, replace, same, locked]
    · exact congrFun (replace_of_ne _ other _ _) c
  · have short : ¬ amount ≤ store.ledger.locked u type := enough
    rw [if_neg enough, spend, if_neg short]
    exact ⟨(decide_eq_false enough).symm, ledger_setWallet known
      (fun c => ⟨rfl, Wallet.get_touch _ _ _⟩) (fun v _ c => ⟨rfl, rfl⟩),
      setWallet_within (by simp) _ _⟩

omit [LT R] [DecidableLT R] in
/-- The effect of `unlockCurrency` on any wallet that is put back into the store. -/
private theorem setWallet_unlockCurrency :
    ((store.wallet u).unlockCurrency type amount).1 = decide (amount ≤ store.locked u type) ∧
      (store.setWallet u ((store.wallet u).unlockCurrency type amount).2).ledger =
        store.ledger.unlock u type amount := by
  unfold Wallet.unlockCurrency
  by_cases enough : amount ≤ (store.wallet u).locked.get type 0
  · have enough' : amount ≤ store.ledger.locked u type := enough
    rw [if_pos enough, unlock, if_pos enough']
    refine ⟨(decide_eq_true enough).symm, ?_⟩
    refine ledger_setWallet known (fun c => ?_) (fun v other c => ?_)
    · by_cases same : c = type <;>
        simp [Wallet.available, Wallet.lockedIn, KeyedMap.get_insert, replace, same, available, locked]
    · exact ⟨congrFun (replace_of_ne _ other _ _) c, congrFun (replace_of_ne _ other _ _) c⟩
  · have short : ¬ amount ≤ store.ledger.locked u type := enough
    rw [if_neg enough, unlock, if_neg short]
    exact ⟨(decide_eq_false enough).symm, ledger_setWallet known
      (fun c => ⟨rfl, Wallet.get_touch _ _ _⟩) (fun v _ c => ⟨rfl, rfl⟩)⟩

omit [LT R] [DecidableLT R] in
theorem unlockCurrency_ledger :
    (store.unlockCurrency u type amount).1 = decide (amount ≤ store.locked u type) ∧
      (store.unlockCurrency u type amount).2.ledger = store.ledger.unlock u type amount ∧
      Within [u] store (store.unlockCurrency u type amount).2 :=
  ⟨(setWallet_unlockCurrency known type amount).1, (setWallet_unlockCurrency known type amount).2,
    setWallet_within (by simp) _ _⟩

/-- The effect of `lockCurrency` on any wallet that is put back into the store. -/
private theorem setWallet_lockCurrency {w : Wallet R} {done : Bool}
    (ran : (store.wallet u).lockCurrency type amount = .ok (done, w)) :
    ¬ amount < 0 ∧ done = decide (amount ≤ store.available u type) ∧
      (store.setWallet u w).ledger = store.ledger.lock u type amount := by
  rw [Wallet.lockCurrency_eq] at ran
  by_cases negative : amount < 0
  · simp [negative] at ran
  by_cases enough : amount ≤ (store.wallet u).available type
  · have enough' : amount ≤ store.ledger.available u type := enough
    simp only [negative, enough, if_true, if_false, Except.ok.injEq, Prod.mk.injEq] at ran
    obtain ⟨rfl, rfl⟩ := ran
    refine ⟨negative, (decide_eq_true enough).symm, ?_⟩
    rw [lock, if_pos enough']
    refine ledger_setWallet known (fun c => ?_) (fun v other c => ?_)
    · by_cases same : c = type <;>
        simp [Wallet.available, Wallet.lockedIn, KeyedMap.get_insert, replace, same, available, locked]
    · exact ⟨congrFun (replace_of_ne _ other _ _) c, congrFun (replace_of_ne _ other _ _) c⟩
  · have short : ¬ amount ≤ store.ledger.available u type := enough
    simp only [negative, enough, if_false, Except.ok.injEq, Prod.mk.injEq] at ran
    obtain ⟨rfl, rfl⟩ := ran
    refine ⟨negative, (decide_eq_false enough).symm, ?_⟩
    rw [lock, if_neg short]
    exact ledger_setWallet known (fun c => ⟨rfl, rfl⟩) (fun v _ c => ⟨rfl, rfl⟩)

end Methods

section Orders

variable {store : UserStore ℚ} {u : Str} (known : store.userExists u)

include known

/-- `fulfillOrder` locks what the order needs, or leaves the balances when they are short. -/
theorem fulfillOrder_ok {store' : UserStore ℚ} {o : OrderBookEntry ℚ} {fulfilled : Bool}
    (open' : o.orderType ≠ .sale)
    (ran : store.fulfillOrder u o = .ok (fulfilled, store')) :
    ∃ c, o.reservedToken = some c ∧ 0 ≤ o.need ∧
      fulfilled = decide (o.need ≤ store.available u c) ∧
      store'.ledger = store.ledger.lock u c o.need ∧ Within [u] store store' := by
  simp only [fulfillOrder, Wallet.fulfillOrder] at ran
  unfold OrderBookEntry.reservedToken
  cases pair : CSVHandler.pairTokens Wallet.invalidProduct o.product with
  | error e => simp [pair] at ran
  | ok tokens =>
    obtain ⟨base, quote'⟩ := tokens
    simp only [pair] at ran
    cases type : o.orderType with
    | sale => exact absurd type open'
    | ask =>
      simp only [type] at ran
      cases locked : (store.wallet u).lockCurrency base o.amount with
      | error e => simp [locked] at ran
      | ok r =>
        simp only [locked, Except.ok.injEq, Prod.mk.injEq] at ran
        obtain ⟨rfl, rfl⟩ := ran
        rw [OrderBookEntry.need_of_ask type]
        obtain ⟨nonneg, enough, ledger⟩ := setWallet_lockCurrency known base o.amount locked
        exact ⟨base, rfl, not_lt.mp nonneg, enough, ledger, setWallet_within (by simp) _ _⟩
    | bid =>
      simp only [type] at ran
      cases locked : (store.wallet u).lockCurrency quote' (o.amount * o.price) with
      | error e => simp [locked] at ran
      | ok r =>
        simp only [locked, Except.ok.injEq, Prod.mk.injEq] at ran
        obtain ⟨rfl, rfl⟩ := ran
        rw [OrderBookEntry.need_of_bid type]
        obtain ⟨nonneg, enough, ledger⟩ :=
          setWallet_lockCurrency known quote' (o.amount * o.price) locked
        exact ⟨quote', rfl, not_lt.mp nonneg, enough, ledger, setWallet_within (by simp) _ _⟩

/-- `cancelOrder` unlocks what the order needs. -/
theorem cancelOrder_of_token {o : OrderBookEntry ℚ} {c : Str}
    (token : o.reservedToken = some c) :
    ∃ store', store.cancelOrder u o = .ok (decide (o.need ≤ store.locked u c), store') ∧
      store'.ledger = store.ledger.unlock u c o.need ∧ Within [u] store store' := by
  unfold OrderBookEntry.reservedToken at token
  cases pair : CSVHandler.pairTokens Wallet.invalidProduct o.product with
  | error e => simp [pair] at token
  | ok tokens =>
    obtain ⟨base, quote'⟩ := tokens
    cases type : o.orderType with
    | sale => simp [pair, type] at token
    | ask =>
      obtain rfl : base = c := by simpa [pair, type] using token
      obtain ⟨flag, ledger⟩ := setWallet_unlockCurrency known base o.amount
      rw [OrderBookEntry.need_of_ask type, ← flag]
      exact ⟨_, by simp only [cancelOrder, Wallet.cancelOrder, pair, type], ledger,
        setWallet_within (by simp) _ _⟩
    | bid =>
      obtain rfl : quote' = c := by simpa [pair, type] using token
      obtain ⟨flag, ledger⟩ := setWallet_unlockCurrency known quote' (o.amount * o.price)
      rw [OrderBookEntry.need_of_bid type, ← flag]
      exact ⟨_, by simp only [cancelOrder, Wallet.cancelOrder, pair, type], ledger,
        setWallet_within (by simp) _ _⟩

end Orders

end UserStore

end MiniATS
