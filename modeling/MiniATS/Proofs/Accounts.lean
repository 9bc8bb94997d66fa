import MiniATS.Proofs.WalletLedger
import MiniATS.Proofs.PassLists
import MiniATS.Server.ServerMain

/-!
# Passwords

The password of a user is set when the user is added and never changes: `emplace` keeps an
existing user, and everything else replaces wallets. This holds for any type of numbers.
-/

namespace MiniATS

variable {R : Type}

namespace UserStore

/-- The password stored for a username. -/
def passwordOf (store : UserStore R) (u : Str) : Option Str :=
  (store.users.lookup u).map (fun user => user.password)

theorem validatePassword_iff {store : UserStore R} {u p : Str} :
    store.validatePassword u p = true ↔ store.passwordOf u = some p := by
  unfold validatePassword passwordOf
  cases store.users.lookup u with
  | none => simp
  | some user => simp

theorem passwordOf_put (store : UserStore R) (u v : Str) (user : User R) (same : user.username = u) :
    (store.put u user same).passwordOf v = if v = u then some user.password else store.passwordOf v := by
  simp only [passwordOf, put, KeyedMap.lookup_insert_eq]
  split <;> rfl

@[simp] theorem passwordOf_setWallet (store : UserStore R) (u v : Str) (w : Wallet R) :
    (store.setWallet u w).passwordOf v = store.passwordOf v := by
  cases found : store.users.lookup u with
  | none =>
    unfold setWallet
    split
    · simp_all
    · rfl
  | some user =>
    rw [setWallet_eq_put found, passwordOf_put]
    split
    · subst_vars
      simp [passwordOf, found]
    · rfl

variable [Zero R]

/-- A new user gets the password, an existing one keeps the old. -/
theorem passwordOf_emplace (store : UserStore R) (u v password : Str) :
    (store.emplace u password).passwordOf v =
      if v = u then some ((store.passwordOf u).getD password) else store.passwordOf v := by
  unfold emplace
  split
  · split
    · subst_vars
      simp [passwordOf, ‹store.users.lookup v = some _›]
    · rfl
  · rw [passwordOf_put]
    simp [passwordOf, ‹store.users.lookup u = none›]

/-- The two stores have the same users with the same passwords, up to `default`. -/
def SameAccounts (store store' : UserStore R) : Prop :=
  ∀ v, v ≠ defaultUser → store'.passwordOf v = store.passwordOf v

omit [Zero R] in
theorem SameAccounts.refl (store : UserStore R) : SameAccounts store store := fun _ _ => rfl

omit [Zero R] in
theorem SameAccounts.trans {store store' store'' : UserStore R} (first : SameAccounts store store')
    (second : SameAccounts store' store'') : SameAccounts store store'' :=
  fun v user => (second v user).trans (first v user)

theorem getUser_accounts {store store' : UserStore R} {u : Str} (found : store.getUser u = .ok store') :
    SameAccounts store store' := by
  intro v user
  unfold getUser at found
  split at found
  · rw [Except.ok.inj found]
  · split at found
    · rename_i isDefault
      obtain rfl := Except.ok.inj found
      rw [passwordOf_emplace, if_neg (by rw [isDefault]; exact user)]
    · cases found

/-- `getUser` creates nobody but `default`. -/
theorem getUser_eq {store store' : UserStore R} {u : Str} (user : u ≠ defaultUser)
    (found : store.getUser u = .ok store') : store' = store := by
  unfold getUser at found
  split at found
  · exact (Except.ok.inj found).symm
  · rw [if_neg user] at found
    cases found

section Methods

variable [Add R] [Sub R] [Mul R] [LT R] [LE R] [DecidableLT R] [DecidableLE R]
  {store store' : UserStore R} {u : Str}

omit [Sub R] [Mul R] [LE R] [DecidableLE R] in
theorem insertCurrency_accounts {type : Str} {amount : R}
    (ran : store.insertCurrency u type amount = .ok store') (v : Str) :
    store'.passwordOf v = store.passwordOf v := by
  unfold insertCurrency at ran
  split at ran
  · cases ran
  · obtain rfl := Except.ok.inj ran
    exact passwordOf_setWallet _ _ _ _

omit [Add R] [Mul R] in
theorem removeCurrency_accounts {type : Str} {amount : R} {removed : Bool}
    (ran : store.removeCurrency u type amount = .ok (removed, store')) (v : Str) :
    store'.passwordOf v = store.passwordOf v := by
  unfold removeCurrency at ran
  split at ran
  · cases ran
  · obtain ⟨-, rfl⟩ := Prod.mk.inj (Except.ok.inj ran)
    exact passwordOf_setWallet _ _ _ _

theorem fulfillOrder_accounts {o : OrderBookEntry R} {fulfilled : Bool}
    (ran : store.fulfillOrder u o = .ok (fulfilled, store')) (v : Str) :
    store'.passwordOf v = store.passwordOf v := by
  unfold fulfillOrder at ran
  split at ran
  · cases ran
  · obtain ⟨-, rfl⟩ := Prod.mk.inj (Except.ok.inj ran)
    exact passwordOf_setWallet _ _ _ _

omit [LT R] [DecidableLT R] in
theorem cancelOrder_accounts {o : OrderBookEntry R} {unlocked : Bool}
    (ran : store.cancelOrder u o = .ok (unlocked, store')) (v : Str) :
    store'.passwordOf v = store.passwordOf v := by
  unfold cancelOrder at ran
  split at ran
  · cases ran
  · obtain ⟨-, rfl⟩ := Prod.mk.inj (Except.ok.inj ran)
    exact passwordOf_setWallet _ _ _ _

end Methods

end UserStore

namespace Server

variable [Zero R] [Add R] [Sub R] [Mul R] [LT R] [LE R] [DecidableLT R] [DecidableLE R]
  {env : Env R} {srv : Server R} {u command : Str} {tokens : List Str}

theorem reserveFunds_passwords (srv : Server R) (user : u ≠ defaultUser) (o : OrderBookEntry R)
    (v : Str) :
    (srv.reserveFunds u command o).1.userStore.passwordOf v = srv.userStore.passwordOf v := by
  unfold reserveFunds
  split
  · rfl
  · rename_i store found
    obtain rfl := UserStore.getUser_eq user found
    split
    · rfl
    · exact UserStore.fulfillOrder_accounts ‹_› v
    · exact UserStore.fulfillOrder_accounts ‹_› v

theorem admitOrder_passwords (env : Env R) (now : Int) (user : u ≠ defaultUser) (v : Str) :
    (srv.admitOrder env now u command tokens).1.userStore.passwordOf v =
      srv.userStore.passwordOf v := by
  unfold admitOrder
  split
  · rfl
  · split
    · split
      · exact reserveFunds_passwords { srv with nextId := srv.nextId + 1 } user _ v
      · rfl
    · rfl

omit [LT R] [DecidableLT R] in
theorem cancelFunds_passwords (user : u ≠ defaultUser) {o : OrderBookEntry R} {unlocked : Bool}
    {srv' : Server R} (ran : srv.cancelFunds u o = .ok (unlocked, srv')) (v : Str) :
    srv'.userStore.passwordOf v = srv.userStore.passwordOf v := by
  unfold cancelFunds at ran
  split at ran
  · cases ran
  · rename_i store found
    obtain rfl := UserStore.getUser_eq user found
    split at ran
    · cases ran
    · obtain ⟨-, rfl⟩ := Prod.mk.inj (Except.ok.inj ran)
      exact UserStore.cancelOrder_accounts ‹_› v

omit [Mul R] in
theorem handleFunds_passwords (env : Env R) (user : u ≠ defaultUser) (v : Str) :
    (srv.handleFunds env u command tokens).1.userStore.passwordOf v = srv.userStore.passwordOf v := by
  have withdraw : ∀ {product : Str} {amount : R} {removed : Bool} {srv' : Server R},
      srv.withdraw u product amount = .ok (removed, srv') →
      srv'.userStore.passwordOf v = srv.userStore.passwordOf v := by
    intro product amount removed srv' ran
    unfold Server.withdraw at ran
    split at ran
    · cases ran
    · rename_i store found
      obtain rfl := UserStore.getUser_eq user found
      split at ran
      · cases ran
      · obtain ⟨-, rfl⟩ := Prod.mk.inj (Except.ok.inj ran)
        exact UserStore.removeCurrency_accounts ‹_› v
  have deposit : ∀ {product : Str} {amount : R} {srv' : Server R},
      srv.deposit u product amount = .ok srv' →
      srv'.userStore.passwordOf v = srv.userStore.passwordOf v := by
    intro product amount srv' ran
    unfold Server.deposit at ran
    split at ran
    · cases ran
    · rename_i store found
      obtain rfl := UserStore.getUser_eq user found
      split at ran
      · cases ran
      · obtain rfl := Except.ok.inj ran
        exact UserStore.insertCurrency_accounts ‹_› v
  unfold handleFunds
  split
  · rfl
  · split
    · dsimp only
      split
      · rfl
      · split
        · split
          · rfl
          · exact withdraw ‹_›
          · exact withdraw ‹_›
        · split
          · rfl
          · exact deposit ‹_›
    · rfl

end Server

section Pass

variable [Zero R] [Add R] [Sub R] [Mul R] [LT R] [LE R] [DecidableLT R] [DecidableLE R] [BEq R]

namespace OrderBook

omit [BEq R] in
theorem exchange_passwords (store : UserStore R) (buyer seller base quote' : Str)
    (amount totalCost bidPrice askPrice : R) (v : Str) :
    (exchange store buyer seller base quote' amount totalCost bidPrice askPrice).1.passwordOf v =
      store.passwordOf v := by
  have spend : ∀ (store : UserStore R) (u type : Str) (x : R),
      (store.spendLocked u type x).2.passwordOf v = store.passwordOf v :=
    fun store u type x => UserStore.passwordOf_setWallet _ _ _ _
  unfold exchange
  dsimp only
  split
  · exact spend _ _ _ _
  split
  · exact spend _ _ _ _
  rename_i inserted
  have second := (UserStore.insertCurrency_accounts inserted v).trans (spend _ _ _ _)
  split
  · exact (spend _ _ _ _).trans second
  split
  · exact (spend _ _ _ _).trans second
  rename_i credited
  have fourth := (UserStore.insertCurrency_accounts credited v).trans ((spend _ _ _ _).trans second)
  split
  · exact (UserStore.passwordOf_setWallet _ _ _ _).trans fourth
  · exact fourth

omit [BEq R] in
theorem settle_accounts (st : PassState R) (sale : OrderBookEntry R) (bid ask : EntryPtr R) (v : Str) :
    (settle st sale bid ask).1.userStore.passwordOf v = st.userStore.passwordOf v := by
  unfold settle processSale
  split
  · rfl
  · exact exchange_passwords _ _ _ _ _ _ _ _ _ v

omit [Add R] [Sub R] [Mul R] [LT R] [LE R] [DecidableLT R] [DecidableLE R] [BEq R] in
theorem beginSale_accounts (st : PassState R) (product currentTimestamp : Str) (bid ask : EntryPtr R) :
    UserStore.SameAccounts st.userStore (beginSale st product currentTimestamp bid ask).1.userStore := by
  unfold beginSale
  split
  · exact .refl _
  · rename_i buyer
    split
    · exact UserStore.getUser_accounts buyer
    · rename_i seller
      exact (UserStore.getUser_accounts buyer).trans (UserStore.getUser_accounts seller)

theorem bidRound_accounts (product currentTimestamp : Str) (ask bid : EntryPtr R) (st : PassState R) :
    UserStore.SameAccounts st.userStore
      (bidRound product currentTimestamp ask bid st).st.userStore := by
  have begun := beginSale_accounts st product currentTimestamp bid ask
  refine bidRound_state (motive := fun st' : PassState R => UserStore.SameAccounts st.userStore
    st'.userStore) product currentTimestamp (.refl _) begun fun sale amount _ v user => ?_
  exact (settle_accounts _ _ _ _ v).trans (begun v user)

/-- A pass changes no password. -/
theorem matchAsksToBids_accounts (std : StdSort (EntryPtr R)) (book : OrderBook R)
    (product currentTimestamp : Str) (store : UserStore R) (nextId : Nat) :
    UserStore.SameAccounts store
      (book.matchAsksToBids std product currentTimestamp store nextId).userStore := by
  unfold matchAsksToBids
  split
  · exact .refl _
  · have loops := askLoop_state product currentTimestamp
      (fun st st' : PassState R => UserStore.SameAccounts st.userStore st'.userStore)
      (fun st => .refl _) (fun first second => first.trans second)
      (bidRound_accounts product currentTimestamp)
    dsimp only
    split <;> exact loops _ _ _

end OrderBook

end Pass

end MiniATS
