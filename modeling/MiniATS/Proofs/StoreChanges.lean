import MiniATS.Proofs.Accounts

/-!
# What a command and a pass may do to the store

The store changes in two ways only: a wallet is replaced, or a user is added under a name that is
not taken (`UserStore.Changes`). A client's command replaces the wallet of the session's user, a
pass those of the users it trades for, and so every other user keeps password and wallet.
-/

namespace MiniATS

namespace UserStore

variable {R : Type} [Zero R]

/-- Users may be added, and the wallets of those listed may be replaced. -/
inductive Changes (us : List Str) (store : UserStore R) : UserStore R → Prop
  | refl : Changes us store store
  | wallet {store' : UserStore R} {u : Str} (before : Changes us store store') (member : u ∈ us)
    (w : Wallet R) : Changes us store (store'.setWallet u w)
  | added {store' : UserStore R} (before : Changes us store store') (u p : Str) :
    Changes us store (store'.emplace u p)

namespace Changes

variable {us us' : List Str} {store store' store'' : UserStore R} {u : Str} {user : User R}

theorem trans (first : Changes us store store') (second : Changes us store' store'') :
    Changes us store store'' := by
  induction second with
  | refl => exact first
  | wallet before member w ih => exact ih.wallet member w
  | added before u p ih => exact ih.added u p

theorem mono (changes : Changes us store store') (more : us ⊆ us') : Changes us' store store' := by
  induction changes with
  | refl => exact .refl
  | wallet before member w ih => exact ih.wallet (more member) w
  | added before u p ih => exact ih.added u p

omit [Zero R] in
theorem lookup_setWallet (store : UserStore R) (u v : Str) (w : Wallet R) :
    (store.setWallet u w).users.lookup v =
      if v = u then (store.users.lookup u).map (fun user => { user with wallet := w })
      else store.users.lookup v := by
  cases found : store.users.lookup u with
  | none =>
    have same : store.setWallet u w = store := by
      unfold setWallet
      split
      · rename_i taken
        cases found.symm.trans taken
      · rfl
    rw [same]
    split
    · subst_vars
      exact found
    · rfl
  | some user =>
    rw [setWallet_eq_put found]
    exact KeyedMap.lookup_insert_eq _ _ _ _

/-- Adding a user leaves those who are there alone. -/
theorem lookup_emplace (found : store.users.lookup u = some user) (v p : Str) :
    (store.emplace v p).users.lookup u = some user := by
  unfold emplace
  split
  · exact found
  · rename_i missing
    refine (KeyedMap.lookup_insert_eq _ _ _ _).trans ?_
    rw [if_neg]
    · exact found
    · rintro rfl
      rw [missing] at found
      cases found

/-- A user whose wallet may not be replaced stays as he is. -/
theorem spares (changes : Changes us store store') (other : u ∉ us)
    (found : store.users.lookup u = some user) : store'.users.lookup u = some user := by
  induction changes with
  | refl => exact found
  | wallet before member w ih =>
    rw [lookup_setWallet, if_neg]
    · exact ih
    · rintro rfl
      exact other member
  | added before v p ih => exact lookup_emplace ih v p

/-- Every user keeps name and password. -/
theorem keeps (changes : Changes us store store') (found : store.users.lookup u = some user) :
    ∃ w, store'.users.lookup u = some { user with wallet := w } := by
  induction changes with
  | refl => exact ⟨user.wallet, found⟩
  | @wallet store' v before member w ih =>
    obtain ⟨was, found'⟩ := ih
    rw [lookup_setWallet]
    split
    · subst_vars
      rw [found']
      exact ⟨w, rfl⟩
    · exact ⟨was, found'⟩
  | added before v p ih =>
    obtain ⟨was, found'⟩ := ih
    exact ⟨was, lookup_emplace found' v p⟩

end Changes

section Methods

variable {store store' : UserStore R} {u : Str}

theorem one_changes (store : UserStore R) (u : Str) (w : Wallet R) :
    Changes [u] store (store.setWallet u w) :=
  Changes.refl.wallet (List.mem_singleton.mpr rfl) w

theorem getUser_changes (us : List Str) (found : store.getUser u = .ok store') :
    Changes us store store' := by
  unfold getUser at found
  split at found
  · obtain rfl := Except.ok.inj found
    exact .refl
  · split at found
    · obtain rfl := Except.ok.inj found
      exact Changes.refl.added _ _
    · cases found

variable [Add R] [Sub R] [Mul R] [LT R] [LE R] [DecidableLT R] [DecidableLE R]

omit [Sub R] [Mul R] [LE R] [DecidableLE R] in
theorem insertCurrency_changes {type : Str} {amount : R}
    (ran : store.insertCurrency u type amount = .ok store') : Changes [u] store store' := by
  unfold insertCurrency at ran
  split at ran
  · cases ran
  · obtain rfl := Except.ok.inj ran
    exact one_changes _ _ _

omit [Add R] [Mul R] in
theorem removeCurrency_changes {type : Str} {amount : R} {removed : Bool}
    (ran : store.removeCurrency u type amount = .ok (removed, store')) : Changes [u] store store' := by
  unfold removeCurrency at ran
  split at ran
  · cases ran
  · obtain ⟨-, rfl⟩ := Prod.mk.inj (Except.ok.inj ran)
    exact one_changes _ _ _

theorem fulfillOrder_changes {o : OrderBookEntry R} {fulfilled : Bool}
    (ran : store.fulfillOrder u o = .ok (fulfilled, store')) : Changes [u] store store' := by
  unfold fulfillOrder at ran
  split at ran
  · cases ran
  · obtain ⟨-, rfl⟩ := Prod.mk.inj (Except.ok.inj ran)
    exact one_changes _ _ _

omit [LT R] [DecidableLT R] in
theorem cancelOrder_changes {o : OrderBookEntry R} {unlocked : Bool}
    (ran : store.cancelOrder u o = .ok (unlocked, store')) : Changes [u] store store' := by
  unfold cancelOrder at ran
  split at ran
  · cases ran
  · obtain ⟨-, rfl⟩ := Prod.mk.inj (Except.ok.inj ran)
    exact one_changes _ _ _

end Methods

end UserStore

open UserStore

section Commands

variable {R : Type} [Zero R] [Add R] [Sub R] [Mul R] [LT R] [LE R] [DecidableLT R] [DecidableLE R]

namespace Server

variable (env : Env R) (now : Int) (srv : Server R) (u command : Str) (tokens : List Str)

theorem reserveFunds_changes (o : OrderBookEntry R) :
    Changes [u] srv.userStore (srv.reserveFunds u command o).1.userStore := by
  unfold reserveFunds
  split
  · exact .refl
  · rename_i store found
    have got := getUser_changes [u] found
    split
    · exact got
    · exact got.trans (fulfillOrder_changes ‹_›)
    · exact got.trans (fulfillOrder_changes ‹_›)

theorem admitOrder_changes :
    Changes [u] srv.userStore (srv.admitOrder env now u command tokens).1.userStore := by
  unfold admitOrder
  split
  · exact .refl
  · split
    · split
      · exact reserveFunds_changes { srv with nextId := srv.nextId + 1 } u command _
      · exact .refl
    · exact .refl

omit [LT R] [DecidableLT R] in
theorem cancelFunds_changes {o : OrderBookEntry R} {unlocked : Bool} {srv' : Server R}
    (ran : srv.cancelFunds u o = .ok (unlocked, srv')) : Changes [u] srv.userStore srv'.userStore := by
  unfold cancelFunds at ran
  split at ran
  · cases ran
  · rename_i store found
    split at ran
    · cases ran
    · obtain ⟨-, rfl⟩ := Prod.mk.inj (Except.ok.inj ran)
      exact (getUser_changes [u] found).trans (cancelOrder_changes ‹_›)

omit [Add R] [Mul R] in
theorem withdraw_changes {product : Str} {amount : R} {removed : Bool} {srv' : Server R}
    (ran : srv.withdraw u product amount = .ok (removed, srv')) :
    Changes [u] srv.userStore srv'.userStore := by
  unfold Server.withdraw at ran
  split at ran
  · cases ran
  · rename_i store found
    split at ran
    · cases ran
    · obtain ⟨-, rfl⟩ := Prod.mk.inj (Except.ok.inj ran)
      exact (getUser_changes [u] found).trans (removeCurrency_changes ‹_›)

omit [Sub R] [Mul R] [LE R] [DecidableLE R] in
theorem deposit_changes {product : Str} {amount : R} {srv' : Server R}
    (ran : srv.deposit u product amount = .ok srv') : Changes [u] srv.userStore srv'.userStore := by
  unfold Server.deposit at ran
  split at ran
  · cases ran
  · rename_i store found
    split at ran
    · cases ran
    · obtain rfl := Except.ok.inj ran
      exact (getUser_changes [u] found).trans (insertCurrency_changes ‹_›)

omit [Mul R] in
theorem handleFunds_changes :
    Changes [u] srv.userStore (srv.handleFunds env u command tokens).1.userStore := by
  unfold handleFunds
  split
  · exact .refl
  split
  · dsimp only
    split
    · exact .refl
    split
    · split
      · exact .refl
      · exact withdraw_changes _ _ ‹_›
      · exact withdraw_changes _ _ ‹_›
    · split
      · exact .refl
      · exact deposit_changes _ _ ‹_›
  · exact .refl

end Server

end Commands

section Pass

variable {R : Type} [Zero R] [Add R] [Sub R] [Mul R] [LT R] [LE R] [DecidableLT R] [DecidableLE R]
  [BEq R]

namespace OrderBook

/-- The users that trades are made for. -/
def parties (trades : List (Trade R)) : List Str :=
  trades.flatMap (fun t => [t.bid.entry.username, t.ask.entry.username])

omit [BEq R] in
theorem exchange_changes (store : UserStore R) (buyer seller base quote' : Str)
    (amount totalCost bidPrice askPrice : R) : Changes [buyer, seller] store
      (exchange store buyer seller base quote' amount totalCost bidPrice askPrice).1 := by
  have wallet : ∀ {u : Str} {store store' : UserStore R}, u ∈ [buyer, seller] →
      Changes [u] store store' → Changes [buyer, seller] store store' :=
    fun member changes => changes.mono fun _ is => List.mem_singleton.mp is ▸ member
  have isBuyer : buyer ∈ [buyer, seller] := by simp
  have isSeller : seller ∈ [buyer, seller] := by simp
  unfold exchange
  dsimp only
  have first : Changes [buyer, seller] store _ := Changes.refl.wallet isBuyer
    ((store.wallet buyer).spendLocked quote' totalCost).2
  split
  · exact first
  split
  · exact first
  rename_i inserted
  have second := first.trans (wallet isBuyer (insertCurrency_changes inserted))
  split
  · exact second.wallet isSeller _
  split
  · exact second.wallet isSeller _
  rename_i credited
  have fourth := (second.wallet isSeller _).trans (wallet isSeller (insertCurrency_changes credited))
  split
  · exact fourth.wallet isBuyer _
  · exact fourth

/-- A stretch of a pass replaces the wallets of those it trades for. -/
def Trades (st st' : PassState R) : Prop :=
  ∃ new : List (Trade R × SaleFlags), st'.trades = st.trades ++ new ∧
    Changes (parties (new.map Prod.fst)) st.userStore st'.userStore

omit [Add R] [Sub R] [Mul R] [LT R] [LE R] [DecidableLT R] [DecidableLE R] [BEq R] in
theorem Trades.trans {st st' st'' : PassState R} (first : Trades st st') (second : Trades st' st'') :
    Trades st st'' := by
  obtain ⟨new, trades, changes⟩ := first
  obtain ⟨new', trades', changes'⟩ := second
  refine ⟨new ++ new', by rw [trades', trades, List.append_assoc], ?_⟩
  rw [parties, List.map_append, List.flatMap_append]
  exact (changes.mono (List.subset_append_left _ _)).trans
    (changes'.mono (List.subset_append_right _ _))

theorem bidRound_changes (product currentTimestamp : Str) (ask bid : EntryPtr R) (st : PassState R) :
    Trades st (bidRound product currentTimestamp ask bid st).st := by
  have begun : Trades st (beginSale st product currentTimestamp bid ask).1 := by
    unfold beginSale
    split
    · exact ⟨[], by simp, .refl⟩
    · rename_i buyer
      split
      · exact ⟨[], by simp, getUser_changes _ buyer⟩
      · rename_i seller
        exact ⟨[], by simp, (getUser_changes _ buyer).trans (getUser_changes _ seller)⟩
  apply bidRound_state (motive := Trades st) product currentTimestamp ⟨[], by simp, .refl⟩ begun
  intro sale amount made
  apply begun.trans
  unfold settle processSale
  refine ⟨[_], rfl, ?_⟩
  split
  · exact .refl
  · exact exchange_changes _ _ _ _ _ _ _ _ _

/-- A pass replaces the wallets of those it trades for. -/
theorem matchAsksToBids_changes (std : StdSort (EntryPtr R)) (book : OrderBook R)
    (product currentTimestamp : Str) (store : UserStore R) (nextId : Nat) :
    let ended := book.matchAsksToBids std product currentTimestamp store nextId
    Changes (parties (ended.trades.map Prod.fst)) store ended.userStore := by
  unfold matchAsksToBids
  split
  · exact .refl
  · rename_i orderList found
    obtain ⟨new, trades, changes⟩ := askLoop_state product currentTimestamp Trades
      (fun st => ⟨[], by simp, .refl⟩) (fun first second => first.trans second)
      (bidRound_changes product currentTimestamp) (sortedAsks std orderList) (sortedBids std orderList)
      ⟨store, nextId, [], []⟩
    rw [List.nil_append] at trades
    rw [← trades] at changes
    unfold passLoop
    dsimp only
    split
    · exact changes
    · exact changes

end OrderBook

end Pass

end MiniATS
