import MiniATS.Proofs.ServerSteps

/-!
# Balances that are not negative

Which wallet methods keep every balance at zero or above, and for which arguments: all of them,
but for `unlockCurrency`, which lowers the available balance when it is given a negative amount.
-/

namespace MiniATS

/-- No balance of the wallet is negative. -/
def Wallet.Nonneg (w : Wallet ℚ) : Prop := ∀ c, 0 ≤ w.available c ∧ 0 ≤ w.lockedIn c

/-- No balance of any user is negative. -/
def UserStore.Nonneg (store : UserStore ℚ) : Prop := ∀ u, (store.wallet u).Nonneg

namespace Wallet.Nonneg

variable {w w' : Wallet ℚ} {type : Str} {amount : ℚ} {done : Bool}

/-- A balance is set to an amount that is not negative. -/
theorem get_insert {m : KeyedMap Str ℚ} {x : ℚ} (nonneg : ∀ c, 0 ≤ m.get c 0) (large : 0 ≤ x)
    (type c : Str) : 0 ≤ KeyedMap.get (m.insert type x) c 0 := by
  rw [KeyedMap.get_insert]
  split
  · exact large
  · exact nonneg c

theorem available (nonneg : w.Nonneg) (c : Str) : 0 ≤ w.currencies.get c 0 := (nonneg c).1

theorem locked (nonneg : w.Nonneg) (c : Str) : 0 ≤ w.locked.get c 0 := (nonneg c).2

theorem insertCurrency (nonneg : w.Nonneg) (inserted : w.insertCurrency type amount = .ok w') :
    w'.Nonneg := by
  rw [insertCurrency_eq] at inserted
  split at inserted
  · cases inserted
  · rename_i positive
    obtain rfl := Except.ok.inj inserted
    refine fun c => ⟨get_insert nonneg.available ?_ type c, nonneg.locked c⟩
    exact add_nonneg (nonneg type).1 (not_lt.mp positive)

theorem removeCurrency (nonneg : w.Nonneg) (removed : w.removeCurrency type amount = .ok (done, w')) :
    w'.Nonneg := by
  rw [removeCurrency_eq] at removed
  split at removed
  · cases removed
  split at removed
  · rename_i enough
    obtain ⟨-, rfl⟩ := Prod.mk.inj (Except.ok.inj removed)
    exact fun c => ⟨get_insert nonneg.available (sub_nonneg.mpr enough) type c, nonneg.locked c⟩
  · obtain ⟨-, rfl⟩ := Prod.mk.inj (Except.ok.inj removed)
    exact nonneg

theorem lockCurrency (nonneg : w.Nonneg) (locked : w.lockCurrency type amount = .ok (done, w')) :
    w'.Nonneg := by
  rw [lockCurrency_eq] at locked
  split at locked
  · cases locked
  rename_i positive
  split at locked
  · rename_i enough
    obtain ⟨-, rfl⟩ := Prod.mk.inj (Except.ok.inj locked)
    refine fun c => ⟨get_insert nonneg.available (sub_nonneg.mpr enough) type c,
      get_insert nonneg.locked ?_ type c⟩
    exact add_nonneg (nonneg type).2 (not_lt.mp positive)
  · obtain ⟨-, rfl⟩ := Prod.mk.inj (Except.ok.inj locked)
    exact nonneg

/-- What a refused `unlockCurrency` or `spendLocked` leaves. -/
theorem touch (nonneg : w.Nonneg) (type : Str) : ({ w with locked := touch w.locked type } : Wallet ℚ).Nonneg := by
  refine fun c => ⟨nonneg.available c, ?_⟩
  show 0 ≤ (Wallet.touch w.locked type).get c 0
  rw [get_touch]
  exact nonneg.locked c

theorem unlockCurrency (nonneg : w.Nonneg) (positive : 0 ≤ amount) :
    (w.unlockCurrency type amount).2.Nonneg := by
  unfold Wallet.unlockCurrency
  split
  · rename_i enough
    exact fun c => ⟨get_insert nonneg.available (add_nonneg (nonneg.available type) positive) type c,
      get_insert nonneg.locked (sub_nonneg.mpr enough) type c⟩
  · exact nonneg.touch type

theorem spendLocked (nonneg : w.Nonneg) : (w.spendLocked type amount).2.Nonneg := by
  unfold Wallet.spendLocked
  split
  · rename_i enough
    exact fun c => ⟨nonneg.available c, get_insert nonneg.locked (sub_nonneg.mpr enough) type c⟩
  · exact nonneg.touch type

theorem fulfillOrder {o : OrderBookEntry ℚ} (nonneg : w.Nonneg)
    (fulfilled : w.fulfillOrder o = .ok (done, w')) : w'.Nonneg := by
  unfold Wallet.fulfillOrder at fulfilled
  split at fulfilled
  · cases fulfilled
  split at fulfilled
  · exact nonneg.lockCurrency fulfilled
  · exact nonneg.lockCurrency fulfilled
  · obtain ⟨-, rfl⟩ := Prod.mk.inj (Except.ok.inj fulfilled)
    exact nonneg

/-- An order that is fulfilled needs no negative amount. -/
theorem need_of_fulfillOrder {o : OrderBookEntry ℚ} (fulfilled : w.fulfillOrder o = .ok (true, w')) :
    0 ≤ o.need := by
  have positive : ∀ {type : Str} {amount : ℚ}, w.lockCurrency type amount = .ok (true, w') → 0 ≤ amount := by
    intro type amount locked
    rw [lockCurrency_eq] at locked
    split at locked
    · cases locked
    · exact not_lt.mp ‹_›
  unfold Wallet.fulfillOrder at fulfilled
  split at fulfilled
  · cases fulfilled
  split at fulfilled
  · rename_i type
    rw [OrderBookEntry.need_of_ask type]
    exact positive fulfilled
  · rename_i type
    rw [OrderBookEntry.need_of_bid type]
    exact positive fulfilled
  · cases fulfilled

theorem cancelOrder {o : OrderBookEntry ℚ} (nonneg : w.Nonneg) (needed : 0 ≤ o.need)
    (cancelled : w.cancelOrder o = .ok (done, w')) : w'.Nonneg := by
  unfold Wallet.cancelOrder at cancelled
  split at cancelled
  · cases cancelled
  split at cancelled
  · rename_i type
    rw [OrderBookEntry.need_of_ask type] at needed
    rw [← (Prod.mk.inj (Except.ok.inj cancelled)).2]
    exact nonneg.unlockCurrency needed
  · rename_i type
    rw [OrderBookEntry.need_of_bid type] at needed
    rw [← (Prod.mk.inj (Except.ok.inj cancelled)).2]
    exact nonneg.unlockCurrency needed
  · obtain ⟨-, rfl⟩ := Prod.mk.inj (Except.ok.inj cancelled)
    exact nonneg

end Wallet.Nonneg

namespace UserStore.Nonneg

variable {store store' : UserStore ℚ} {u type : Str} {amount : ℚ} {done : Bool}

theorem of_wallet (nonneg : store.Nonneg) (same : store'.wallet = store.wallet) : store'.Nonneg := by
  intro u
  rw [same]
  exact nonneg u

theorem setWallet (nonneg : store.Nonneg) {w : Wallet ℚ} (positive : w.Nonneg) :
    (store.setWallet u w).Nonneg := by
  intro v
  by_cases own : v = u
  · subst own
    by_cases known : store.userExists v
    · rw [wallet_setWallet known, if_pos rfl]
      exact positive
    · have same : store.setWallet v w = store := by
        unfold UserStore.setWallet
        split
        · rename_i user found
          exact absurd (Option.isSome_iff_exists.mpr ⟨user, found⟩) known
        · rfl
      rw [same]
      exact nonneg v
  · rw [wallet_setWallet_of_ne store w own]
    exact nonneg v

theorem getUser (nonneg : store.Nonneg) (found : store.getUser u = .ok store') : store'.Nonneg :=
  nonneg.of_wallet (getUser_ok found).2.2

theorem insertCurrency (nonneg : store.Nonneg)
    (inserted : store.insertCurrency u type amount = .ok store') : store'.Nonneg := by
  unfold UserStore.insertCurrency at inserted
  split at inserted
  · cases inserted
  · rename_i w done
    rw [← Except.ok.inj inserted]
    exact nonneg.setWallet ((nonneg u).insertCurrency done)

theorem removeCurrency (nonneg : store.Nonneg)
    (removed : store.removeCurrency u type amount = .ok (done, store')) : store'.Nonneg := by
  unfold UserStore.removeCurrency at removed
  split at removed
  · cases removed
  · rename_i w done
    rw [← (Prod.mk.inj (Except.ok.inj removed)).2]
    exact nonneg.setWallet ((nonneg u).removeCurrency done)

theorem spendLocked (nonneg : store.Nonneg) : (store.spendLocked u type amount).2.Nonneg :=
  nonneg.setWallet (nonneg u).spendLocked

theorem unlockCurrency (nonneg : store.Nonneg) (positive : 0 ≤ amount) :
    (store.unlockCurrency u type amount).2.Nonneg :=
  nonneg.setWallet ((nonneg u).unlockCurrency positive)

theorem fulfillOrder {o : OrderBookEntry ℚ} (nonneg : store.Nonneg)
    (fulfilled : store.fulfillOrder u o = .ok (done, store')) : store'.Nonneg := by
  unfold UserStore.fulfillOrder at fulfilled
  split at fulfilled
  · cases fulfilled
  · rename_i w done
    rw [← (Prod.mk.inj (Except.ok.inj fulfilled)).2]
    exact nonneg.setWallet ((nonneg u).fulfillOrder done)

theorem cancelOrder {o : OrderBookEntry ℚ} (nonneg : store.Nonneg) (needed : 0 ≤ o.need)
    (cancelled : store.cancelOrder u o = .ok (done, store')) : store'.Nonneg := by
  unfold UserStore.cancelOrder at cancelled
  split at cancelled
  · cases cancelled
  · rename_i w done
    rw [← (Prod.mk.inj (Except.ok.inj cancelled)).2]
    exact nonneg.setWallet ((nonneg u).cancelOrder needed done)

end UserStore.Nonneg

namespace Server

variable {env : Env ℚ} {now : Int} {srv : Server ℚ} {u command : Str} {tokens : List Str}

theorem handleFunds_nonneg (nonneg : srv.userStore.Nonneg) :
    (srv.handleFunds env u command tokens).1.userStore.Nonneg := by
  unfold handleFunds
  split
  · exact nonneg
  split
  · dsimp only
    split
    · exact nonneg
    split
    · split
      · exact nonneg
      all_goals
        rename_i removed
        unfold withdraw at removed
        split at removed
        · cases removed
        · rename_i got
          split at removed
          · cases removed
          · rename_i out
            rw [← (Prod.mk.inj (Except.ok.inj removed)).2]
            exact (nonneg.getUser got).removeCurrency out
    · split
      · exact nonneg
      · rename_i inserted
        unfold deposit at inserted
        split at inserted
        · cases inserted
        · rename_i got
          split at inserted
          · cases inserted
          · rename_i into
            rw [← Except.ok.inj inserted]
            exact (nonneg.getUser got).insertCurrency into
  · exact nonneg

theorem reserveFunds_nonneg (nonneg : srv.userStore.Nonneg) (o : OrderBookEntry ℚ) :
    (srv.reserveFunds u command o).1.userStore.Nonneg := by
  unfold reserveFunds
  split
  · exact nonneg
  · rename_i store got
    have nonneg' := nonneg.getUser got
    split
    · exact nonneg'
    · exact nonneg'.fulfillOrder ‹_›
    · exact nonneg'.fulfillOrder ‹_›

theorem reserveFunds_need {srv' : Server ℚ} {o o' : OrderBookEntry ℚ}
    (reserved : srv.reserveFunds u command o = (srv', .inr o')) : 0 ≤ o'.need := by
  unfold reserveFunds at reserved
  split at reserved
  · cases reserved
  split at reserved
  · cases reserved
  · cases reserved
  · rename_i fulfilled
    cases reserved
    unfold UserStore.fulfillOrder at fulfilled
    split at fulfilled
    · cases fulfilled
    · rename_i done
      obtain ⟨rfl, -⟩ := Prod.mk.inj (Except.ok.inj fulfilled)
      exact Wallet.Nonneg.need_of_fulfillOrder done

theorem admitOrder_need {srv' : Server ℚ} {o : OrderBookEntry ℚ}
    (admitted : srv.admitOrder env now u command tokens = (srv', .inr o)) : 0 ≤ o.need := by
  unfold admitOrder at admitted
  generalize getCurrentTimestamp env now = timestamp at admitted
  split at admitted
  · cases admitted
  split at admitted
  · split at admitted
    · exact reserveFunds_need admitted
    · cases admitted
  · cases admitted

theorem admitOrder_nonneg (nonneg : srv.userStore.Nonneg) :
    (srv.admitOrder env now u command tokens).1.userStore.Nonneg := by
  unfold admitOrder
  generalize getCurrentTimestamp env now = timestamp
  split
  · exact nonneg
  split
  · split
    · dsimp only
      generalize OrderBookEntry.make _ _ timestamp _ _ u srv.nextId = made
      have nonneg' : ({ srv with nextId := made.2 } : Server ℚ).userStore.Nonneg := nonneg
      exact reserveFunds_nonneg nonneg' _
    · exact nonneg
  · exact nonneg

theorem cancelFunds_nonneg {o : OrderBookEntry ℚ} {done : Bool} {srv' : Server ℚ}
    (nonneg : srv.userStore.Nonneg) (needed : 0 ≤ o.need)
    (cancelled : srv.cancelFunds u o = .ok (done, srv')) : srv'.userStore.Nonneg := by
  unfold cancelFunds at cancelled
  split at cancelled
  · cases cancelled
  · rename_i store got
    split at cancelled
    · cases cancelled
    · rename_i unlocked
      rw [← (Prod.mk.inj (Except.ok.inj cancelled)).2]
      exact (nonneg.getUser got).cancelOrder needed unlocked

end Server

end MiniATS
