import MiniATS.Proofs.Commands

/-!
# Locked and reserved funds over a serial run

`Sound` is kept by every step. For a user other than `default`, the locked balance and what the
open orders reserve change together: a message keeps their difference (`message_slack`), and a
pass adds to it what it strands (`pass_slack`). So the reserved funds are covered in every state
of a run that starts from a loaded book (`Secured.run`).
-/

namespace MiniATS

open Ledger OrderBookEntry OrderBook

namespace System

variable {env : Env ℚ} {s : System ℚ}

theorem Sound.start {book : OrderBook ℚ} {nextId : Nat} (loaded : Loaded book nextId)
    (store : UserStore ℚ) : Sound (start book nextId store) where
  sane :=
    { indexed := loaded.indexed
      distinct := loaded.indexed.distinct
      fresh := loaded.fresh
      admitted := fun o member user => absurd (loaded.default' o member) user
      placed := fun o member => by simp at member }
  sessions := fun _ => Or.inl rfl

/-- Queueing a product does not matter to the invariant. -/
theorem Sane.startMatchingProduct {srv : Server ℚ} {inflight : List (OrderBookEntry ℚ)}
    (sane : Sane srv inflight) (product : Str) : Sane (srv.startMatchingProduct product) inflight := by
  unfold Server.startMatchingProduct
  split
  · exact sane
  · exact sane.of_store rfl (fun _ known => known) le_rfl

theorem Sound.message (sound : Sound s) (sid : Nat) (now : Int) (data : Str) :
    Sound (step env s (.message sid now data)) := by
  have ends := message_end env sound sid now data
  generalize step env s (.message sid now data) = s' at ends ⊢
  cases ends with
  | quiet later users same session moved =>
    refine ⟨sound.sane.of_store rfl users later, fun sid' => ?_⟩
    dsimp only
    rw [Function.update_apply]
    split
    · exact session
    · exact (sound.sessions sid').mono (users _)
  | @placed store o c loggedIn owner id open' token nonneg enough locked within moved =>
    have user : o.username ≠ defaultUser := owner ▸ ((sound.sessions sid).known loggedIn).1
    have known : store.userExists o.username :=
      within.known (owner ▸ ((sound.sessions sid).known loggedIn).2)
    have admitted : Admitted store o := ⟨known, by rw [token]; rfl, nonneg⟩
    refine ⟨Sane.startMatchingProduct (Sane.insertOrder
      (sound.sane.of_admitted user id admitted fun _ known => within.known known)) _, fun sid' => ?_⟩
    rw [Server.startMatchingProduct_userStore]
    exact (sound.sessions sid').mono fun known => within.known known
  | @cancelled store o c inBook owner user token unlocked within moved =>
    have sane : Sane { s.server with userStore := store } [] :=
      sound.sane.of_store rfl (fun _ known => within.known known) le_rfl
    refine ⟨(sane.removeOrderById user o.id).1, fun sid' => ?_⟩
    exact (sound.sessions sid').mono fun known => within.known known
  | deposited user known nonneg credited within moved =>
    exact ⟨sound.sane.of_store rfl (fun _ known => within.known known) le_rfl,
      fun sid' => (sound.sessions sid').mono fun known => within.known known⟩
  | withdrew user known nonneg enough debited within moved =>
    exact ⟨sound.sane.of_store rfl (fun _ known => within.known known) le_rfl,
      fun sid' => (sound.sessions sid').mono fun known => within.known known⟩

theorem Sound.pass (sound : Sound s) (std : StdSort (EntryPtr ℚ)) (now : Int) (product : Str) :
    Sound (step env s (.pass std now product)) :=
  ⟨sound.sane.matchProduct env std now product, fun sid =>
    (sound.sessions sid).mono fun known => matchProduct_users env std now s.server product _ known⟩

/-- By how much a user's locked balance exceeds what the user's open orders reserve. -/
def slack (s : System ℚ) (u c : Str) : ℚ :=
  s.server.userStore.locked u c - s.server.orderBook.reserved u c

/-- What a step strands: a message nothing. -/
def strands (env : Env ℚ) (s : System ℚ) : Event ℚ → Str → Str → ℚ
  | .message _ _ _ => 0
  | .pass std now product => s.server.stranded env std now product

/-- `Sound`, and the reserved funds are covered. -/
structure Secured (s : System ℚ) : Prop extends Sound s where
  covers : ∀ u, u ≠ defaultUser → ∀ c, s.server.orderBook.reserved u c ≤ s.server.userStore.locked u c

section Slack

variable {u : Str} (user : u ≠ defaultUser) (c : Str)

include user in
theorem Sound.reserved_nonneg (sound : Sound s) : 0 ≤ s.server.orderBook.reserved u c := by
  rw [reserved_eq_claims]
  exact claims_nonneg (fun o member owner =>
    sound.sane.nonneg member (by rw [owner]; exact user)) c

/-- The need of an open order is locked. -/
theorem Secured.need_le_locked (secured : Secured s) {o : OrderBookEntry ℚ}
    (inBook : o ∈ s.server.orderBook.getAllOrders) (owner : o.username ≠ defaultUser) {d : Str}
    (token : o.reservedToken = some d) : o.need ≤ s.server.userStore.locked o.username d := by
  have covers := secured.covers o.username owner d
  have claim := claim_le_claims (u := o.username) (fun o' member owner' =>
    secured.sane.nonneg member (by rw [owner']; exact owner)) inBook d
  rw [claim_of_token token, single_self] at claim
  rw [reserved_eq_claims] at covers
  exact claim.trans covers

theorem message_slack (secured : Secured s) (sid : Nat) (now : Int) (data : Str) :
    slack (step env s (.message sid now data)) u c = slack s u c := by
  have ends := message_end env secured.toSound sid now data
  generalize step env s (.message sid now data) = s' at ends ⊢
  have store_locked : ∀ {store : UserStore ℚ} {l : Ledger Str Str ℚ}, store.ledger = l →
      store.locked u c = l.locked u c := by
    rintro store _ rfl
    rfl
  unfold slack
  cases ends with
  | quiet later users same session moved => rw [store_locked same, UserStore.ledger_locked]
  | @placed store o d loggedIn owner id open' token nonneg enough locked within moved =>
    simp only [reserved_eq_claims, Server.startMatchingProduct_userStore,
      Server.startMatchingProduct_orderBook,
      Server.insertOrder]
    rw [store_locked locked, lock_of_le enough, claims_perm (insertOrder_perm _ o), claims_cons,
      claim_of_token token]
    simp only [UserStore.ledger_locked, Pi.add_apply]
    linarith
  | @cancelled store o d inBook owner user' token unlocked within moved =>
    obtain ⟨book', removed, perm, -⟩ := removeOrderById_of_mem secured.sane.indexed inBook user'
    have enough := secured.need_le_locked inBook user' token
    have book : (Server.removeOrderById ({ s.server with userStore := store } : Server ℚ) o.username
        o.id).2.orderBook = book' := by
      unfold Server.removeOrderById
      rw [removed]
    show store.locked u c - _ = _
    rw [book, reserved_eq_claims, reserved_eq_claims, claims_perm perm, claims_cons,
      claim_of_token token, store_locked unlocked, unlock_of_le enough]
    simp only [UserStore.ledger_locked, Pi.add_apply, Pi.sub_apply]
    ring
  | deposited user' known nonneg credited within moved =>
    rw [store_locked credited, credit_locked, UserStore.ledger_locked]
  | withdrew user' known nonneg enough debited within moved =>
    rw [store_locked debited, debit_locked, UserStore.ledger_locked]

theorem Secured.covered (secured : Secured s) (product : Str) :
    Covered product (s.server.orderBook.orders product) s.server.userStore := by
  apply secured.sane.covered
  intro u user c
  have whole := secured.covers u user c
  rw [reserved_eq_claims, claims_perm (getAllOrders_perm _ product), claims_append, Pi.add_apply,
    Pi.add_apply] at whole
  have others : 0 ≤ claims (s.server.orderBook.others product) u c := by
    refine claims_nonneg (fun o member owner => secured.sane.nonneg ?_
      (by rw [owner]; exact user)) c
    exact (getAllOrders_perm _ product).mem_iff.mpr (List.mem_append_right _ member)
  exact (le_add_of_nonneg_right others).trans whole

include user in
theorem pass_slack (secured : Secured s) (std : StdSort (EntryPtr ℚ)) (now : Int) (product : Str) :
    slack (step env s (.pass std now product)) u c =
      slack s u c + s.server.stranded env std now product u c := by
  have balance := matchProduct_locked env std now ((secured.covered product).affordable std) user c []
  simp only [slack, step, reserved_eq_claims]
  simp only [Server.held, List.nil_append] at balance
  linarith

include user in
theorem step_slack (env : Env ℚ) (secured : Secured s) (e : Event ℚ) :
    slack (step env s e) u c = slack s u c + strands env s e u c := by
  cases e with
  | message sid now data =>
    rw [message_slack c secured]
    exact (add_zero _).symm
  | pass std now product => exact pass_slack user c secured std now product

include user in
theorem strands_nonneg (env : Env ℚ) (secured : Secured s) (e : Event ℚ) : 0 ≤ strands env s e u c := by
  cases e with
  | message sid now data => exact le_rfl
  | pass std now product => exact stranded_nonneg env std now ((secured.covered product).affordable std) user c

end Slack

theorem Secured.step (secured : Secured s) (e : Event ℚ) : Secured (step env s e) := by
  have sound : Sound (System.step env s e) := by
    cases e with
    | message sid now data => exact secured.toSound.message sid now data
    | pass std now product => exact secured.toSound.pass std now product
  refine ⟨sound, fun u user c => ?_⟩
  have changed := step_slack user c env secured e
  have more := strands_nonneg user c env secured e
  have covers := secured.covers u user c
  unfold slack at changed
  linarith

theorem Secured.run (secured : Secured s) (events : List (Event ℚ)) : Secured (run env s events) :=
  @Machine.run_invariant _ _ (System.step env) Secured (fun _ e secured => secured.step e) s secured
    events

/-- A server started from a loaded book and users with balances of zero or more. -/
theorem Secured.start {book : OrderBook ℚ} {nextId : Nat} (loaded : Loaded book nextId)
    {store : UserStore ℚ} (nonneg : ∀ u, u ≠ defaultUser → ∀ c, 0 ≤ store.locked u c) :
    Secured (start book nextId store) := by
  refine ⟨Sound.start loaded store, fun u user c => ?_⟩
  have none' : book.reserved u c = 0 := by
    rw [reserved_eq_claims]
    refine claims_of_ne (fun o member owner => ?_) c
    exact user (owner.symm.trans (loaded.default' o member))
  show book.reserved u c ≤ store.locked u c
  rw [none']
  exact nonneg u user c

end System

end MiniATS
