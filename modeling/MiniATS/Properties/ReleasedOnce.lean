import MiniATS.Proofs.ThreadFunds

/-!
# Reserved funds under concurrency

`CANCEL` unlocks what its copy of the order needs and removes the order afterwards, each under its
own lock. A pass or another `CANCEL` in between can spend or unlock the same funds once more, at the
cost of the user's other orders. In a run in which this does not happen the locked balances cover
what the open orders reserve whenever no handler is at work, and no pass finds anybody short.
-/

namespace MiniATS

open Str OrderBookEntry OrderBook

/-- The handler of the session is between two steps of a command. -/
def Session.isBetween {R : Type} (c : Session R) : Bool :=
  match c.phase with
  | .idle | .ended | .undefined => false
  | _ => true

namespace Threads

/-- No command handler is between two of its steps. -/
def AtRest {R : Type} (s : Threads R) : Prop := ∀ c ∈ s.sessions, c.isBetween = false

/-- The locked balances cover what the open orders reserve. -/
def CoversReserved (s : Threads ℚ) : Prop := ∀ u, u ≠ defaultUser → ∀ c,
  s.server.orderBook.reserved u c ≤ s.server.userStore.locked u c

/-- At rest the reserved funds are covered, and no pass so far has thrown for want of funds. -/
structure ReleasedOnce (env : Env ℚ) (past : List (Threads ℚ × Action ℚ)) (s : Threads ℚ) : Prop where
  covers : s.AtRest → s.CoversReserved
  passes : ∀ t ∈ past, ∀ product ended, t.1.pass env t.2 = some (product, ended) →
    ended.result ≠ .error buyerInsufficient ∧ ended.result ≠ .error sellerInsufficient

/-- A consistent state at rest with the reserved funds covered. -/
structure Ready (s : Threads ℚ) : Prop where
  sane : Sane s.server []
  rests : s.AtRest
  users : ∀ c ∈ s.sessions, Server.SessionUser s.server.userStore c.username
  covers : s.CoversReserved

section Rest

variable {R : Type} {s : Threads R}

theorem AtRest.inflight (rests : s.AtRest) : s.inflight = [] := by
  apply List.filterMap_eq_nil_iff.mpr
  intro c member
  have idle := rests c member
  unfold Session.isBetween at idle
  unfold Session.inflight
  split
  · rename_i phase
    rw [phase] at idle
    cases idle
  · rfl

theorem AtRest.released (rests : s.AtRest) : s.released = [] := by
  apply List.filterMap_eq_nil_iff.mpr
  intro c member
  apply Session.removes_of_phase
  intro id phase
  have idle := rests c member
  unfold Session.isBetween at idle
  rw [phase] at idle
  cases idle

theorem AtRest.live (rests : s.AtRest) : s.live = s.server.orderBook.getAllOrders := by
  unfold Threads.live
  rw [rests.released]
  exact List.filter_eq_self.mpr fun o _ => by simp

end Rest

variable {env : Env ℚ} {s s₀ : Threads ℚ}

theorem Ready.funded (ready : s.Ready) : s.Funded := by
  refine ⟨ready.rests.inflight ▸ ready.sane, fun c member => ⟨ready.users c member, ?_⟩, fun u user d => ?_⟩
  · have idle := ready.rests c member
    unfold Session.isBetween at idle
    cases phase : c.phase with
    | idle => trivial
    | ended => trivial
    | undefined => trivial
    | _ =>
      rw [phase] at idle
      cases idle
  · rw [ready.rests.inflight, ready.rests.live, List.nil_append, ← reserved_eq_claims]
    exact ready.covers u user d

/-- A server that has just been started is ready. -/
theorem Ready.start {book : OrderBook ℚ} {nextId : Nat} (loaded : Loaded book nextId) {store : UserStore ℚ}
    (nonneg : ∀ u, u ≠ defaultUser → ∀ c, 0 ≤ store.locked u c) : (start book nextId store).Ready where
  sane :=
    { indexed := loaded.indexed
      distinct := loaded.indexed.distinct
      fresh := loaded.fresh
      admitted := fun o member user => absurd (loaded.default' o member) user
      placed := fun _ none' => absurd none' List.not_mem_nil }
  rests := fun _ none' => absurd none' List.not_mem_nil
  users := fun _ none' => absurd none' List.not_mem_nil
  covers := by
    intro u user c
    have none' : book.reserved u c = 0 := by
      rw [reserved_eq_claims]
      exact claims_of_ne (fun o member owner => user (owner.symm.trans (loaded.default' o member))) c
    change book.reserved u c ≤ store.locked u c
    rw [none']
    exact nonneg u user c

theorem Funded.covers_at_rest (funded : s.Funded) (rests : s.AtRest) : s.CoversReserved := by
  intro u user d
  have covers := funded.covers u user d
  rwa [rests.inflight, rests.live, List.nil_append, ← reserved_eq_claims] at covers

/-- A pass that spares unlocked orders finds nobody short. -/
theorem Funded.pass_clean (funded : s.Funded) {a : Action ℚ} (spares : s.Spares a) {product : Str}
    {ended : PassEnd ℚ} (ran : s.pass env a = some (product, ended)) :
    ended.result ≠ .error buyerInsufficient ∧ ended.result ≠ .error sellerInsufficient := by
  cases a with
  | task n std now =>
    obtain ⟨product', found, is⟩ := Option.map_eq_some_iff.mp ran
    obtain ⟨rfl, rfl⟩ := Prod.mk.inj is
    exact (matchProduct_clean env std now (funded.affordable (spares _ found))).2
  | _ => cases ran

/-- In a run that unlocks only orders that are still reserved, and whose passes match no order that
has been unlocked, the funds of every order are released or spent once. -/
theorem released_once (ready : s₀.Ready) {actions : List (Action ℚ)}
    (spares : Machine.Along (next env) Spares s₀ actions)
    (ran : Machine.exec (next env) s₀ actions = some s) :
    ReleasedOnce env (Machine.trace (next env) s₀ actions) s := by
  have kept := Machine.exec_invariant_trace
    (fun past s => s.Funded ∧ ∀ t ∈ past, ∀ product ended, t.1.pass env t.2 = some (product, ended) →
      ended.result ≠ .error buyerInsufficient ∧ ended.result ≠ .error sellerInsufficient)
    (fun past s a s' holds spares step => by
      refine ⟨holds.1.step spares (taken_of_next step), fun t member product ended passed => ?_⟩
      rcases List.mem_append.mp member with earlier | new
      · exact holds.2 t earlier product ended passed
      · obtain rfl := List.mem_singleton.mp new
        exact holds.1.pass_clean spares passed)
    ⟨ready.funded, fun _ none' => absurd none' List.not_mem_nil⟩ spares ran
  exact ⟨kept.1.covers_at_rest, kept.2⟩

theorem fresh_ready : (fresh : Threads ℚ).Ready :=
  .start (make_loaded (System.fresh_book exactEnv)) fun _ _ _ => le_of_eq rfl

/-- Alice asks twice, Bob bids, and Alice starts to cancel her first ask. -/
def cancelUnderway (first second bid : String) : List (Action ℚ) :=
  [.engine, .engine, .connect, .connect, .message 0 0 (str "REGISTER alice pw"), .advance 0,
    .message 1 0 (str "REGISTER bob pw"), .advance 1, .message 0 0 (str "DEPOSIT btc 2"),
    .message 1 0 (str "DEPOSIT usd 13"), .message 0 0 (str ("ASK btc/usd 1 " ++ first)), .advance 0,
    .advance 0, .message 0 0 (str ("ASK btc/usd 1 " ++ second)), .advance 0, .advance 0,
    .message 1 0 (str ("BID btc/usd 1 " ++ bid)), .advance 1, .advance 1, .message 0 0 (str "CANCEL 1")]

/-- The engine launches the next pass, which runs. -/
def nextPass : List (Action ℚ) := [.engine, .engine, .task 0 (StdSort.insertion _) 0]

instance (s : Threads ℚ) : ∀ a, Decidable (s.Spares a)
  | .advance sid => inferInstanceAs (Decidable (∀ c ∈ s.sessions[sid]?, ∀ o ∈ c.unlocks, o ∈ s.live))
  | .task n std _ => inferInstanceAs (Decidable (∀ product ∈ s.tasks[n]?,
      ∀ t ∈ passPlan std (s.server.orderBook.orders product),
        t.bid.entry.id ∉ s.released ∧ t.ask.entry.id ∉ s.released))
  | .connect | .message _ _ _ | .engine | .cleanup => isTrue trivial

instance {R : Type} (s : Threads R) : Decidable s.AtRest :=
  inferInstanceAs (Decidable (∀ c ∈ s.sessions, c.isBetween = false))

/-- A pass over the other ask falls between the two parts of `CANCEL`. -/
theorem released_once_between :
    let actions := cancelUnderway "9" "4" "6" ++ .advance 0 :: nextPass ++ [.advance 0]
    ∃ s, Machine.exec (next exactEnv) fresh actions = some s ∧
      ReleasedOnce exactEnv (Machine.trace (next exactEnv) fresh actions) s := by
  intro actions
  obtain ⟨s, ran, -⟩ := (Option.any_eq_true _ _).mp
    (show (Machine.exec (next exactEnv) fresh actions).any (fun _ => true) = true by decide +kernel)
  exact ⟨s, ran, released_once fresh_ready (by decide +kernel) ran⟩

/-- The pass fills the ask that Alice's `CANCEL` has copied, and the copy is unlocked all the same:
nothing is locked for her other ask, and the pass that matches it throws. -/
theorem released_twice :
    let actions := cancelUnderway "4" "9" "4" ++ nextPass ++ [.advance 0, .advance 0]
    ∃ s, Machine.exec (next exactEnv) fresh actions = some s ∧ s.AtRest ∧
      s.server.orderBook.reserved (str "alice") (str "BTC") = 1 ∧
      s.server.userStore.locked (str "alice") (str "BTC") = 0 ∧
      ¬ ReleasedOnce exactEnv (Machine.trace (next exactEnv) fresh actions) s ∧
      (Machine.exec (next exactEnv) s [.message 1 0 (str "BID btc/usd 1 9"), .advance 1, .advance 1,
        .engine, .engine]).any (fun s' =>
          (s'.pass exactEnv (.task 0 (StdSort.insertion _) 0)).map (fun r => r.2.result.map fun _ => ()) =
            some (.error sellerInsufficient)) := by
  intro actions
  obtain ⟨s, ran, found⟩ := (Option.any_eq_true _ _).mp
    (show (Machine.exec (next exactEnv) fresh actions).any (fun s => decide (s.AtRest ∧
      s.server.orderBook.reserved (str "alice") (str "BTC") = 1 ∧
      s.server.userStore.locked (str "alice") (str "BTC") = 0 ∧
      (Machine.exec (next exactEnv) s [.message 1 0 (str "BID btc/usd 1 9"), .advance 1, .advance 1,
        .engine, .engine]).any (fun s' =>
          (s'.pass exactEnv (.task 0 (StdSort.insertion _) 0)).map (fun r => r.2.result.map fun _ => ()) =
            some (.error sellerInsufficient)))) = true by decide +kernel)
  obtain ⟨rests, reserved, locked, throws⟩ := of_decide_eq_true found
  refine ⟨s, ran, rests, reserved, locked, fun once => ?_, throws⟩
  have covers := once.covers rests (str "alice") (by decide) (str "BTC")
  rw [reserved, locked] at covers
  exact absurd covers (by decide)

end Threads

end MiniATS
