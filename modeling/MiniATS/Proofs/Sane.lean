import MiniATS.Proofs.PassBalance
import MiniATS.Proofs.ServerSteps

/-!
# The server between two pieces

`Sane srv inflight` is what holds of the shared state whenever no piece is running. `inflight`
are the orders whose funds are reserved but which are not in the book yet: a session is between
`fulfillOrder` and `insertOrder`. Every piece keeps it, and the locked balances change together
with what the open orders and the orders in flight claim.
-/

namespace MiniATS

open Crossing Ledger CSVHandler OrderBookEntry OrderBook

/-- The orders in flight and the open orders. -/
def Server.held (srv : Server ℚ) (inflight : List (OrderBookEntry ℚ)) : List (OrderBookEntry ℚ) :=
  inflight ++ srv.orderBook.getAllOrders

/-- The shared state is consistent. -/
structure Sane (srv : Server ℚ) (inflight : List (OrderBookEntry ℚ)) : Prop where
  indexed : srv.orderBook.Indexed
  distinct : ((srv.held inflight).map (fun o => o.id)).Nodup
  fresh : ∀ o ∈ srv.held inflight, o.id < srv.nextId
  admitted : ∀ o ∈ srv.held inflight, o.username ≠ defaultUser → Admitted srv.userStore o
  placed : ∀ o ∈ inflight, o.username ≠ defaultUser

namespace Sane

variable {srv srv' : Server ℚ} {inflight inflight' : List (OrderBookEntry ℚ)}

theorem nonneg (sane : Sane srv inflight) {o : OrderBookEntry ℚ} (member : o ∈ srv.held inflight)
    (user : o.username ≠ defaultUser) : 0 ≤ o.need :=
  (sane.admitted o member user).nonneg

theorem of_perm (sane : Sane srv inflight) (perm : inflight.Perm inflight') : Sane srv inflight' where
  indexed := sane.indexed
  distinct := ((perm.append_right _).map _).nodup_iff.mp sane.distinct
  fresh := fun o member => sane.fresh o ((perm.append_right _).mem_iff.mpr member)
  admitted := fun o member => sane.admitted o ((perm.append_right _).mem_iff.mpr member)
  placed := fun o member => sane.placed o (perm.mem_iff.mpr member)

/-- Only the users, the ids and the queue have moved on. -/
theorem of_store (sane : Sane srv inflight) (book : srv'.orderBook = srv.orderBook)
    (users : ∀ v, srv.userStore.userExists v → srv'.userStore.userExists v)
    (later : srv.nextId ≤ srv'.nextId) : Sane srv' inflight := by
  have same : srv'.held inflight = srv.held inflight := by
    unfold Server.held
    rw [book]
  refine ⟨by rw [book]; exact sane.indexed, ?_, ?_, ?_, sane.placed⟩
  · rw [same]
    exact sane.distinct
  · rw [same]
    exact fun o member => lt_of_lt_of_le (sane.fresh o member) later
  · rw [same]
    exact fun o member user => (sane.admitted o member user).mono (users _)

/-- An order has been admitted: it is in flight now. -/
theorem of_admitted (sane : Sane srv inflight) {o : OrderBookEntry ℚ} {store : UserStore ℚ}
    (user : o.username ≠ defaultUser) (id : o.id = srv.nextId) (admitted : Admitted store o)
    (users : ∀ v, srv.userStore.userExists v → store.userExists v) :
    Sane { srv with userStore := store, nextId := srv.nextId + 1 } (o :: inflight) := by
  have old : ∀ o' ∈ srv.held inflight, o'.id ≠ o.id :=
    fun o' member same => absurd (sane.fresh o' member) (by rw [same, id]; exact lt_irrefl _)
  refine ⟨sane.indexed, ?_, ?_, ?_, ?_⟩
  · show ((o :: srv.held inflight).map (fun o => o.id)).Nodup
    simp only [List.map_cons, List.nodup_cons, List.mem_map, not_exists, not_and]
    exact ⟨old, sane.distinct⟩
  · intro o' member
    rcases List.mem_cons.mp (show o' ∈ o :: srv.held inflight from member) with rfl | member
    · rw [id]
      exact Nat.lt_succ_self _
    · exact Nat.lt_succ_of_lt (sane.fresh o' member)
  · intro o' member user'
    rcases List.mem_cons.mp (show o' ∈ o :: srv.held inflight from member) with rfl | member
    · exact admitted
    · exact (sane.admitted o' member user').mono (users _)
  · intro o' member
    rcases List.mem_cons.mp member with rfl | member
    · exact user
    · exact sane.placed o' member

/-- An order in flight is inserted into the book. -/
theorem held_insertOrder (srv : Server ℚ) (o : OrderBookEntry ℚ) (inflight : List (OrderBookEntry ℚ)) :
    ((srv.insertOrder o).held inflight).Perm (srv.held (o :: inflight)) := by
  unfold Server.held Server.insertOrder
  apply ((insertOrder_perm srv.orderBook o).append_left inflight).trans
  exact List.perm_middle

theorem insertOrder {o : OrderBookEntry ℚ} (sane : Sane srv (o :: inflight)) :
    Sane (srv.insertOrder o) inflight := by
  have perm := held_insertOrder srv o inflight
  refine ⟨?_, (perm.map _).nodup_iff.mpr sane.distinct,
    fun o' member => sane.fresh o' (perm.mem_iff.mp member),
    fun o' member => sane.admitted o' (perm.mem_iff.mp member),
    fun o' member => sane.placed o' (List.mem_cons_of_mem _ member)⟩
  refine insertOrder_indexed sane.indexed ?_ (sane.placed o (by simp))
  have distinct := sane.distinct
  simp only [Server.held, List.cons_append, List.map_cons, List.nodup_cons, List.mem_map, not_exists,
    not_and] at distinct
  exact fun o' member => distinct.1 o' (List.mem_append_right _ member)

/-- `removeOrderById` takes out the user's order with the id, if there is one. -/
theorem removeOrderById (sane : Sane srv inflight) {u : Str} (user : u ≠ defaultUser) (id : Nat) :
    Sane (srv.removeOrderById u id).2 inflight ∧
      ((∃ o ∈ srv.orderBook.getAllOrders, o.username = u ∧ o.id = id ∧
          (srv.removeOrderById u id).1 = true ∧
          (srv.held inflight).Perm (o :: (srv.removeOrderById u id).2.held inflight)) ∨
        (∀ o ∈ srv.orderBook.getAllOrders, o.username = u → o.id ≠ id) ∧
          srv.removeOrderById u id = (false, srv)) := by
  by_cases present : ∃ o ∈ srv.orderBook.getAllOrders, o.username = u ∧ o.id = id
  · obtain ⟨o, inBook, rfl, rfl⟩ := present
    obtain ⟨book', removed, perm, -⟩ := removeOrderById_of_mem sane.indexed inBook user
    have indexed := removeOrderById_indexed sane.indexed user o.id
    have held : (srv.held inflight).Perm
        (o :: (srv.removeOrderById o.username o.id).2.held inflight) := by
      unfold Server.held Server.removeOrderById
      rw [removed]
      exact (perm.append_left inflight).trans List.perm_middle
    have distinct := (held.map (fun o => o.id)).nodup_iff.mp sane.distinct
    refine ⟨⟨indexed, (List.nodup_cons.mp distinct).2, ?_, ?_, sane.placed⟩,
      Or.inl ⟨o, inBook, rfl, rfl, ?_, held⟩⟩
    · exact fun o' member => sane.fresh o' (held.mem_iff.mpr (List.mem_cons_of_mem _ member))
    · exact fun o' member => sane.admitted o' (held.mem_iff.mpr (List.mem_cons_of_mem _ member))
    · unfold Server.removeOrderById
      rw [removed]
  · have missing : ∀ o ∈ srv.orderBook.getAllOrders, o.username = u → o.id ≠ id :=
      fun o inBook owner same => present ⟨o, inBook, owner, same⟩
    have unchanged : srv.removeOrderById u id = (false, srv) := by
      unfold Server.removeOrderById
      rw [removeOrderById_of_not_mem sane.indexed missing]
    rw [unchanged]
    exact ⟨sane, Or.inr ⟨missing, rfl⟩⟩

end Sane

section Pass

variable {srv : Server ℚ} {inflight : List (OrderBookEntry ℚ)}

/-- The orders of one product are covered when their claims are. -/
theorem Sane.covered (sane : Sane srv inflight) {product : Str}
    (covers : Covers (· ≠ defaultUser) srv.userStore.ledger (claims (srv.orderBook.orders product))) :
    Covered product (srv.orderBook.orders product) srv.userStore := by
  refine ⟨sane.indexed.filed product, fun o member user => sane.admitted o ?_ user, covers⟩
  exact List.mem_append_right _ (mem_getAllOrders.mpr ⟨product, member⟩)

/-- The crossing of the pass that a task runs on a product. -/
def Server.passCross (env : Env ℚ) (std : StdSort (EntryPtr ℚ)) (now : Int) (srv : Server ℚ)
    (product : Str) : Outcome (EntryPtr ℚ) ℚ (PassState ℚ) Exn :=
  OrderBook.passCross std (srv.orderBook.orders product) product (Server.getCurrentTimestamp env now)
    srv.userStore srv.nextId

/-- The list of the product as the loops of that pass leave it. -/
def Server.passWritten (env : Env ℚ) (std : StdSort (EntryPtr ℚ)) (now : Int) (srv : Server ℚ)
    (product : Str) : List (OrderBookEntry ℚ) :=
  OrderBook.passWritten std srv.orderBook product (Server.getCurrentTimestamp env now)
    srv.userStore srv.nextId

/-- By how much more than the locked balances the claims fall in that pass. -/
def Server.stranded (env : Env ℚ) (std : StdSort (EntryPtr ℚ)) (now : Int) (srv : Server ℚ)
    (product : Str) : Str → Str → ℚ :=
  let r := srv.passCross env std now product
  unspent product r.made (ofOutcome r).result +
    match r.error with
    | none => dropped (srv.passWritten env std now product)
    | some _ => 0

variable (env : Env ℚ) (std : StdSort (EntryPtr ℚ)) (now : Int) {product : Str}

theorem matchProduct_userStore (srv : Server ℚ) (product : Str) :
    (srv.matchProduct env std now product).1.userStore =
      (srv.passCross env std now product).state.userStore := by
  obtain ⟨_, -, store, -⟩ := matchAsksToBids_cross std srv.orderBook product
    (Server.getCurrentTimestamp env now) srv.userStore srv.nextId
  exact store

theorem passCross_framed (srv : Server ℚ) (product : Str) :
    PassFrame (srv.passCross env std now product).made ⟨srv.userStore, srv.nextId, [], []⟩
      (srv.passCross env std now product).state :=
  passCross_frame std (srv.orderBook.orders product) product (Server.getCurrentTimestamp env now)
    srv.userStore srv.nextId

theorem passCross_ran (affordable : Affordable std product (srv.orderBook.orders product) srv.userStore) :
    PassRun product srv.userStore (passPlan std (srv.orderBook.orders product))
      (srv.passCross env std now product).made
      (srv.passCross env std now product).state.userStore.ledger
      (ofOutcome (srv.passCross env std now product)).result :=
  (passCross_run affordable (Server.getCurrentTimestamp env now) srv.nextId).1

/-- The trades and the result of a pass, by its crossing. -/
theorem matchProduct_cross (srv : Server ℚ) (product : Str) :
    let r := srv.passCross env std now product
    let p := (srv.matchProduct env std now product).2
    p.trades = r.state.trades ∧
      p.result = match r.error with
        | none => .ok r.state.sales
        | some e => .error e := by
  obtain ⟨_, -, -, -, trades, ends⟩ := matchAsksToBids_cross std srv.orderBook product
    (Server.getCurrentTimestamp env now) srv.userStore srv.nextId
  refine ⟨trades, ?_⟩
  unfold Server.passCross Server.matchProduct
  dsimp only
  cases failed : (OrderBook.passCross std (srv.orderBook.orders product) product
    (Server.getCurrentTimestamp env now) srv.userStore srv.nextId).error with
  | none =>
    rw [failed] at ends
    exact ends.1
  | some e =>
    rw [failed] at ends
    exact ends.1

/-- A pass whose matches can be paid finds nobody short. -/
theorem matchProduct_clean
    (affordable : Affordable std product (srv.orderBook.orders product) srv.userStore) :
    (∀ trade ∈ (srv.matchProduct env std now product).2.trades, Clean trade) ∧
      (srv.matchProduct env std now product).2.result ≠ .error buyerInsufficient ∧
      (srv.matchProduct env std now product).2.result ≠ .error sellerInsufficient := by
  obtain ⟨run, clean⟩ := passCross_run affordable (Server.getCurrentTimestamp env now) srv.nextId
  obtain ⟨trades, result⟩ := matchProduct_cross env std now srv product
  have short : ∀ text, (ofOutcome (srv.passCross env std now product)).result ≠
      .error (.runtimeError text) := by
    intro text failed
    unfold Server.passCross at failed
    rw [failed] at run
    generalize (OrderBook.passCross std (srv.orderBook.orders product) product
      (Server.getCurrentTimestamp env now) srv.userStore srv.nextId).made = made at run
    generalize UserStore.ledger (R := ℚ) _ = l at run
    cases run with
    | unpaired pair => exact pairTokens_ne_runtimeError _ _ _ pair
  refine ⟨by rw [trades]; exact clean, ?_, ?_⟩
  all_goals
    rw [result]
    unfold ofOutcome at short
    cases failed : (srv.passCross env std now product).error with
    | none => simp
    | some e =>
      rw [failed] at short
      exact fun same => short _ (by rw [Except.error.inj same]; rfl)

theorem passWritten_shrunk (srv : Server ℚ) (product : Str) :
    List.Forall₂ Shrunk (srv.orderBook.orders product) (srv.passWritten env std now product) :=
  crossWritten_shrunk _ _ _ _

/-- A pass leaves orders of the list, shrunk, and the other products' orders. -/
theorem matchProduct_held (srv : Server ℚ) (product : Str) :
    ∃ left : List (OrderBookEntry ℚ),
      left.Sublist (srv.passWritten env std now product) ∧
      ((srv.matchProduct env std now product).1.orderBook.getAllOrders).Perm
        (left ++ srv.orderBook.others product) ∧
      claims left + (match (srv.passCross env std now product).error with
        | none => dropped (srv.passWritten env std now product)
        | some _ => 0) = claims (srv.passWritten env std now product) := by
  obtain ⟨middle, written, -, -, -, ends⟩ := matchAsksToBids_cross std srv.orderBook product
    (Server.getCurrentTimestamp env now) srv.userStore srv.nextId
  unfold Server.passCross Server.passWritten
  cases failed : (OrderBook.passCross std (srv.orderBook.orders product) product
    (Server.getCurrentTimestamp env now) srv.userStore srv.nextId).error with
  | some e =>
    rw [failed] at ends
    obtain ⟨-, book, -⟩ := ends
    refine ⟨_, List.Sublist.refl _, ?_, by simp⟩
    show (srv.orderBook.matchAsksToBids std product (Server.getCurrentTimestamp env now)
      srv.userStore srv.nextId).book.getAllOrders.Perm _
    rw [book]
    exact written.2.1
  | none =>
    rw [failed] at ends
    obtain ⟨-, book, -⟩ := ends
    refine ⟨_, List.filter_sublist, ?_, claims_filter _⟩
    show (srv.orderBook.matchAsksToBids std product (Server.getCurrentTimestamp env now)
      srv.userStore srv.nextId).book.getAllOrders.Perm _
    rw [book]
    have left := removeMatchedOrders_perm middle product
    have others : (middle.others product).Perm (srv.orderBook.others product) := by
      have whole := getAllOrders_perm middle product
      rw [written.2.2.1 product, if_pos rfl] at whole
      exact (List.perm_append_left_iff _).mp (whole.symm.trans written.2.1)
    rw [written.2.2.1 product, if_pos rfl] at left
    exact left.trans (others.append_left _)

/-- What is held after a pass is a part of what was held before it, with smaller amounts. -/
theorem matchProduct_shrunk (srv : Server ℚ) (product : Str) (inflight : List (OrderBookEntry ℚ)) :
    ∃ before after left : List (OrderBookEntry ℚ), (srv.held inflight).Perm before ∧
      List.Forall₂ Shrunk before after ∧ left.Sublist after ∧
      ((srv.matchProduct env std now product).1.held inflight).Perm left := by
  obtain ⟨left, sublist, perm, -⟩ := matchProduct_held env std now srv product
  refine ⟨inflight ++ (srv.orderBook.orders product ++ srv.orderBook.others product),
    inflight ++ (srv.passWritten env std now product ++ srv.orderBook.others product),
    inflight ++ (left ++ srv.orderBook.others product), ?_, ?_, ?_, ?_⟩
  · exact (getAllOrders_perm srv.orderBook product).append_left inflight
  · have same := fun l => List.forall₂_same.mpr fun (o : OrderBookEntry ℚ) (_ : o ∈ l) => Shrunk.refl o
    exact List.rel_append (same inflight)
      (List.rel_append (passWritten_shrunk env std now srv product) (same _))
  · exact (List.Sublist.refl _).append (sublist.append (List.Sublist.refl _))
  · exact perm.append_left inflight

/-- Every order held after a pass was held before it, perhaps with a larger amount. -/
theorem mem_held_matchProduct (srv : Server ℚ) (product : Str) {inflight : List (OrderBookEntry ℚ)}
    {o' : OrderBookEntry ℚ} (member : o' ∈ (srv.matchProduct env std now product).1.held inflight) :
    ∃ o ∈ srv.held inflight, Shrunk o o' := by
  obtain ⟨before, after, left, perm, shrunk, sublist, perm'⟩ :=
    matchProduct_shrunk env std now srv product inflight
  obtain ⟨o, inList, related⟩ :=
    ListFacts.forall₂_mem_right shrunk (sublist.subset (perm'.mem_iff.mp member))
  exact ⟨o, perm.mem_iff.mpr inList, related⟩

/-- A pass creates no user but `default`. -/
theorem matchProduct_users_eq (srv : Server ℚ) (product : Str) {v : Str} (user : v ≠ defaultUser) :
    (srv.matchProduct env std now product).1.userStore.userExists v = srv.userStore.userExists v := by
  rw [matchProduct_userStore]
  exact ((passCross_framed env std now srv product).users v).resolve_right fun created =>
    user created.1

theorem matchProduct_users (srv : Server ℚ) (product : Str) (v : Str)
    (known : srv.userStore.userExists v) :
    (srv.matchProduct env std now product).1.userStore.userExists v := by
  rw [matchProduct_userStore]
  rcases (passCross_framed env std now srv product).users v with same | ⟨-, there⟩
  · rw [same]
    exact known
  · exact there

theorem matchProduct_nextId (srv : Server ℚ) (product : Str) :
    srv.nextId ≤ (srv.matchProduct env std now product).1.nextId := by
  obtain ⟨-, -, -, nextId, -⟩ := matchAsksToBids_cross std srv.orderBook product
    (Server.getCurrentTimestamp env now) srv.userStore srv.nextId
  have frame := passCross_frame std (srv.orderBook.orders product) product
    (Server.getCurrentTimestamp env now) srv.userStore srv.nextId
  show srv.nextId ≤ (srv.orderBook.matchAsksToBids std product (Server.getCurrentTimestamp env now)
    srv.userStore srv.nextId).nextId
  rw [nextId]
  exact frame.nextId

theorem Sane.matchProduct (sane : Sane srv inflight) (product : Str) :
    Sane (srv.matchProduct env std now product).1 inflight := by
  obtain ⟨before, after, left, perm, shrunk, sublist, perm'⟩ :=
    matchProduct_shrunk env std now srv product inflight
  refine ⟨matchAsksToBids_indexed sane.indexed _ _ _ _ _, ?_, ?_, ?_, sane.placed⟩
  · have ids : before.map (fun o => o.id) = after.map (fun o => o.id) :=
      ListFacts.forall₂_map_eq (by rintro o _ ⟨x, rfl, -⟩; rfl) shrunk
    have distinct := (perm.map (fun o => o.id)).nodup_iff.mp sane.distinct
    rw [ids] at distinct
    exact (perm'.map (fun o => o.id)).nodup_iff.mpr (distinct.sublist (sublist.map _))
  · intro o' member
    obtain ⟨o, inList, x, rfl, -⟩ := mem_held_matchProduct env std now srv product member
    exact lt_of_lt_of_le (sane.fresh o inList) (matchProduct_nextId env std now srv product)
  · intro o' member user
    obtain ⟨o, inList, related⟩ := mem_held_matchProduct env std now srv product member
    have owner := related.username
    rw [owner] at user
    have admitted := sane.admitted o inList user
    refine ⟨?_, ?_, related.need_nonneg admitted.nonneg⟩
    · rw [owner]
      exact matchProduct_users env std now srv product _ admitted.owner
    · rw [related.reservedToken]
      exact admitted.token

section Balance

variable (affordable : Affordable std product (srv.orderBook.orders product) srv.userStore) {u : Str}
  (user : u ≠ defaultUser) (c : Str)

include affordable user

/-- A pass takes from the locked balances what it takes from the claims, up to what it strands. -/
theorem matchProduct_locked (inflight : List (OrderBookEntry ℚ)) :
    (srv.matchProduct env std now product).1.userStore.locked u c + claims (srv.held inflight) u c =
      srv.userStore.locked u c +
        claims ((srv.matchProduct env std now product).1.held inflight) u c +
        srv.stranded env std now product u c := by
  obtain ⟨left, -, perm, rest⟩ := matchProduct_held env std now srv product
  have run := passCross_ran env std now affordable
  have spent := run.locked affordable user c
  have fallen : claims (srv.passWritten env std now product) u c +
      ((srv.passCross env std now product).made.map (fun t => owedBy product t u c)).sum =
      claims (srv.orderBook.orders product) u c :=
    claims_crossWritten std affordable.filed _ _ u c
  have rest' := congrFun (congrFun rest u) c
  have held : claims ((srv.matchProduct env std now product).1.held inflight) u c =
      claims inflight u c + claims left u c + claims (srv.orderBook.others product) u c := by
    unfold Server.held
    rw [claims_append, claims_perm perm, claims_append, Pi.add_apply, Pi.add_apply, Pi.add_apply,
      Pi.add_apply, add_assoc]
  have held' : claims (srv.held inflight) u c = claims inflight u c +
      claims (srv.orderBook.orders product) u c + claims (srv.orderBook.others product) u c := by
    unfold Server.held
    rw [claims_append, claims_perm (getAllOrders_perm srv.orderBook product), claims_append,
      Pi.add_apply, Pi.add_apply, Pi.add_apply, Pi.add_apply, add_assoc]
  rw [matchProduct_userStore, held, held']
  unfold Server.stranded
  simp only [Pi.add_apply] at rest' ⊢
  simp only [Server.passCross, UserStore.ledger_locked] at spent fallen rest' ⊢
  linarith

theorem stranded_nonneg : 0 ≤ srv.stranded env std now product u c := by
  have run := passCross_ran env std now affordable
  have kept : 0 ≤ dropped (srv.passWritten env std now product) u c := by
    refine claims_nonneg (fun o' member owner => ?_) c
    obtain ⟨o, inList, shrunk⟩ := ListFacts.forall₂_mem_right
      (passWritten_shrunk env std now srv product) (List.mem_of_mem_filter member)
    refine shrunk.need_nonneg (affordable.admitted o inList ?_).nonneg
    rw [← shrunk.username, owner]
    exact user
  have unspent' := unspent_nonneg run u c
  unfold Server.stranded
  rw [Pi.add_apply, Pi.add_apply]
  apply add_nonneg unspent'
  cases (srv.passCross env std now product).error with
  | none => exact kept
  | some e => exact le_rfl

end Balance

end Pass

end MiniATS
