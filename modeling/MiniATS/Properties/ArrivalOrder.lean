import MiniATS.Proofs.SerialBook

/-!
# The order of arrival

`insertOrder` files an order by its timestamp, compared as text, and the text `ctime` gives
begins with the weekday. Two orders stand in the order of their timestamps as texts, which
need not be the order in which they were placed. What the numbers are does not matter here.
-/

namespace MiniATS

open OrderBookEntry

variable {R : Type}

section Insertion

/-- Where `insertOrder` puts an order into a list in order of time: after all that are not
later. -/
theorem insertInto_split {l : List (OrderBookEntry R)} (sorted : Chronological l)
    (o : OrderBookEntry R) : ∃ before after, l = before ++ after ∧
      OrderBook.insertInto l o = before ++ o :: after ∧
      (∀ x ∈ before, x.timestamp ≤ o.timestamp) ∧ ∀ x ∈ after, o.timestamp < x.timestamp := by
  unfold OrderBook.insertInto
  cases last : l.getLast? with
  | none =>
    obtain rfl := List.getLast?_eq_none_iff.mp last
    exact ⟨[], [], rfl, rfl, by simp, by simp⟩
  | some back =>
    obtain ⟨front, rfl⟩ := List.getLast?_eq_some_iff.mp last
    dsimp only
    split
    · rename_i notLate
      refine ⟨front ++ [back], [], by simp, rfl, fun x member => ?_, by simp⟩
      rcases List.mem_append.mp member with early | isBack
      · exact List.le_trans ((List.pairwise_append.mp sorted).2.2 x early back (by simp)) notLate
      · rw [List.mem_singleton.mp isBack]
        exact notLate
    · generalize front ++ [back] = l at sorted
      unfold OrderBook.insertLate
      dsimp only
      generalize isLater : (fun e : OrderBookEntry R => decide (o.timestamp < e.timestamp)) = later
      refine ⟨(l.reverse.dropWhile later).reverse, (l.reverse.takeWhile later).reverse, ?_, rfl, ?_, ?_⟩
      · rw [← List.reverse_append, List.takeWhile_append_dropWhile, List.reverse_reverse]
      · -- the scan stops at an order that is not late, and none before it is later than that one
        have backwards : (l.reverse.dropWhile later).Pairwise (fun a b => b.timestamp ≤ a.timestamp) :=
          (List.pairwise_reverse.mpr sorted).sublist (List.dropWhile_sublist _)
        intro x member
        rw [List.mem_reverse] at member
        cases rest : l.reverse.dropWhile later with
        | nil => simp [rest] at member
        | cons stop rest' =>
          have notLate : stop.timestamp ≤ o.timestamp := by
            have stops := List.head?_dropWhile_not later l.reverse
            rw [rest, ← isLater] at stops
            simpa using stops
          rw [rest] at member backwards
          rcases List.mem_cons.mp member with rfl | earlier
          · exact notLate
          · exact List.le_trans ((List.pairwise_cons.mp backwards).1 x earlier) notLate
      · intro x member
        rw [List.mem_reverse] at member
        have isLate := List.all_eq_true.mp List.all_takeWhile x member
        rw [← isLater] at isLate
        exact of_decide_eq_true isLate

theorem insertInto_chronological {l : List (OrderBookEntry R)} (sorted : Chronological l)
    (o : OrderBookEntry R) : Chronological (OrderBook.insertInto l o) := by
  obtain ⟨before, after, rfl, inserted, early, late⟩ := insertInto_split sorted o
  obtain ⟨first, second, across⟩ := List.pairwise_append.mp sorted
  rw [inserted]
  refine List.pairwise_append.mpr ⟨first, List.pairwise_cons.mpr ⟨fun x member => ?_, second⟩, ?_⟩
  · exact List.le_of_lt (late x member)
  · intro x inBefore y member
    rcases List.mem_cons.mp member with rfl | inAfter
    · exact early x inBefore
    · exact across x inBefore y inAfter

end Insertion

/-- The ids and timestamps of a product's orders, in their order. -/
def OrderBook.stamps (book : OrderBook R) (p : Str) : List (Nat × Str) :=
  (book.orders p).map (fun o => (o.id, o.timestamp))

theorem chronological_iff (book : OrderBook R) (p : Str) :
    Chronological (book.orders p) ↔ (book.stamps p).Pairwise (fun a b => a.2 ≤ b.2) := by
  unfold OrderBook.stamps Chronological
  rw [List.pairwise_map]

theorem stamps_sublist {book book' : OrderBook R} {p : Str}
    (within : (book'.orders p).Sublist (book.orders p)) :
    (book'.stamps p).Sublist (book.stamps p) :=
  within.map _

/-- What the clock shows when the event starts. -/
def Event.now : Event R → Int
  | .message _ now _ => now
  | .pass _ now _ => now

variable [Zero R] [Add R] [Sub R] [Mul R] [Div R] [LT R] [LE R] [DecidableLT R]
  [DecidableLE R] [BEq R]

namespace System

variable {env : Env R} {s s' : System R}

/-- The order that an event places. -/
def placed (env : Env R) (s : System R) : Event R → Option (OrderBookEntry R)
  | .message sid now data => s.placedBy env sid now data
  | .pass _ _ _ => none

/-- `Filed`, and every list is in order of time. -/
structure Dated (s : System R) : Prop extends Filed s where
  chronological : ∀ p, Chronological (s.server.orderBook.orders p)

/-- How a step changes the stamps of a product's list: it takes some out, or it puts in the stamp
of the order it places. -/
inductive StampEnd (env : Env R) (s : System R) (e : Event R) (p : Str) (s' : System R) : Prop
  | fewer (none' : ∀ o, placed env s e = some o → o.product ≠ p)
    (fewer : (s'.server.orderBook.stamps p).Sublist (s.server.orderBook.stamps p))
    (later : s.server.nextId ≤ s'.server.nextId)
  | inserted {o : OrderBookEntry R} (placed : placed env s e = some o) (product : o.product = p)
    (id : o.id = s.server.nextId) {before after : List (Nat × Str)}
    (old : s.server.orderBook.stamps p = before ++ after)
    (new : s'.server.orderBook.stamps p =
      before ++ (o.id, Server.getCurrentTimestamp env e.now) :: after)
    (early : ∀ x ∈ before, x.2 ≤ Server.getCurrentTimestamp env e.now)
    (late : ∀ x ∈ after, Server.getCurrentTimestamp env e.now < x.2)
    (later : s'.server.nextId = s.server.nextId + 1)

theorem Dated.step_stamps (env : Env R) (dated : Dated s) (e : Event R) (p : Str) :
    StampEnd env s e p (step env s e) := by
  cases e with
  | pass std now product =>
    refine .fewer (fun o placed => by cases placed) ?_ ?_
    · exact OrderBook.matchAsksToBids_fields (fun _ _ => rfl) _ _ _ _ _ _ _
    · exact OrderBook.matchAsksToBids_nextId _ _ _ _ _ _
  | message sid now data =>
    cases message_book env s sid now data with
    | kept placed book later =>
      refine .fewer (fun o placed' => ?_) ?_ later
      · rw [show placedBy env s sid now data = some o from placed'] at placed
        cases placed
      · rw [book]
    | removed placed id book later =>
      refine .fewer (fun o placed' => ?_) (stamps_sublist ?_) later.ge
      · rw [show placedBy env s sid now data = some o from placed'] at placed
        cases placed
      · rw [book]
        exact OrderBook.removeOrderById_orders dated.indexed.toMirrored _ id p
    | @inserted o placed owner id time book later =>
      have list : (step env s (.message sid now data)).server.orderBook.orders p =
          if p = o.product then OrderBook.insertInto (s.server.orderBook.orders o.product) o
          else s.server.orderBook.orders p := by
        rw [book]
        exact OrderBook.orders_insert s.server.orderBook rfl p
      by_cases product : o.product = p
      · subst product
        rw [if_pos rfl] at list
        obtain ⟨before, after, old, inserted, early, late⟩ :=
          insertInto_split (dated.chronological o.product) o
        rw [time] at early late
        have old' : s.server.orderBook.stamps o.product =
            before.map (fun o => (o.id, o.timestamp)) ++ after.map (fun o => (o.id, o.timestamp)) := by
          rw [OrderBook.stamps, old, List.map_append]
        refine .inserted placed rfl id old' ?_ ?_ ?_ later
        · rw [OrderBook.stamps, list, inserted, List.map_append, List.map_cons, time]
          rfl
        · rintro x inBefore
          obtain ⟨o', member, rfl⟩ := List.mem_map.mp inBefore
          exact early o' member
        · rintro x inAfter
          obtain ⟨o', member, rfl⟩ := List.mem_map.mp inAfter
          exact late o' member
      · rw [if_neg (Ne.symm product)] at list
        refine .fewer (fun o' placed' => ?_) (stamps_sublist (by rw [list])) (by omega)
        rw [show placedBy env s sid now data = some o' from placed'] at placed
        rw [Option.some.inj placed]
        exact product

omit [Zero R] [Add R] [Sub R] [Mul R] [Div R] [LT R] [LE R] [DecidableLT R] [DecidableLE R] [BEq R] in
theorem Dated.start {book : OrderBook R} {nextId : Nat} (loaded : Loaded book nextId)
    (store : UserStore R) : Dated (start book nextId store) :=
  ⟨.start loaded store, loaded.chronological⟩

theorem Dated.step (env : Env R) (dated : Dated s) (e : Event R) : Dated (System.step env s e) := by
  refine ⟨dated.toFiled.step e, fun p => (chronological_iff _ p).mpr ?_⟩
  have sorted := (chronological_iff _ p).mp (dated.chronological p)
  cases dated.step_stamps env e p with
  | fewer _ fewer _ => exact sorted.sublist fewer
  | inserted _ _ _ old new early late _ =>
    generalize Server.getCurrentTimestamp env e.now = time at new early late
    rw [old] at sorted
    obtain ⟨first, second, across⟩ := List.pairwise_append.mp sorted
    rw [new]
    refine List.pairwise_append.mpr ⟨first, List.pairwise_cons.mpr ⟨fun x inAfter => ?_, second⟩, ?_⟩
    · exact List.le_of_lt (late x inAfter)
    · intro x inBefore y member
      rcases List.mem_cons.mp member with rfl | inAfter
      · exact early x inBefore
      · exact across x inBefore y inAfter

theorem Dated.run (env : Env R) (dated : Dated s) (events : List (Event R)) : Dated (System.run env s events) :=
  @Machine.run_invariant _ _ (System.step env) Dated (fun _ e dated => dated.step env e) s dated events

omit [Zero R] [Add R] [Sub R] [Mul R] [Div R] [LT R] [LE R] [DecidableLT R] [DecidableLE R] [BEq R] in
theorem Filed.stamps_nodup (filed : Filed s) (p : Str) :
    ((s.server.orderBook.stamps p).map Prod.fst).Nodup := by
  have distinct := ((OrderBook.getAllOrders_perm s.server.orderBook p).map _).nodup_iff.mp
    filed.indexed.distinct
  rw [List.map_append] at distinct
  rw [OrderBook.stamps, List.map_map]
  exact (List.nodup_append.mp distinct).1

/-- The stamps that a later state has of the orders from before it. -/
def Kept (p : Str) (s s' : System R) : Prop :=
  ((s'.server.orderBook.stamps p).filter (fun x => x.1 < s.server.nextId)).Sublist
      (s.server.orderBook.stamps p) ∧
    s.server.nextId ≤ s'.server.nextId

omit [Zero R] [Add R] [Sub R] [Mul R] [Div R] [LT R] [LE R] [DecidableLT R] [DecidableLE R] [BEq R] in
theorem Kept.trans {p : Str} {s'' : System R} (first : Kept p s s') (second : Kept p s' s'') :
    Kept p s s'' := by
  refine ⟨?_, first.2.trans second.2⟩
  have both : (s''.server.orderBook.stamps p).filter (fun x => x.1 < s.server.nextId) =
      ((s''.server.orderBook.stamps p).filter (fun x => x.1 < s'.server.nextId)).filter
        (fun x => x.1 < s.server.nextId) := by
    rw [List.filter_filter]
    apply List.filter_congr
    intro x _
    by_cases old : x.1 < s.server.nextId
    · simp [old, lt_of_lt_of_le old first.2]
    · simp [old]
  rw [both]
  exact (second.1.filter _).trans first.1

theorem Dated.kept_step (env : Env R) (dated : Dated s) (e : Event R) (p : Str) :
    Kept p s (System.step env s e) := by
  cases dated.step_stamps env e p with
  | fewer _ fewer later => exact ⟨List.filter_sublist.trans fewer, later⟩
  | @inserted o _ _ id before after old new early late later =>
    refine ⟨?_, by omega⟩
    have unseen : ¬ o.id < s.server.nextId := by omega
    rw [new, old, List.filter_append, List.filter_cons_of_neg (by simpa using unseen)]
    exact List.filter_sublist.append List.filter_sublist

theorem Dated.kept_run (env : Env R) (dated : Dated s) (events : List (Event R)) (p : Str) :
    Kept p s (System.run env s events) := by
  induction events generalizing s with
  | nil => exact ⟨List.filter_sublist, le_rfl⟩
  | cons e events ih => exact (dated.kept_step env e p).trans (ih (dated.step env e))

/-- Where the order that a step places stands to an older one. -/
theorem Dated.placed_order (env : Env R) (dated : Dated s) {e : Event R} {o : OrderBookEntry R}
    (placed : placed env s e = some o) :
    o.id = s.server.nextId ∧
      (o.id, Server.getCurrentTimestamp env e.now) ∈
        (System.step env s e).server.orderBook.stamps o.product ∧
      (System.step env s e).server.nextId = s.server.nextId + 1 ∧
      ∀ x ∈ s.server.orderBook.stamps o.product,
        [x, (o.id, Server.getCurrentTimestamp env e.now)].Sublist
            ((System.step env s e).server.orderBook.stamps o.product) ∧
            x.2 ≤ Server.getCurrentTimestamp env e.now ∨
          [(o.id, Server.getCurrentTimestamp env e.now), x].Sublist
            ((System.step env s e).server.orderBook.stamps o.product) ∧
            Server.getCurrentTimestamp env e.now < x.2 := by
  cases dated.step_stamps env e o.product with
  | fewer none' _ _ => exact absurd rfl (none' o placed)
  | @inserted o' placed' _ id before after old new early late later =>
    obtain rfl := Option.some.inj (placed.symm.trans placed')
    generalize Server.getCurrentTimestamp env e.now = time at new early late ⊢
    rw [new, old]
    refine ⟨id, by simp, later, fun x member => ?_⟩
    rcases List.mem_append.mp member with inBefore | inAfter
    · refine Or.inl ⟨?_, early x inBefore⟩
      exact (List.singleton_sublist.mpr inBefore).append (List.singleton_sublist.mpr (by simp))
    · refine Or.inr ⟨?_, late x inAfter⟩
      exact ((List.singleton_sublist.mpr inAfter).cons_cons _).trans (List.sublist_append_right _ _)

/-- From when an order is placed, it stands behind an older one if its time, as a text, is not
smaller, and before it otherwise. -/
theorem Dated.order_of_placed (dated : Dated s) {e : Event R} {o : OrderBookEntry R}
    (placed : placed env s e = some o) {x : Nat × Str}
    (older : x ∈ s.server.orderBook.stamps o.product) (old : x.1 < s.server.nextId)
    (after : List (Event R)) :
    let final := (System.run env (System.step env s e) after).server.orderBook.stamps o.product
    x ∈ final → (o.id, Server.getCurrentTimestamp env e.now) ∈ final →
      ([x.1, o.id].Sublist (final.map Prod.fst) ↔ x.2 ≤ Server.getCurrentTimestamp env e.now) := by
  intro final openX openO
  have dated' := dated.step env e
  obtain ⟨id, -, nextId, order⟩ := dated.placed_order env placed
  have distinct : (final.map Prod.fst).Nodup := (dated'.run env after).stamps_nodup o.product
  have within := (dated'.kept_run env after o.product).1
  rw [nextId] at within
  generalize Server.getCurrentTimestamp env e.now = time at openO order ⊢
  have stay : ∀ {y z : Nat × Str}, y ∈ final → z ∈ final → y.1 < s.server.nextId + 1 →
      z.1 < s.server.nextId + 1 →
      [y, z].Sublist ((System.step env s e).server.orderBook.stamps o.product) →
      [y.1, z.1].Sublist (final.map Prod.fst) := by
    intro y z hy hz oldY oldZ before
    have kept := ListFacts.pair_of_sublist (dated'.stamps_nodup o.product).of_map within
      (List.mem_filter.mpr ⟨hy, by simpa using oldY⟩)
      (List.mem_filter.mpr ⟨hz, by simpa using oldZ⟩) before
    exact (kept.trans List.filter_sublist).map Prod.fst
  rcases order x older with ⟨before, early⟩ | ⟨before, late⟩
  · exact iff_of_true (stay openX openO (by omega) (by simp only; omega) before) early
  · refine iff_of_false (ListFacts.not_pair_of_pair distinct ?_) (List.not_le.mpr late)
    exact stay openO openX (by simp only; omega) (by omega) before

omit [Zero R] [Add R] [Sub R] [Mul R] [Div R] [LT R] [LE R] [DecidableLT R] [DecidableLE R] [BEq R] in
/-- An order that is still open has kept its stamp. -/
theorem Kept.stamped {p : Str} (kept : Kept p s s') (filed : Filed s) {x : Nat × Str}
    (was : x ∈ s.server.orderBook.stamps p) (old : x.1 < s.server.nextId)
    (still : x.1 ∈ (s'.server.orderBook.orders p).map (fun o => o.id)) :
    x ∈ s'.server.orderBook.stamps p := by
  obtain ⟨o, member, same⟩ := List.mem_map.mp still
  have inList : (o.id, o.timestamp) ∈ s'.server.orderBook.stamps p := List.mem_map_of_mem member
  have earlier := kept.1.subset (List.mem_filter.mpr ⟨inList, by simpa [same] using old⟩)
  rwa [← List.inj_on_of_nodup_map (filed.stamps_nodup p) earlier was same]

/-- Of two orders of a product that were placed in this order and are both open, the first stands
before the second exactly when the text of its time is not greater. -/
theorem arrival_order_iff (env : Env R) {filename : Str} {file : Option Str} {book : OrderBook R}
    {nextId : Nat} (made : OrderBook.make env filename file 1 = .ok (book, nextId))
    (store : UserStore R) (before middle after : List (Event R)) (first second : Event R)
    {o₁ o₂ : OrderBookEntry R} :
    let s := start book nextId store
    let s' := run env s (before ++ first :: middle ++ second :: after)
    placed env (run env s before) first = some o₁ →
    placed env (run env s (before ++ first :: middle)) second = some o₂ →
    o₁.product = o₂.product →
    o₁.id ∈ (s'.server.orderBook.orders o₁.product).map (fun o => o.id) →
    o₂.id ∈ (s'.server.orderBook.orders o₁.product).map (fun o => o.id) →
    ([o₁.id, o₂.id].Sublist ((s'.server.orderBook.orders o₁.product).map (fun o => o.id)) ↔
      Server.getCurrentTimestamp env first.now ≤ Server.getCurrentTimestamp env second.now) := by
  intro s s' placed₁ placed₂ product open₁ open₂
  have atStart : Dated s := .start (OrderBook.make_loaded made) store
  -- the states between the events
  have dated₀ : Dated (run env s before) := atStart.run env before
  have dated₁ := dated₀.step env first
  have dated₂ : Dated (run env s (before ++ first :: middle)) := atStart.run env _
  have dated₃ := dated₂.step env second
  have between : run env s (before ++ first :: middle) =
      run env (System.step env (run env s before) first) middle := by
    simp [run_eq]
  have final : s' = run env (System.step env (run env s (before ++ first :: middle)) second) after := by
    simp [s', run_eq]
  have ids : (s'.server.orderBook.orders o₁.product).map (fun o => o.id) =
      (s'.server.orderBook.stamps o₁.product).map Prod.fst := by
    rw [OrderBook.stamps, List.map_map]
    rfl
  obtain ⟨id₁, stamped₁, nextId₁, -⟩ := dated₀.placed_order env placed₁
  obtain ⟨id₂, stamped₂, nextId₂, -⟩ := dated₂.placed_order env placed₂
  have middle' := dated₁.kept_run env middle o₁.product
  rw [← between] at middle'
  have end' := dated₃.kept_run env after o₁.product
  have onward := (dated₂.kept_step env second o₁.product).trans end'
  have old₁ : o₁.id < (System.step env (run env s before) first).server.nextId := by omega
  have final₁ := (middle'.trans onward).stamped dated₁.toFiled stamped₁ old₁ (by rwa [← final])
  have older : (o₁.id, Server.getCurrentTimestamp env first.now) ∈
      (run env s (before ++ first :: middle)).server.orderBook.stamps o₁.product :=
    onward.1.subset (List.mem_filter.mpr
      ⟨final₁, by simpa using lt_of_lt_of_le old₁ middle'.2⟩)
  rw [product] at older final₁ end' open₂
  have final₂ := end'.stamped dated₃.toFiled stamped₂ (by rw [nextId₂, ← id₂]; exact Nat.lt_succ_self _)
    (by rwa [← final])
  have ordered := dated₂.order_of_placed placed₂ older (lt_of_lt_of_le old₁ middle'.2) after final₁ final₂
  dsimp only at ordered
  rw [ids, product, final]
  exact ordered

/-- Alice asks for four dollars for a bitcoin, `later` seconds after Wednesday, Jun 10 2026, 9:00. -/
def askAfter (later : Int) : Event ℚ :=
  .message 0 (1781082000 + later) (str "ASK btc/usd 1 4")

/-- Alice deposits two bitcoins and offers the first of them. -/
def firstAsk : List (Event ℚ) :=
  [.message 0 1781082000 (str "REGISTER alice pw"), .message 0 1781082000 (str "DEPOSIT btc 2"),
    askAfter 0]

/-- Alice's order as the server files it. -/
def aliceAsk (id : Nat) (time : String) : OrderBookEntry ℚ :=
  ⟨4, 1, str time, str "BTC/USD", .ask, str "alice", id⟩

/-- Two orders of one second stand in the order of their arrival. -/
theorem arrival_order_same_second :
    [1, 2].Sublist (((run exactEnv fresh (firstAsk ++ [askAfter 0])).server.orderBook.orders
      (str "BTC/USD")).map (fun o => o.id)) := by
  have placed₁ : placed exactEnv (run exactEnv fresh (firstAsk.take 2)) (askAfter 0) =
      some (aliceAsk 1 "Wed Jun 10 09:00:00 2026") := by
    decide +kernel
  have placed₂ : placed exactEnv (run exactEnv fresh firstAsk) (askAfter 0) =
      some (aliceAsk 2 "Wed Jun 10 09:00:00 2026") := by
    decide +kernel
  exact (arrival_order_iff exactEnv (fresh_book exactEnv) .empty (firstAsk.take 2) [] [] (askAfter 0)
    (askAfter 0) placed₁ placed₂ rfl (by decide +kernel) (by decide +kernel)).mpr (List.le_refl _)

/-- The clock goes on from Wednesday to Thursday, and `Thu` sorts before `Wed`: the order of the
next day is filed before the one that is already there. -/
theorem next_day_filed_first :
    ((firstAsk ++ [askAfter 86400]).map Event.now).Pairwise (· ≤ ·) ∧
      placed exactEnv (run exactEnv fresh (firstAsk.take 2)) (askAfter 0) =
        some (aliceAsk 1 "Wed Jun 10 09:00:00 2026") ∧
      placed exactEnv (run exactEnv fresh firstAsk) (askAfter 86400) =
        some (aliceAsk 2 "Thu Jun 11 09:00:00 2026") ∧
      ((run exactEnv fresh (firstAsk ++ [askAfter 86400])).server.orderBook.orders
        (str "BTC/USD")).map (fun o => o.id) = [2, 1] := by
  decide +kernel

end System

end MiniATS
