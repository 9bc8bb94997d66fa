import MiniATS.Misc.Machine
import MiniATS.Proofs.LoadedBook
import MiniATS.Proofs.PassLists
import MiniATS.Server.Serial

/-!
# The per-user index under any sequence of calls

A book from the constructor on which `insertOrder`, `removeOrderById` and `matchAsksToBids` are
called in any order. Constructing an order and inserting it are separate steps, as they are for
two clients at once: an order may be inserted after one with a later id, or never.
-/

namespace MiniATS

variable {R : Type}

/-- The book, `OrderBookEntry::nextId`, the orders constructed and not inserted yet, and as
history the orders inserted so far, in the order of their insertion. -/
structure BookRun (R : Type) where
  book : OrderBook R
  nextId : Nat
  made : List (OrderBookEntry R)
  placed : List (OrderBookEntry R)

/-- The calls on a book, with any arguments. `insertOrder n` inserts the `n`-th of the orders
that were constructed and not inserted yet. -/
inductive BookCall (R : Type)
  | construct (price amount : R) (timestamp product : Str) (orderType : OrderBookType)
      (username : Str)
  | insertOrder (n : Nat)
  | removeOrderById (username : Str) (id : Nat)
  | matchAsksToBids (std : StdSort (EntryPtr R)) (product currentTimestamp : Str)
      (userStore : UserStore R)

namespace BookRun

/-- A book as the constructor leaves it. -/
def start (book : OrderBook R) (nextId : Nat) : BookRun R := ⟨book, nextId, [], []⟩

/-- The ids of the orders that were placed for a user, in the order of placement. -/
def placedFor (s : BookRun R) (username : Str) : List Nat :=
  (s.placed.filter (fun o => o.username = username)).map (fun o => o.id)

section Step

variable [Zero R] [Add R] [Sub R] [Mul R] [LT R] [LE R] [DecidableLT R] [DecidableLE R] [BEq R]

def step (s : BookRun R) : BookCall R → BookRun R
  | .construct price amount timestamp product orderType username =>
    let r := OrderBookEntry.make price amount timestamp product orderType username s.nextId
    { s with nextId := r.2, made := s.made ++ [r.1] }
  | .insertOrder n =>
    match s.made[n]? with
    | none => s
    | some o =>
      { s with book := s.book.insertOrder o, made := s.made.eraseIdx n, placed := s.placed ++ [o] }
  | .removeOrderById username id => { s with book := (s.book.removeOrderById username id).2 }
  | .matchAsksToBids std product currentTimestamp userStore =>
    let r := s.book.matchAsksToBids std product currentTimestamp userStore s.nextId
    { s with book := r.book, nextId := r.nextId }

def run (s : BookRun R) (calls : List (BookCall R)) : BookRun R := calls.foldl step s

end Step

/-- What every sequence of calls keeps: the containers agree, ids are used once, and the index
lists a user's orders as they were placed. -/
structure Tracked (s : BookRun R) : Prop where
  mirrored : s.book.Mirrored
  distinct : ((s.made ++ s.placed).map (fun o => o.id)).Nodup
  below : ∀ o ∈ s.made ++ s.placed, o.id < s.nextId
  filedBelow : ∀ o ∈ s.book.getAllOrders, o.id < s.nextId
  outside : ∀ o ∈ s.made, ∀ o' ∈ s.book.getAllOrders, o'.id ≠ o.id
  inOrder : ∀ u, (s.book.userOrders.get u []).Sublist (s.placedFor u)

theorem start_tracked {book : OrderBook R} {nextId : Nat} (loaded : Loaded book nextId)
    (unindexed : ∀ u, book.userOrders.get u [] = []) : (start book nextId).Tracked where
  mirrored := loaded.indexed.toMirrored
  distinct := by simp [start]
  below := by simp [start]
  filedBelow := loaded.fresh
  outside := by simp [start]
  inOrder := by
    intro u
    rw [start, unindexed]
    exact List.nil_sublist _

section Calls

variable {s : BookRun R}

theorem construct_tracked (tracked : s.Tracked) (o : OrderBookEntry R) (id : o.id = s.nextId) :
    Tracked { s with nextId := s.nextId + 1, made := s.made ++ [o] } where
  mirrored := tracked.mirrored
  distinct := by
    have perm : ((s.made ++ [o] ++ s.placed).map (fun o => o.id)).Perm
        (((o :: (s.made ++ s.placed))).map (fun o => o.id)) := by
      rw [List.append_assoc]
      exact List.perm_middle.map _
    refine perm.nodup_iff.mpr (List.nodup_cons.mpr ⟨?_, tracked.distinct⟩)
    intro listed
    obtain ⟨o', member, same⟩ := List.mem_map.mp listed
    have below := tracked.below o' member
    rw [show o'.id = s.nextId from same.trans id] at below
    exact lt_irrefl _ below
  below := by
    intro o' member
    simp only [List.mem_append, List.mem_singleton] at member
    rcases member with (old | rfl) | old
    · exact Nat.lt_succ_of_lt (tracked.below o' (List.mem_append_left _ old))
    · exact id ▸ Nat.lt_succ_self _
    · exact Nat.lt_succ_of_lt (tracked.below o' (List.mem_append_right _ old))
  filedBelow := fun o' inBook => Nat.lt_succ_of_lt (tracked.filedBelow o' inBook)
  outside := by
    intro o' member o'' inBook
    rcases List.mem_append.mp member with old | new
    · exact tracked.outside o' old o'' inBook
    · obtain rfl := List.mem_singleton.mp new
      have below := tracked.filedBelow o'' inBook
      omega
  inOrder := tracked.inOrder

theorem insertOrder_tracked (tracked : s.Tracked) {n : Nat} {o : OrderBookEntry R}
    (chosen : s.made[n]? = some o) :
    Tracked { s with book := s.book.insertOrder o, made := s.made.eraseIdx n,
                     placed := s.placed ++ [o] } := by
  obtain ⟨inRange, isNth⟩ := List.getElem?_eq_some_iff.mp chosen
  have taken : s.made.Perm (o :: s.made.eraseIdx n) :=
    isNth ▸ (List.getElem_cons_eraseIdx_perm inRange).symm
  have perm : (s.made.eraseIdx n ++ (s.placed ++ [o])).Perm (s.made ++ s.placed) := by
    rw [← List.append_assoc]
    exact (List.perm_append_singleton o _).trans (taken.append_right s.placed).symm
  have distinct := (perm.map (fun o => o.id)).nodup_iff.mpr tracked.distinct
  have isMade : o ∈ s.made := taken.mem_iff.mpr (by simp)
  have inserted := OrderBook.insertOrder_perm s.book o
  have other : ∀ o' ∈ s.made.eraseIdx n, o'.id ≠ o.id := by
    have apart := (taken.map (fun o => o.id)).nodup_iff.mp
      (List.Nodup.sublist ((List.sublist_append_left _ _).map _) tracked.distinct)
    intro o' member same
    exact (List.nodup_cons.mp apart).1 (List.mem_map.mpr ⟨o', member, same⟩)
  refine ⟨?_, distinct, fun o' member => ?_, fun o' inBook => ?_, fun o' member o'' inBook => ?_,
    fun u => ?_⟩
  · exact OrderBook.insertOrder_mirrored tracked.mirrored (tracked.outside o isMade)
  · exact tracked.below o' (perm.mem_iff.mp member)
  · rcases List.mem_cons.mp (inserted.mem_iff.mp inBook) with rfl | old
    · exact tracked.below _ (List.mem_append_left _ isMade)
    · exact tracked.filedBelow o' old
  · rcases List.mem_cons.mp (inserted.mem_iff.mp inBook) with rfl | old
    · exact (other o' member).symm
    · exact tracked.outside o' (List.mem_of_mem_eraseIdx member) o'' old
  · dsimp only [placedFor]
    rw [OrderBook.get_insertOrder_userOrders, List.filter_append, List.map_append]
    by_cases owner : u = o.username
    · subst owner
      rw [if_pos rfl]
      apply (tracked.inOrder o.username).append
      simp
    · rw [if_neg owner]
      exact (tracked.inOrder u).trans (List.sublist_append_left _ _)

/-- A call that only takes orders out of the book, or changes amounts. -/
theorem shrink_tracked (tracked : s.Tracked) {book' : OrderBook R} {nextId' : Nat}
    (mirrored : book'.Mirrored) (later : s.nextId ≤ nextId')
    (ids : ∀ o' ∈ book'.getAllOrders, ∃ o ∈ s.book.getAllOrders, o.id = o'.id)
    (index : ∀ u, (book'.userOrders.get u []).Sublist (s.book.userOrders.get u [])) :
    Tracked { s with book := book', nextId := nextId' } where
  mirrored := mirrored
  distinct := tracked.distinct
  below := fun o member => (tracked.below o member).trans_le later
  filedBelow := by
    intro o' inBook
    obtain ⟨o, old, same⟩ := ids o' inBook
    exact same ▸ (tracked.filedBelow o old).trans_le later
  outside := by
    intro o member o' inBook
    obtain ⟨o'', old, same⟩ := ids o' inBook
    exact same ▸ tracked.outside o member o'' old
  inOrder := fun u => (index u).trans (tracked.inOrder u)

theorem removeOrderById_tracked (tracked : s.Tracked) (username : Str) (id : Nat) :
    Tracked { s with book := (s.book.removeOrderById username id).2 } := by
  refine shrink_tracked tracked
    (OrderBook.removeOrderById_mirrored tracked.mirrored username id) le_rfl ?_ ?_
  · intro o inBook
    exact ⟨o, OrderBook.removeOrderById_subset tracked.mirrored username id inBook, rfl⟩
  · exact OrderBook.removeOrderById_index tracked.mirrored username id

variable [Zero R] [Add R] [Sub R] [Mul R] [LT R] [LE R] [DecidableLT R] [DecidableLE R] [BEq R]

theorem matchAsksToBids_tracked (tracked : s.Tracked) (std : StdSort (EntryPtr R))
    (product currentTimestamp : Str) (userStore : UserStore R) :
    Tracked (s.step (.matchAsksToBids std product currentTimestamp userStore)) := by
  refine shrink_tracked tracked
    (OrderBook.matchAsksToBids_mirrored tracked.mirrored std product currentTimestamp userStore _)
    (OrderBook.matchAsksToBids_nextId std s.book product currentTimestamp userStore _) ?_ ?_
  · intro o inBook
    obtain ⟨p, member⟩ := OrderBook.mem_getAllOrders.mp inBook
    have ids := OrderBook.matchAsksToBids_fields (f := fun o : OrderBookEntry R => o.id)
      (fun _ _ => rfl) std s.book product currentTimestamp userStore s.nextId p
    obtain ⟨o', old, same⟩ := List.mem_map.mp (ids.subset (List.mem_map_of_mem member))
    exact ⟨o', OrderBook.mem_getAllOrders.mpr ⟨p, old⟩, same⟩
  · exact OrderBook.matchAsksToBids_index std s.book product currentTimestamp userStore s.nextId

theorem step_tracked (tracked : s.Tracked) (call : BookCall R) : (s.step call).Tracked := by
  cases call with
  | construct price amount timestamp product orderType username =>
    exact construct_tracked tracked _ rfl
  | insertOrder n =>
    simp only [step]
    cases chosen : s.made[n]? with
    | none => exact tracked
    | some o => exact insertOrder_tracked tracked chosen
  | removeOrderById username id => exact removeOrderById_tracked tracked username id
  | matchAsksToBids std product currentTimestamp userStore =>
    exact matchAsksToBids_tracked tracked std product currentTimestamp userStore

end Calls

section Runs

variable [Zero R] [Add R] [Sub R] [Mul R] [LT R] [LE R] [DecidableLT R] [DecidableLE R] [BEq R]

theorem run_tracked {s : BookRun R} (tracked : s.Tracked) (calls : List (BookCall R)) :
    (s.run calls).Tracked := by
  unfold run
  exact Machine.run_invariant (fun s call (tracked : s.Tracked) => step_tracked tracked call) tracked
    calls

end Runs

section Index

variable {s : BookRun R} (tracked : s.Tracked) {u : Str}

include tracked

theorem Tracked.placed_once : (s.placedFor u).Nodup := by
  refine List.Nodup.sublist ?_ tracked.distinct
  rw [List.map_append]
  exact (List.filter_sublist.map _).trans (List.sublist_append_right _ _)

/-- The references of a user are the placed orders that are still in the book. -/
theorem Tracked.index_eq (user : u ≠ defaultUser) : s.book.userOrders.get u [] =
    (s.placedFor u).filter (fun i => ∃ o ∈ s.book.getAllOrders, o.username = u ∧ o.id = i) := by
  apply ListFacts.eq_filter_of_sublist tracked.placed_once (tracked.inOrder u)
  intro i _
  rw [decide_eq_true_eq]
  exact (tracked.mirrored.mirrors u user i).symm

/-- A user's open orders, once each. -/
theorem Tracked.getOrdersForUser_perm (user : u ≠ defaultUser) : (s.book.getOrdersForUser u).Perm
    (s.book.getAllOrders.filter (fun o => o.username = u)) := by
  have distinct := tracked.mirrored.distinct
  refine (List.perm_ext_iff_of_nodup ?_ (distinct.of_map.filter _)).mpr fun o => ?_
  · apply (tracked.mirrored.once u).filterMap
    intro i j o first second
    rw [← ((OrderBook.deref_eq_some distinct).mp first).2]
    exact ((OrderBook.deref_eq_some distinct).mp second).2
  · rw [OrderBook.mem_getOrdersForUser tracked.mirrored user, List.mem_filter, decide_eq_true_eq]

end Index

variable [Zero R] [Add R] [Sub R] [Mul R] [LT R] [LE R] [DecidableLT R] [DecidableLE R] [BEq R]

/-- After any sequence of calls on a book from the constructor: ids are distinct across the lists,
no vector of the index is empty, and for every user but `default` the vector refers, without
repetition and in the order of placement, to exactly the user's orders in the lists, which are
what `getOrdersForUser` returns. -/
theorem index_mirrors (env : Env R) {filename : Str} {file : Option Str} {first nextId : Nat}
    {book : OrderBook R} (made : OrderBook.make env filename file first = .ok (book, nextId))
    (calls : List (BookCall R)) :
    let s := (start book nextId).run calls
    (s.book.getAllOrders.map (fun o => o.id)).Nodup ∧
    (∀ u vec, s.book.userOrders.lookup u = some vec → vec ≠ []) ∧
    ∀ u, u ≠ defaultUser →
      (s.book.userOrders.get u []).Nodup ∧
      (∀ i ∈ s.book.userOrders.get u [], ∃ o ∈ s.book.getAllOrders,
        s.book.deref i = some o ∧ o.username = u) ∧
      (∀ o ∈ s.book.getAllOrders, o.username = u → o.id ∈ s.book.userOrders.get u []) ∧
      (s.placedFor u).Nodup ∧
      s.book.userOrders.get u [] = (s.placedFor u).filter
        (fun i => ∃ o ∈ s.book.getAllOrders, o.username = u ∧ o.id = i) ∧
      (s.book.getOrdersForUser u).Perm (s.book.getAllOrders.filter (fun o => o.username = u)) := by
  intro s
  have unindexed : ∀ u, book.userOrders.get u [] = [] := by
    intro u
    rw [OrderBook.make_userOrders made, KeyedMap.get_empty]
  have tracked : s.Tracked := run_tracked (start_tracked (OrderBook.make_loaded made) unindexed) calls
  refine ⟨tracked.mirrored.distinct, tracked.mirrored.nonempty, fun u user => ⟨?_, ?_, ?_, ?_, ?_, ?_⟩⟩
  · exact tracked.mirrored.once u
  · intro i listed
    obtain ⟨o, inBook, owner, same⟩ := tracked.mirrored.refers u i listed
    exact ⟨o, inBook, (OrderBook.deref_eq_some tracked.mirrored.distinct).mpr ⟨inBook, same⟩, owner⟩
  · intro o inBook owner
    exact owner ▸ tracked.mirrored.complete o inBook (owner ▸ user)
  · exact tracked.placed_once
  · exact tracked.index_eq user
  · exact tracked.getOrdersForUser_perm user

/-- Bob's two asks are inserted in the other order than they were constructed, and the one that
was constructed first is removed. -/
def swapped : List (BookCall ℚ) :=
  [.construct 4 1 [] (str "BTC/USD") .ask (str "bob"),
    .construct 5 1 [] (str "BTC/USD") .ask (str "bob"),
    .construct 6 1 [] (str "BTC/USD") .ask (str "bob"),
    .insertOrder 1, .insertOrder 0, .insertOrder 0, .removeOrderById (str "bob") 1]

theorem index_mirrors_swapped :
    let s := (start ⟨str "orders.csv", [], ∅, ∅⟩ 1).run swapped
    s.book.userOrders.get (str "bob") [] = [2, 3] ∧
      (s.book.getOrdersForUser (str "bob")).Perm
        (s.book.getAllOrders.filter (fun o => o.username = str "bob")) :=
  ⟨by decide +kernel,
    ((index_mirrors exactEnv (System.fresh_book exactEnv) swapped).2.2 (str "bob")
      (by decide)).2.2.2.2.2⟩

end BookRun

end MiniATS
