import MiniATS.Properties.ArrivalOrder
import MiniATS.Properties.UserIndex
import MiniATS.Proofs.ReadEntries

/-!
# The lists are stably sorted

`insertOrder` appends an order or scans back for its place, the constructor sorts what it has read,
and the other calls take orders out. Whatever the timestamps are, every list is the stable sort of
its orders in the order of their arrival.
-/

namespace MiniATS

open CSVHandler OrderBookEntry OrderBook

variable {R : Type}

/-- What the fills of an order leave unchanged. -/
def OrderBookEntry.particulars (o : OrderBookEntry R) : R × Str × Str × OrderBookType × Str × Nat :=
  (o.price, o.timestamp, o.product, o.orderType, o.username, o.id)

section Lists

theorem sameOrder_of_particulars {l l' : List (OrderBookEntry R)}
    (same : l.map particulars = l'.map particulars) : List.Forall₂ SameOrder l l' := by
  have pairs := List.forall₂_eq_eq_eq ▸ same
  rw [List.forall₂_map_left_iff, List.forall₂_map_right_iff] at pairs
  refine pairs.imp fun o o' eq => ⟨o'.amount, ?_⟩
  simp only [particulars, Prod.mk.injEq] at eq
  obtain ⟨price, timestamp, product, type, username, id⟩ := eq
  cases o'
  simp_all [withAmount]

/-- An order that arrives last goes where `insertOrder` puts it. -/
theorem sort_concat {arrived l : List (OrderBookEntry R)} {o : OrderBookEntry R}
    (same : (sortByTimestamp arrived).map particulars = l.map particulars) (sorted : Chronological l) :
    (sortByTimestamp (arrived ++ [o])).map particulars = (insertInto l o).map particulars := by
  obtain ⟨before, after, rfl, inserted, early, late⟩ := insertInto_split sorted o
  rw [List.map_append] at same
  obtain ⟨before', after', split, first, second⟩ := List.map_eq_append_iff.mp same
  have times : ∀ {l l' : List (OrderBookEntry R)}, l.map particulars = l'.map particulars →
      ∀ x ∈ l, ∃ y ∈ l', y.timestamp = x.timestamp := by
    intro l l' same x member
    obtain ⟨y, inList, eq⟩ := List.mem_map.mp (same ▸ List.mem_map_of_mem (f := particulars) member)
    exact ⟨y, inList, congrArg (fun x : R × Str × Str × OrderBookType × Str × Nat => x.2.1) eq⟩
  have placed : sortByTimestamp (arrived ++ [o]) = before' ++ o :: after' := by
    refine StableSort.insertionSort_concat split (fun x member => ?_) (fun x member => ?_)
    · obtain ⟨y, inBefore, time⟩ := times first x member
      exact not_compareByTimestamp.mpr (time ▸ early y inBefore)
    · obtain ⟨y, inAfter, time⟩ := times second x member
      rw [not_compareByTimestamp, ← time]
      exact fun notLate => List.not_lt.mpr notLate (late y inAfter)
  rw [placed, inserted, List.map_append, List.map_append, List.map_cons, List.map_cons, first, second]

end Lists

namespace BookRun

/-- The orders that have arrived under a product and are not among those taken out, in the order of
their arrival. -/
def survivors (arrived : List (OrderBookEntry R)) (taken : List Nat) (p : Str) : List (OrderBookEntry R) :=
  arrived.filter fun o => o.product = p ∧ o.id ∉ taken

section Calls

variable [Zero R] [Add R] [Sub R] [Mul R] [LT R] [LE R] [DecidableLT R] [DecidableLE R] [BEq R]

/-- The ids of the orders that a call takes out of the book: of the order that was placed for the user
under the id, and of the orders of the product whose amount a pass that returns leaves at zero or below. -/
def takes (s : BookRun R) : BookCall R → List Nat
  | .construct .. => []
  | .insertOrder _ => []
  | .removeOrderById username i =>
    if ∃ o ∈ s.placed, o.username = username ∧ o.id = i then [i] else []
  | .matchAsksToBids std product currentTimestamp userStore =>
    let r := passLoop std (s.book.orders product) product currentTimestamp userStore s.nextId
    match r.result with
    | .error _ => []
    | .ok () => ((writeBack (s.book.orders product) (r.bids ++ r.asks)).filter fun o => o.amount ≤ 0).map
        fun o => o.id

/-- The ids that the calls of a run take out. -/
def takenBy (s : BookRun R) : List (BookCall R) → List Nat
  | [] => []
  | call :: calls => s.takes call ++ (s.step call).takenBy calls

end Calls

/-- What the calls keep of the lists. -/
structure Stable (loaded : List (OrderBookEntry R)) (taken : List Nat) (s : BookRun R) : Prop where
  tracked : s.Tracked
  chronological : ∀ p, Chronological (s.book.orders p)
  below : ∀ o ∈ loaded, o.id < s.nextId
  apart : ∀ o ∈ s.made ++ s.placed, ∀ o' ∈ loaded, o'.id ≠ o.id
  spent : ∀ i ∈ taken, i < s.nextId ∧ ∀ o ∈ s.made, o.id ≠ i
  listed : ∀ o ∈ s.placed, o.id ∈ s.book.getAllOrders.map (fun o => o.id) →
    o.id ∈ s.book.userOrders.get o.username []
  sorted : ∀ p, (sortByTimestamp (survivors (loaded ++ s.placed) taken p)).map particulars =
    (s.book.orders p).map particulars

section Steps

variable {loaded : List (OrderBookEntry R)} {taken : List Nat} {s : BookRun R}

theorem Tracked.list_nodup (tracked : s.Tracked) (p : Str) :
    ((s.book.orders p).map (fun o => o.id)).Nodup := by
  have distinct := ((getAllOrders_perm s.book p).map _).nodup_iff.mp tracked.mirrored.distinct
  rw [List.map_append] at distinct
  exact (List.nodup_append.mp distinct).1

theorem start_stable {env : Env R} {filename : Str} {file : Option Str} {first nextId : Nat}
    {book : OrderBook R} (made : OrderBook.make env filename file first = .ok (book, nextId)) :
    ∃ loaded, readEntries env (Str.getlines 10 (file.getD [])) first = .ok (loaded, nextId) ∧
      Stable loaded [] (start book nextId) := by
  have isLoaded := make_loaded made
  have unindexed : ∀ u, book.userOrders.get u [] = [] := by
    intro u
    rw [make_userOrders made, KeyedMap.get_empty]
  unfold OrderBook.make at made
  cases read : readCSV env file first with
  | error e =>
    rw [read] at made
    cases made
  | ok r =>
    obtain ⟨m, nextId'⟩ := r
    rw [read] at made
    obtain ⟨rfl, rfl⟩ : ⟨filename, [], m, ∅⟩ = book ∧ nextId' = nextId := by simpa using made
    obtain ⟨loaded, entries, lists⟩ := readCSV_get read
    refine ⟨loaded, entries, start_tracked isLoaded unindexed, isLoaded.chronological,
      fun o member => ((readEntries_ids _ entries).2 o member).2, ?_, ?_, ?_, fun p => ?_⟩
    · exact fun _ member => nomatch member
    · exact fun _ member => nomatch member
    · exact fun _ member => nomatch member
    · have all : survivors (loaded ++ (start ⟨filename, [], m, ∅⟩ nextId').placed) [] p =
          loaded.filter fun o => o.product = p := by
        rw [show (start ⟨filename, [], m, ∅⟩ nextId').placed = [] from rfl, List.append_nil]
        exact List.filter_congr fun o _ => by simp
      rw [all, ← lists p]
      rfl

theorem id_of_particulars {o o' : OrderBookEntry R} (same : o.particulars = o'.particulars) : o.id = o'.id :=
  congrArg (fun x : R × Str × Str × OrderBookType × Str × Nat => x.2.2.2.2.2) same

/-- A placed order that the index does not have is in no list, nor is another with its id. -/
theorem Stable.unlisted (stable : Stable loaded taken s) {o : OrderBookEntry R} (placed : o ∈ s.placed)
    (missing : o.id ∉ s.book.userOrders.get o.username []) : ∀ p, ∀ o' ∈ s.book.orders p, o'.id ≠ o.id :=
  fun p _ member same => missing (stable.listed o placed
    (same ▸ List.mem_map_of_mem (mem_getAllOrders.mpr ⟨p, member⟩)))

/-- A call that leaves of every list the orders that it does not take. -/
theorem shrink_stable (stable : Stable loaded taken s) {book' : OrderBook R} {nextId' : Nat} {more : List Nat}
    (tracked : Tracked { s with book := book', nextId := nextId' }) (later : s.nextId ≤ nextId')
    (spent : ∀ i ∈ more, ∃ o ∈ s.book.getAllOrders ++ s.placed, o.id = i)
    (listed : ∀ o ∈ s.placed, o.id ∈ book'.getAllOrders.map (fun o => o.id) →
      o.id ∈ s.book.userOrders.get o.username [] → o.id ∈ book'.userOrders.get o.username [])
    (kept : ∀ p, (book'.orders p).map particulars =
      ((s.book.orders p).filter fun o => o.id ∉ more).map particulars) :
    Stable loaded (taken ++ more) { s with book := book', nextId := nextId' } where
  tracked := tracked
  chronological := by
    intro p
    have sorted := stable.chronological p
    unfold Chronological at sorted ⊢
    rw [← List.pairwise_map (f := fun o : OrderBookEntry R => o.timestamp)] at sorted ⊢
    have times := congrArg
      (List.map fun x : R × Str × Str × OrderBookType × Str × Nat => x.2.1) (kept p)
    rw [List.map_map, List.map_map] at times
    exact times ▸ sorted.sublist (List.filter_sublist.map _)
  below := fun o member => (stable.below o member).trans_le later
  apart := stable.apart
  spent := by
    intro i member
    rcases List.mem_append.mp member with old | new
    · obtain ⟨below, unmade⟩ := stable.spent i old
      exact ⟨below.trans_le later, unmade⟩
    · obtain ⟨o, known, rfl⟩ := spent i new
      rcases List.mem_append.mp known with inBook | placed
      · exact ⟨(stable.tracked.filedBelow o inBook).trans_le later,
          fun o' isMade => (stable.tracked.outside o' isMade o inBook).symm⟩
      · refine ⟨(stable.tracked.below o (List.mem_append_right _ placed)).trans_le later, ?_⟩
        have distinct := stable.tracked.distinct
        rw [List.map_append] at distinct
        exact fun o' isMade => (List.nodup_append.mp distinct).2.2 o'.id (List.mem_map_of_mem isMade) o.id
          (List.mem_map_of_mem placed)
  listed := by
    intro o placed inBook
    refine listed o placed inBook (stable.listed o placed ?_)
    obtain ⟨o', inBook', same⟩ := List.mem_map.mp inBook
    obtain ⟨p, member⟩ := mem_getAllOrders.mp inBook'
    have old := List.mem_map_of_mem (f := particulars) member
    rw [kept p] at old
    obtain ⟨o'', left, eq⟩ := List.mem_map.mp old
    rw [← same, ← id_of_particulars eq]
    exact List.mem_map_of_mem (mem_getAllOrders.mpr ⟨p, List.mem_of_mem_filter left⟩)
  sorted := by
    intro p
    have fewer : survivors (loaded ++ s.placed) (taken ++ more) p =
        (survivors (loaded ++ s.placed) taken p).filter fun o => o.id ∉ more := by
      unfold survivors
      rw [List.filter_filter]
      refine List.filter_congr fun o _ => ?_
      simp only [List.mem_append, not_or, Bool.decide_and]
      ac_rfl
    show (sortByTimestamp (survivors (loaded ++ s.placed) (taken ++ more) p)).map particulars = _
    rw [fewer, kept p, sortByTimestamp_filter]
    have filtered : ∀ l : List (OrderBookEntry R), (l.filter fun o => o.id ∉ more).map particulars =
        (l.map particulars).filter fun x => x.2.2.2.2.2 ∉ more := fun l => by
      rw [List.filter_map]
      rfl
    rw [filtered, filtered, stable.sorted p]

theorem insertOrder_stable (stable : Stable loaded taken s) {n : Nat} {o : OrderBookEntry R}
    (chosen : s.made[n]? = some o) :
    Stable loaded taken { s with book := s.book.insertOrder o, made := s.made.eraseIdx n,
                                 placed := s.placed ++ [o] } := by
  have isMade : o ∈ s.made := List.mem_of_getElem? chosen
  have list : ∀ p, (s.book.insertOrder o).orders p =
      if p = o.product then insertInto (s.book.orders o.product) o else s.book.orders p :=
    orders_insert s.book rfl
  refine ⟨insertOrder_tracked stable.tracked chosen, fun p => ?_, stable.below, fun o' member => ?_,
    fun i member => ?_, fun o' placed inBook => ?_, fun p => ?_⟩
  · rw [list]
    split
    · exact insertInto_chronological (stable.chronological _) o
    · exact stable.chronological p
  · refine stable.apart o' ?_
    simp only [List.mem_append, List.mem_singleton] at member ⊢
    rcases member with old | old | rfl
    · exact Or.inl (List.mem_of_mem_eraseIdx old)
    · exact Or.inr old
    · exact Or.inl isMade
  · obtain ⟨below, unmade⟩ := stable.spent i member
    exact ⟨below, fun o' old => unmade o' (List.mem_of_mem_eraseIdx old)⟩
  · rw [get_insertOrder_userOrders]
    have other : o' ∈ s.placed → o'.id ≠ o.id := fun old same => by
      have distinct := stable.tracked.distinct
      rw [List.map_append] at distinct
      exact (List.nodup_append.mp distinct).2.2 o.id (List.mem_map_of_mem isMade) o'.id
        (List.mem_map_of_mem old) same.symm
    have known : o' ∈ s.placed → o'.id ∈ s.book.userOrders.get o'.username [] := fun old => by
      refine stable.listed o' old ?_
      have ids := ((insertOrder_perm s.book o).map (fun o => o.id)).mem_iff.mp inBook
      exact (List.mem_cons.mp ids).resolve_left (other old)
    rcases List.mem_append.mp placed with old | new
    · split
      · rename_i owner
        exact List.mem_append_left _ (owner ▸ known old)
      · exact known old
    · rw [List.mem_singleton.mp new, if_pos rfl]
      exact List.mem_append_right _ (List.mem_singleton_self _)
  · have arrived : survivors (loaded ++ (s.placed ++ [o])) taken p =
        survivors (loaded ++ s.placed) taken p ++ if p = o.product then [o] else [] := by
      unfold survivors
      rw [← List.append_assoc, List.filter_append]
      congr 1
      by_cases here : p = o.product
      · rw [if_pos here, List.filter_cons_of_pos, List.filter_nil]
        simp only [here, true_and, decide_eq_true_eq]
        exact fun gone => (stable.spent o.id gone).2 o isMade rfl
      · rw [if_neg here, List.filter_cons_of_neg (by simp [Ne.symm here]), List.filter_nil]
    show (sortByTimestamp (survivors (loaded ++ (s.placed ++ [o])) taken p)).map particulars = _
    rw [arrived, list]
    split
    · rename_i here
      subst here
      exact sort_concat (stable.sorted o.product) (stable.chronological o.product)
    · rw [List.append_nil]
      exact stable.sorted p

end Steps

section Removal

/-- What was removed is in no list. -/
theorem removeOrderById_gone {book : OrderBook R} (mirrored : book.Mirrored) {u : Str} {i : Nat}
    (listed : i ∈ book.userOrders.get u []) {o : OrderBookEntry R}
    (left : o ∈ (book.removeOrderById u i).2.getAllOrders) : o.id ≠ i := by
  obtain ⟨removed, inBook, rfl, rfl⟩ := mirrored.refers u i listed
  obtain ⟨book', eq, perm, -⟩ := removeOrderById_of_listed mirrored inBook listed
  have distinct := (perm.map (fun o => o.id)).nodup_iff.mp mirrored.distinct
  rw [eq] at left
  exact fun same => (List.nodup_cons.mp distinct).1 (List.mem_map.mpr ⟨o, left, same⟩)

variable {loaded : List (OrderBookEntry R)} {taken : List Nat} {s : BookRun R}

/-- `removeOrderById` takes the order that was placed for the user under the id, if it is there. -/
theorem removeOrderById_kept (stable : Stable loaded taken s) (username : Str) (i : Nat) (p : Str) :
    (s.book.removeOrderById username i).2.orders p = (s.book.orders p).filter fun o =>
      o.id ∉ if ∃ o ∈ s.placed, o.username = username ∧ o.id = i then [i] else [] := by
  have mirrored := stable.tracked.mirrored
  by_cases listed : i ∈ s.book.userOrders.get username []
  · have placed : ∃ o ∈ s.placed, o.username = username ∧ o.id = i := by
      obtain ⟨o, ofUser, same⟩ := List.mem_map.mp ((stable.tracked.inOrder username).subset listed)
      obtain ⟨member, owner⟩ := List.mem_filter.mp ofUser
      exact ⟨o, member, of_decide_eq_true owner, same⟩
    rw [if_pos placed]
    refine ListFacts.eq_filter_of_sublist ((stable.tracked.list_nodup p).of_map _)
      (removeOrderById_orders mirrored _ _ p) fun o' member => ?_
    rw [decide_eq_true_eq, List.mem_singleton]
    refine ⟨mem_removeOrderById mirrored member, fun left => ?_⟩
    exact removeOrderById_gone mirrored listed (mem_getAllOrders.mpr ⟨p, left⟩)
  · rw [removeOrderById_of_not_listed listed]
    refine (List.filter_eq_self.mpr fun o' member => ?_).symm
    split
    · rename_i placed
      obtain ⟨o, member', rfl, rfl⟩ := placed
      simpa using stable.unlisted member' listed p o' member
    · simp

variable [Zero R] [Add R] [Sub R] [Mul R] [LT R] [LE R] [DecidableLT R] [DecidableLE R] [BEq R]

theorem removeOrderById_stable (stable : Stable loaded taken s) (username : Str) (i : Nat) :
    Stable loaded (taken ++ s.takes (.removeOrderById username i)) (s.step (.removeOrderById username i)) := by
  have mirrored := stable.tracked.mirrored
  have kept := removeOrderById_kept stable username i
  refine shrink_stable stable (removeOrderById_tracked stable.tracked username i) le_rfl ?_ ?_
    fun p => by rw [kept p]; rfl
  · intro j member
    simp only [takes] at member
    split at member
    · rename_i placed
      obtain ⟨o, placed, -, same⟩ := placed
      exact ⟨o, List.mem_append_right _ placed, same.trans (List.mem_singleton.mp member).symm⟩
    · cases member
  · intro o placed inBook known
    by_cases listed : i ∈ s.book.userOrders.get username []
    · obtain ⟨o', inBook', same⟩ := List.mem_map.mp inBook
      have other : o.id ≠ i := same ▸ removeOrderById_gone mirrored listed inBook'
      obtain ⟨removed, inOld, rfl, rfl⟩ := mirrored.refers username i listed
      obtain ⟨book', eq, -, -, index, -⟩ := removeOrderById_of_listed mirrored inOld listed
      rw [eq, get_of_lookup_index index]
      split
      · exact (List.mem_erase_of_ne other).mpr known
      · exact known
    · rwa [removeOrderById_of_not_listed listed]

end Removal

section Passes

variable [Zero R] [Add R] [Sub R] [Mul R] [LT R] [LE R] [DecidableLT R] [DecidableLE R] [BEq R]

variable {loaded : List (OrderBookEntry R)} {taken : List Nat} {s : BookRun R}

omit [Add R] [Sub R] [Mul R] [LT R] [DecidableLT R] [BEq R] in
/-- Of the written list of a product, the orders without a positive amount left are taken. -/
theorem filled_kept {book : OrderBook R} {product : Str} {middle : OrderBook R} {l : List (OrderBookEntry R)}
    (written : book.Written product middle l) (mirrored : book.Mirrored) (p : Str) :
    ((middle.removeMatchedOrders product).orders p).map particulars = ((book.orders p).filter fun o =>
      o.id ∉ (l.filter fun o => o.amount ≤ 0).map fun o => o.id).map particulars := by
  have ids : ∀ more : List Nat, ((middle.orders p).filter fun o => o.id ∉ more).map particulars =
      ((book.orders p).filter fun o => o.id ∉ more).map particulars := by
    intro more
    have filtered : ∀ l : List (OrderBookEntry R), (l.filter fun o => o.id ∉ more).map particulars =
        (l.map particulars).filter fun x => x.2.2.2.2.2 ∉ more := fun l => by
      rw [List.filter_map]
      rfl
    rw [filtered, filtered, written.fields fun _ _ => rfl]
  have distinct := (written.mirrored mirrored).distinct
  have inMiddle : ∀ {o}, o ∈ l → o ∈ middle.orders product := fun member => by
    rwa [written.2.2.1, if_pos rfl]
  rw [← ids, removeMatchedOrders_orders]
  split
  · rename_i here
    subst here
    refine congrArg (List.map particulars) (List.filter_congr fun o member => ?_)
    refine decide_eq_decide.mpr ⟨fun left gone => ?_, fun left filled => left ?_⟩
    · obtain ⟨o', member', same⟩ := List.mem_map.mp gone
      obtain ⟨inList, filled⟩ := List.mem_filter.mp member'
      have := eq_of_id distinct (mem_getAllOrders.mpr ⟨p, inMiddle inList⟩)
        (mem_getAllOrders.mpr ⟨p, member⟩) same
      exact left (this ▸ of_decide_eq_true filled)
    · rw [written.2.2.1, if_pos rfl] at member
      exact List.mem_map.mpr ⟨o, List.mem_filter.mpr ⟨member, decide_eq_true filled⟩, rfl⟩
  · rename_i other
    refine congrArg (List.map particulars) (List.filter_eq_self.mpr fun o member => decide_eq_true ?_).symm
    intro gone
    obtain ⟨o', member', same⟩ := List.mem_map.mp gone
    have inList := inMiddle (List.mem_of_mem_filter member')
    have := eq_of_id distinct (mem_getAllOrders.mpr ⟨product, inList⟩) (mem_getAllOrders.mpr ⟨p, member⟩) same
    have filed := (written.mirrored mirrored).filed
    exact other ((filed p o member).symm.trans (this ▸ filed product o' inList))

theorem matchAsksToBids_stable (stable : Stable loaded taken s) (std : StdSort (EntryPtr R))
    (product currentTimestamp : Str) (userStore : UserStore R) :
    Stable loaded (taken ++ s.takes (.matchAsksToBids std product currentTimestamp userStore))
      (s.step (.matchAsksToBids std product currentTimestamp userStore)) := by
  have tracked := matchAsksToBids_tracked stable.tracked std product currentTimestamp userStore
  have later := matchAsksToBids_nextId std s.book product currentTimestamp userStore s.nextId
  obtain ⟨outcome, middle, written, eq⟩ :=
    matchAsksToBids_written std s.book product currentTimestamp userStore s.nextId
  have mirrored := written.mirrored stable.tracked.mirrored
  simp only [takes]
  cases returned :
      (passLoop std (s.book.orders product) product currentTimestamp userStore s.nextId).result with
  | error e =>
    replace eq := eq.trans (show _ = middle by rw [outcome, returned]; rfl)
    refine shrink_stable stable tracked later (fun _ none' => nomatch none') (fun o _ _ known => ?_) fun p => ?_
    · rw [eq]
      exact written.2.2.2 ▸ known
    · rw [eq, List.filter_eq_self.mpr fun o _ => decide_eq_true (List.not_mem_nil)]
      exact written.fields (fun _ _ => rfl) p
  | ok u =>
    replace eq := eq.trans (show _ = middle.removeMatchedOrders product by rw [outcome, returned]; rfl)
    refine shrink_stable stable tracked later (fun i gone => ?_) (fun o placed inBook known => ?_) fun p => ?_
    · obtain ⟨o', filled, rfl⟩ := List.mem_map.mp gone
      obtain ⟨o, member, x, rfl⟩ := ListFacts.forall₂_mem_right written.1 (List.mem_of_mem_filter filled)
      exact ⟨o, List.mem_append_left _ (mem_getAllOrders.mpr ⟨product, member⟩), rfl⟩
    · -- an order that is left was not taken out of the index either
      rw [eq] at inBook ⊢
      rw [get_removeMatchedOrders, List.mem_filter, decide_eq_true_eq]
      refine ⟨written.2.2.2 ▸ known, ?_⟩
      rintro ⟨filled, inList, nothing, -, same⟩
      obtain ⟨o', left, same'⟩ := List.mem_map.mp inBook
      obtain ⟨old, open'⟩ := (mem_removeMatchedOrders mirrored).mp left
      have := eq_of_id mirrored.distinct (mem_getAllOrders.mpr ⟨product, inList⟩) old (same.trans same'.symm)
      exact open' (this ▸ ⟨inList, nothing⟩)
    · rw [eq]
      exact filled_kept written stable.tracked.mirrored p

theorem step_stable (stable : Stable loaded taken s) (call : BookCall R) :
    Stable loaded (taken ++ s.takes call) (s.step call) := by
  cases call with
  | construct price amount timestamp product orderType username =>
    rw [takes, List.append_nil]
    refine ⟨step_tracked stable.tracked _, stable.chronological,
      fun o member => Nat.lt_succ_of_lt (stable.below o member), fun o member o' old => ?_,
      fun i member => ?_, stable.listed, stable.sorted⟩
    · simp only [step, List.mem_append, List.mem_singleton] at member
      rcases member with (earlier | rfl) | placed
      · exact stable.apart o (List.mem_append_left _ earlier) o' old
      · exact (stable.below o' old).ne
      · exact stable.apart o (List.mem_append_right _ placed) o' old
    · obtain ⟨below, unmade⟩ := stable.spent i member
      refine ⟨Nat.lt_succ_of_lt below, fun o isMade => ?_⟩
      rcases List.mem_append.mp isMade with earlier | new
      · exact unmade o earlier
      · rw [List.mem_singleton.mp new]
        exact below.ne'
  | insertOrder n =>
    rw [takes, List.append_nil]
    simp only [step]
    cases chosen : s.made[n]? with
    | none => exact stable
    | some o => exact insertOrder_stable stable chosen
  | removeOrderById username i => exact removeOrderById_stable stable username i
  | matchAsksToBids std product currentTimestamp userStore =>
    exact matchAsksToBids_stable stable std product currentTimestamp userStore

theorem run_stable (stable : Stable loaded taken s) (calls : List (BookCall R)) :
    Stable loaded (taken ++ s.takenBy calls) (s.run calls) := by
  induction calls generalizing taken s with
  | nil => rwa [takenBy, List.append_nil]
  | cons call calls ih =>
    rw [takenBy, ← List.append_assoc]
    exact ih (step_stable stable call)

/-- After any sequence of calls on a book from the constructor, the list of every product is the
stable sort by timestamp of the orders that have arrived and that no call has taken out, in the order of
their arrival, the lines of the file first; of an order that has been filled in part only the amount has
changed. -/
theorem lists_stable (env : Env R) {filename : Str} {file : Option Str} {first nextId : Nat}
    {book : OrderBook R} (made : OrderBook.make env filename file first = .ok (book, nextId))
    (calls : List (BookCall R)) :
    ∃ loaded, readEntries env (Str.getlines 10 (file.getD [])) first = .ok (loaded, nextId) ∧
      let s := (start book nextId).run calls
      let taken := (start book nextId).takenBy calls
      ∀ p, List.Forall₂ SameOrder (sortByTimestamp (survivors (loaded ++ s.placed) taken p))
        (s.book.orders p) := by
  obtain ⟨loaded, read, stable⟩ := start_stable made
  exact ⟨loaded, read, fun p => sameOrder_of_particulars ((run_stable stable calls).sorted p)⟩

end Passes

/-- The second of three orders has the earliest timestamp, and the first is removed. -/
def late : List (BookCall ℚ) :=
  [.construct 4 1 (str "2") (str "BTC/USD") .ask (str "bob"),
    .construct 5 1 (str "1") (str "BTC/USD") .ask (str "bob"),
    .construct 6 1 (str "2") (str "BTC/USD") .ask (str "bob"),
    .insertOrder 0, .insertOrder 0, .insertOrder 0, .removeOrderById (str "bob") 1]

theorem lists_stable_late : ∃ loaded,
    let s := (start ⟨str "orders.csv", [], ∅, ∅⟩ 1).run late
    (start ⟨str "orders.csv", [], ∅, ∅⟩ 1).takenBy late = [1] ∧
    List.Forall₂ SameOrder (sortByTimestamp (survivors (loaded ++ s.placed) [1] (str "BTC/USD")))
      (s.book.orders (str "BTC/USD")) ∧
    (s.book.orders (str "BTC/USD")).map (fun o => o.id) = [2, 3] := by
  obtain ⟨loaded, -, stable⟩ := lists_stable exactEnv (System.fresh_book exactEnv) late
  have taken : (start ⟨str "orders.csv", [], ∅, ∅⟩ 1).takenBy late = [1] := by decide +kernel
  have sorted := stable (str "BTC/USD")
  rw [taken] at sorted
  exact ⟨loaded, taken, sorted, by decide +kernel⟩

end BookRun

end MiniATS
