import MiniATS.Server.OrderBook

/-!
# The index mirrors the product lists

`Indexed` is what the order book keeps of its two containers: ids are distinct, every order
is filed under its own product, and the vector of a user holds exactly the ids of that
user's orders, once each. Orders of `default` are in no vector: they come from the file and
not through `insertOrder`. Each operation that changes the containers keeps it, and what it
does to the lists is said up to a permutation of `getAllOrders`.
-/

namespace MiniATS

namespace OrderBook

variable {R : Type}

/-- The orders of all products but one. -/
def others (book : OrderBook R) (product : Str) : List (OrderBookEntry R) :=
  KeyedMap.flat (book.orderMap.erase product)

theorem getAllOrders_perm (book : OrderBook R) (product : Str) :
    book.getAllOrders.Perm (book.orders product ++ book.others product) :=
  KeyedMap.flat_perm book.orderMap product

/-- All orders after the list of one product has been replaced. -/
theorem getAllOrders_insert_perm (book : OrderBook R) {book' : OrderBook R} {product : Str}
    {l : List (OrderBookEntry R)} (replaced : book'.orderMap = book.orderMap.insert product l) :
    book'.getAllOrders.Perm (l ++ book.others product) := by
  unfold getAllOrders
  rw [replaced]
  exact KeyedMap.flat_insert_perm book.orderMap product l

theorem orders_insert (book : OrderBook R) {book' : OrderBook R} {product : Str}
    {l : List (OrderBookEntry R)} (replaced : book'.orderMap = book.orderMap.insert product l)
    (p : Str) : book'.orders p = if p = product then l else book.orders p := by
  unfold orders
  rw [replaced, KeyedMap.get_insert]

theorem mem_getAllOrders {book : OrderBook R} {o : OrderBookEntry R} :
    o ∈ book.getAllOrders ↔ ∃ p, o ∈ book.orders p :=
  KeyedMap.mem_flat

theorem orders_of_lookup {book : OrderBook R} {product : Str} {l : List (OrderBookEntry R)}
    (found : book.orderMap.lookup product = some l) : book.orders product = l :=
  KeyedMap.get_of_lookup found []

theorem orders_of_lookup_none {book : OrderBook R} {product : Str}
    (missing : book.orderMap.lookup product = none) : book.orders product = [] := by
  simp [orders, KeyedMap.get, missing]

/-- The containers of the book agree with one another: the index refers to the orders of the
lists, and to all of them but those that were loaded for `default`. -/
structure Mirrored (book : OrderBook R) : Prop where
  distinct : (book.getAllOrders.map (fun o => o.id)).Nodup
  filed : ∀ p, ∀ o ∈ book.orders p, o.product = p
  refers : ∀ u, ∀ i ∈ book.userOrders.get u [], ∃ o ∈ book.getAllOrders, o.username = u ∧ o.id = i
  complete : ∀ o ∈ book.getAllOrders, o.username ≠ defaultUser →
    o.id ∈ book.userOrders.get o.username []
  once : ∀ u, (book.userOrders.get u []).Nodup
  nonempty : ∀ u vec, book.userOrders.lookup u = some vec → vec ≠ []

/-- The book of a server: nothing is placed for `default`. -/
structure Indexed (book : OrderBook R) : Prop extends Mirrored book where
  unlisted : book.userOrders.get defaultUser [] = []

theorem Mirrored.mirrors {book : OrderBook R} (mirrored : book.Mirrored) (u : Str)
    (user : u ≠ defaultUser) (i : Nat) : i ∈ book.userOrders.get u [] ↔
      ∃ o ∈ book.getAllOrders, o.username = u ∧ o.id = i := by
  constructor
  · exact mirrored.refers u i
  · rintro ⟨o, inBook, rfl, rfl⟩
    exact mirrored.complete o inBook user

section Deref

variable {book : OrderBook R}

theorem eq_of_id (distinct : (book.getAllOrders.map (fun o => o.id)).Nodup)
    {o o' : OrderBookEntry R} (inBook : o ∈ book.getAllOrders) (inBook' : o' ∈ book.getAllOrders)
    (same : o.id = o'.id) : o = o' :=
  List.inj_on_of_nodup_map distinct inBook inBook' same

theorem deref_eq_some (distinct : (book.getAllOrders.map (fun o => o.id)).Nodup) {id : Nat}
    {o : OrderBookEntry R} : book.deref id = some o ↔ o ∈ book.getAllOrders ∧ o.id = id := by
  unfold deref
  constructor
  · intro found
    exact ⟨List.mem_of_find?_eq_some found, by simpa using List.find?_some found⟩
  · rintro ⟨inBook, rfl⟩
    cases found : book.getAllOrders.find? (fun e => e.id == o.id) with
    | none => simpa using List.find?_eq_none.mp found o inBook
    | some o' =>
      have same : o'.id = o.id := by simpa using List.find?_some found
      rw [eq_of_id distinct (List.mem_of_find?_eq_some found) inBook same]

/-- A user's orders are the orders of the lists that carry the user's name. -/
theorem mem_getOrdersForUser (indexed : book.Mirrored) {u : Str} (user : u ≠ defaultUser)
    {o : OrderBookEntry R} :
    o ∈ book.getOrdersForUser u ↔ o ∈ book.getAllOrders ∧ o.username = u := by
  simp only [getOrdersForUser, List.mem_filterMap, deref_eq_some indexed.distinct]
  constructor
  · rintro ⟨i, listed, inBook, rfl⟩
    obtain ⟨o', inBook', owner, same⟩ := (indexed.mirrors u user _).mp listed
    rw [← eq_of_id indexed.distinct inBook' inBook same]
    exact ⟨inBook', owner⟩
  · rintro ⟨inBook, owner⟩
    exact ⟨o.id, (indexed.mirrors u user _).mpr ⟨o, inBook, owner, rfl⟩, inBook, rfl⟩

end Deref

section Insert

theorem insertInto_perm (l : List (OrderBookEntry R)) (o : OrderBookEntry R) :
    (insertInto l o).Perm (o :: l) := by
  have late : (insertLate l o).Perm (o :: l) := by
    unfold insertLate
    refine List.perm_middle.trans (List.Perm.cons o ?_)
    rw [← List.reverse_append, List.takeWhile_append_dropWhile, List.reverse_reverse]
  unfold insertInto
  split
  · exact List.perm_append_singleton o l
  · split
    · exact List.perm_append_singleton o l
    · exact late

theorem insertOrder_perm (book : OrderBook R) (o : OrderBookEntry R) :
    (book.insertOrder o).getAllOrders.Perm (o :: book.getAllOrders) := by
  apply (getAllOrders_insert_perm book rfl).trans
  apply ((insertInto_perm _ o).append_right _).trans
  exact List.Perm.cons o (getAllOrders_perm book o.product).symm

theorem insertOrder_orders (book : OrderBook R) (o : OrderBookEntry R) (p : Str) :
    (book.insertOrder o).orders p =
      if p = o.product then insertInto (book.orders o.product) o else book.orders p :=
  orders_insert book rfl p

/-- An insertion keeps the orders of every list. -/
theorem mem_insertOrder {book : OrderBook R} {o o' : OrderBookEntry R} {p : Str}
    (member : o' ∈ book.orders p) : o' ∈ (book.insertOrder o).orders p := by
  rw [insertOrder_orders]
  split
  · subst_vars
    exact (insertInto_perm _ o).mem_iff.mpr (List.mem_cons_of_mem _ member)
  · exact member

theorem get_insertOrder_userOrders (book : OrderBook R) (o : OrderBookEntry R) (u : Str) :
    (book.insertOrder o).userOrders.get u [] =
      if u = o.username then book.userOrders.get u [] ++ [o.id] else book.userOrders.get u [] := by
  unfold insertOrder
  rw [KeyedMap.get_insert]
  split
  · subst_vars
    rfl
  · rfl

theorem insertOrder_mirrored {book : OrderBook R} (mirrored : book.Mirrored) {o : OrderBookEntry R}
    (fresh : ∀ o' ∈ book.getAllOrders, o'.id ≠ o.id) : (book.insertOrder o).Mirrored where
  distinct := by
    apply ((insertOrder_perm book o).map _).nodup_iff.mpr
    simp only [List.map_cons, List.nodup_cons, List.mem_map, not_exists, not_and]
    exact ⟨fresh, mirrored.distinct⟩
  filed := by
    intro p o' member
    rw [orders_insert book rfl] at member
    split at member
    · rcases List.mem_cons.mp ((insertInto_perm _ o).mem_iff.mp member) with rfl | member
      · exact Eq.symm ‹_›
      · rw [mirrored.filed _ o' member]
        exact Eq.symm ‹_›
    · exact mirrored.filed p o' member
  refers := by
    intro u i listed
    rw [get_insertOrder_userOrders] at listed
    simp only [(insertOrder_perm book o).mem_iff, List.mem_cons, exists_eq_or_imp]
    split at listed
    · rcases List.mem_append.mp listed with old | new
      · exact Or.inr (mirrored.refers u i old)
      · exact Or.inl ⟨Eq.symm ‹_›, (List.mem_singleton.mp new).symm⟩
    · exact Or.inr (mirrored.refers u i listed)
  complete := by
    intro o' inBook user
    rw [get_insertOrder_userOrders]
    rcases List.mem_cons.mp ((insertOrder_perm book o).mem_iff.mp inBook) with rfl | old
    · simp
    · have listed := mirrored.complete o' old user
      split
      · exact List.mem_append_left _ listed
      · exact listed
  once := by
    intro u
    rw [get_insertOrder_userOrders]
    split
    · refine List.nodup_append.mpr ⟨mirrored.once u, by simp, ?_⟩
      rintro i listed j isNew rfl
      obtain rfl := List.mem_singleton.mp isNew
      obtain ⟨o', inBook, -, same⟩ := mirrored.refers u _ listed
      exact fresh o' inBook same
    · exact mirrored.once u
  nonempty := by
    intro u vec found
    unfold insertOrder at found
    rw [KeyedMap.lookup_insert_eq] at found
    split at found
    · obtain rfl := Option.some.inj found
      simp
    · exact mirrored.nonempty u vec found

theorem insertOrder_indexed {book : OrderBook R} (indexed : book.Indexed) {o : OrderBookEntry R}
    (fresh : ∀ o' ∈ book.getAllOrders, o'.id ≠ o.id) (user : o.username ≠ defaultUser) :
    (book.insertOrder o).Indexed where
  toMirrored := insertOrder_mirrored indexed.toMirrored fresh
  unlisted := by
    rw [get_insertOrder_userOrders, if_neg (Ne.symm user), indexed.unlisted]

end Insert

section Remove

theorem get_setUserVec (m : KeyedMap Str (List Nat)) (u v : Str) (vec : List Nat) :
    (setUserVec m u vec).get v [] = if v = u then vec else m.get v [] := by
  unfold setUserVec
  by_cases empty : vec = []
  · simp [empty, KeyedMap.get_erase]
  · simp [empty, KeyedMap.get_insert]

theorem lookup_setUserVec (m : KeyedMap Str (List Nat)) (u v : Str) (vec : List Nat) :
    (setUserVec m u vec).lookup v =
      if v = u then if vec = [] then none else some vec else m.lookup v := by
  unfold setUserVec
  by_cases empty : vec = []
  · by_cases same : v = u
    · subst same
      simp [empty, AList.lookup_erase]
    · simp [empty, same, AList.lookup_erase_ne same]
  · simp [empty, KeyedMap.lookup_insert_eq]

theorem get_removeFromUserIndex (m : KeyedMap Str (List Nat)) (u v : Str) (id : Nat) :
    (removeFromUserIndex m u id).get v [] =
      if v = u then (m.get v []).filter (fun i => i != id) else m.get v [] := by
  unfold removeFromUserIndex
  cases found : m.lookup u with
  | none =>
    simp only
    split
    · subst_vars
      simp [KeyedMap.get, found]
    · rfl
  | some vec =>
    simp only [get_setUserVec]
    split
    · subst_vars
      simp [KeyedMap.get, found]
    · rfl

variable {book : OrderBook R}

/-- `removeOrderById` removes the order that the index has for the user under the id. -/
theorem removeOrderById_of_listed (mirrored : book.Mirrored) {o : OrderBookEntry R}
    (inBook : o ∈ book.getAllOrders) (listed : o.id ∈ book.userOrders.get o.username []) :
    ∃ book', book.removeOrderById o.username o.id = (true, book') ∧
      book.getAllOrders.Perm (o :: book'.getAllOrders) ∧
      (∀ p, book'.orders p =
        if p = o.product then (book.orders p).eraseP (fun e => e.id == o.id) else book.orders p) ∧
      (∀ u, book'.userOrders.lookup u =
        if u = o.username then
          let vec := (book.userOrders.get u []).erase o.id
          if vec = [] then none else some vec
        else book.userOrders.lookup u) ∧
      book'.finalizedSales = book.finalizedSales ∧ book'.filename = book.filename := by
  obtain ⟨vec, found⟩ : ∃ vec, book.userOrders.lookup o.username = some vec := by
    cases found : book.userOrders.lookup o.username with
    | none => simp [KeyedMap.get, found] at listed
    | some vec => exact ⟨vec, rfl⟩
  have inVec : o.id ∈ vec := by
    rwa [KeyedMap.get_of_lookup found] at listed
  have entry : vec.find? (fun entry => entry == o.id) = some o.id := by
    cases at' : vec.find? (fun entry => entry == o.id) with
    | none => simpa using List.find?_eq_none.mp at' o.id inVec
    | some i =>
      have : i = o.id := by simpa using List.find?_some at'
      rw [this]
  have target : book.deref o.id = some o := (deref_eq_some mirrored.distinct).mpr ⟨inBook, rfl⟩
  have inList : o ∈ book.orders o.product := by
    obtain ⟨p, member⟩ := mem_getAllOrders.mp inBook
    rwa [mirrored.filed p o member]
  obtain ⟨l, lookup⟩ : ∃ l, book.orderMap.lookup o.product = some l := by
    cases lookup : book.orderMap.lookup o.product with
    | none => simp [orders_of_lookup_none lookup] at inList
    | some l => exact ⟨l, rfl⟩
  have inList' : o ∈ l := by
    rwa [orders_of_lookup lookup] at inList
  have present : l.any (fun e => e.id == o.id) = true :=
    List.any_eq_true.mpr ⟨o, inList', by simp⟩
  let book' : OrderBook R := { book with
    orderMap := book.orderMap.insert o.product (l.eraseP (fun e => e.id == o.id))
    userOrders := setUserVec book.userOrders o.username (vec.erase o.id) }
  refine ⟨book', by simp only [removeOrderById, found, entry, target, lookup, present, if_true, book'],
    ?_, ?_, ?_, rfl, rfl⟩
  · have split : l.Perm (o :: l.eraseP (fun e => e.id == o.id)) := by
      obtain ⟨x, before, after, -, hit, whole, erased⟩ :=
        List.exists_of_eraseP (p := fun e => e.id == o.id) inList' (by simp)
      have inBook' : x ∈ book.getAllOrders :=
        mem_getAllOrders.mpr ⟨o.product, by rw [orders_of_lookup lookup, whole]; simp⟩
      obtain rfl : x = o := eq_of_id mirrored.distinct inBook' inBook (by simpa using hit)
      rw [erased]
      rw [whole]
      exact List.perm_middle
    apply (getAllOrders_perm book o.product).trans
    rw [orders_of_lookup lookup]
    apply (split.append_right _).trans
    exact List.Perm.cons o (getAllOrders_insert_perm book rfl).symm
  · intro p
    rw [orders_insert book rfl]
    split
    · subst_vars
      rw [orders_of_lookup lookup]
    · rfl
  · intro u
    simp only [book', lookup_setUserVec]
    split
    · subst_vars
      rw [KeyedMap.get_of_lookup found]
    · rfl

theorem get_of_lookup_index {m m' : KeyedMap Str (List Nat)} {u : Str} {id : Nat}
    (index : ∀ v, m'.lookup v =
      if v = u then
        let vec := (m.get v []).erase id
        if vec = [] then none else some vec
      else m.lookup v) (v : Str) :
    m'.get v [] = if v = u then (m.get v []).erase id else m.get v [] := by
  have lookup := index v
  by_cases owner : v = u
  · rw [if_pos owner] at lookup ⊢
    generalize (m.get v []).erase id = vec at lookup
    by_cases empty : vec = []
    · simp [KeyedMap.get, lookup, empty]
    · simp [KeyedMap.get, lookup, empty]
  · rw [if_neg owner] at lookup ⊢
    simp only [KeyedMap.get, lookup]

/-- `removeOrderById` removes the user's order with the id when there is one. -/
theorem removeOrderById_of_mem (indexed : book.Indexed) {o : OrderBookEntry R}
    (inBook : o ∈ book.getAllOrders) (user : o.username ≠ defaultUser) :
    ∃ book', book.removeOrderById o.username o.id = (true, book') ∧
      book.getAllOrders.Perm (o :: book'.getAllOrders) ∧
      (∀ p, book'.orders p =
        if p = o.product then (book.orders p).eraseP (fun e => e.id == o.id) else book.orders p) ∧
      (∀ u, book'.userOrders.get u [] =
        if u = o.username then (book.userOrders.get u []).erase o.id else book.userOrders.get u []) ∧
      book'.finalizedSales = book.finalizedSales ∧ book'.filename = book.filename := by
  obtain ⟨book', removed, perm, lists, index, rest⟩ :=
    removeOrderById_of_listed indexed.toMirrored inBook (indexed.complete o inBook user)
  exact ⟨book', removed, perm, lists, get_of_lookup_index index, rest⟩

/-- `removeOrderById` of an id that the index does not have for the user does nothing. -/
theorem removeOrderById_of_not_listed {u : Str} {id : Nat}
    (missing : id ∉ book.userOrders.get u []) : book.removeOrderById u id = (false, book) := by
  cases found : book.userOrders.lookup u with
  | none => simp [removeOrderById, found]
  | some vec =>
    have none' : vec.find? (fun entry => entry == id) = none := by
      refine List.find?_eq_none.mpr fun i member => ?_
      rintro same
      obtain rfl : i = id := by simpa using same
      exact missing (by rwa [KeyedMap.get_of_lookup found])
    simp [removeOrderById, found, none']

/-- `removeOrderById` of an id the user has no order with does nothing. -/
theorem removeOrderById_of_not_mem (indexed : book.Indexed) {u : Str}
    {id : Nat} (missing : ∀ o ∈ book.getAllOrders, o.username = u → o.id ≠ id) :
    book.removeOrderById u id = (false, book) := by
  apply removeOrderById_of_not_listed
  intro listed
  obtain ⟨o, inBook, owner, same⟩ := indexed.refers u id listed
  exact missing o inBook owner same

theorem Mirrored.of_removed (mirrored : book.Mirrored) {book' : OrderBook R} {o : OrderBookEntry R}
    (perm : book.getAllOrders.Perm (o :: book'.getAllOrders))
    (lists : ∀ p, ∀ o' ∈ book'.orders p, o' ∈ book.orders p)
    (index : ∀ u, book'.userOrders.lookup u =
      if u = o.username then
        let vec := (book.userOrders.get u []).erase o.id
        if vec = [] then none else some vec
      else book.userOrders.lookup u) : book'.Mirrored := by
  have fresh := (List.nodup_cons.mp ((perm.map (fun o => o.id)).nodup_iff.mp mirrored.distinct)).1
  have get : ∀ u, book'.userOrders.get u [] =
      if u = o.username then (book.userOrders.get u []).erase o.id else book.userOrders.get u [] :=
    get_of_lookup_index index
  refine ⟨?_, fun p o' member => mirrored.filed p o' (lists p o' member), ?_, ?_, ?_, ?_⟩
  · exact (List.nodup_cons.mp ((perm.map (fun o => o.id)).nodup_iff.mp mirrored.distinct)).2
  · intro u i listed
    rw [get] at listed
    have keep : ∀ o' ∈ book.getAllOrders, o' ≠ o → o' ∈ book'.getAllOrders :=
      fun o' inBook other => (List.mem_cons.mp (perm.mem_iff.mp inBook)).resolve_left other
    split at listed
    · obtain ⟨different, old⟩ := (mirrored.once u).mem_erase_iff.mp listed
      obtain ⟨o', inBook, owner, rfl⟩ := mirrored.refers u i old
      exact ⟨o', keep o' inBook fun same => different (by rw [same]), owner, rfl⟩
    · obtain ⟨o', inBook, owner, same⟩ := mirrored.refers u i listed
      refine ⟨o', keep o' inBook ?_, owner, same⟩
      rintro rfl
      exact absurd owner.symm ‹_›
  · intro o' inBook user
    have listed := mirrored.complete o' (perm.mem_iff.mpr (List.mem_cons_of_mem _ inBook)) user
    rw [get]
    split
    · refine (mirrored.once _).mem_erase_iff.mpr ⟨fun same => ?_, listed⟩
      exact fresh (List.mem_map.mpr ⟨o', inBook, same⟩)
    · exact listed
  · intro u
    rw [get]
    split
    · exact (mirrored.once u).erase _
    · exact mirrored.once u
  · intro u vec found
    rw [index] at found
    split at found
    · dsimp only at found
      split at found
      · cases found
      · rw [← Option.some.inj found]
        assumption
    · exact mirrored.nonempty u vec found

theorem removeOrderById_lists {book' : OrderBook R} {o : OrderBookEntry R}
    (lists : ∀ p, book'.orders p =
      if p = o.product then (book.orders p).eraseP (fun e => e.id == o.id) else book.orders p)
    (p : Str) (o' : OrderBookEntry R) (member : o' ∈ book'.orders p) : o' ∈ book.orders p := by
  rw [lists] at member
  split at member
  · exact List.mem_of_mem_eraseP member
  · exact member

theorem removeOrderById_mirrored (mirrored : book.Mirrored) (u : Str) (id : Nat) :
    (book.removeOrderById u id).2.Mirrored := by
  by_cases listed : id ∈ book.userOrders.get u []
  · obtain ⟨o, inBook, rfl, rfl⟩ := mirrored.refers u id listed
    obtain ⟨book', removed, perm, lists, index, -⟩ := removeOrderById_of_listed mirrored inBook listed
    rw [removed]
    exact mirrored.of_removed perm (removeOrderById_lists lists) index
  · rw [removeOrderById_of_not_listed listed]
    exact mirrored

theorem removeOrderById_indexed (indexed : book.Indexed) {u : Str} (user : u ≠ defaultUser)
    (id : Nat) : (book.removeOrderById u id).2.Indexed := by
  refine ⟨removeOrderById_mirrored indexed.toMirrored u id, ?_⟩
  by_cases listed : id ∈ book.userOrders.get u []
  · obtain ⟨o, inBook, rfl, rfl⟩ := indexed.refers u id listed
    obtain ⟨book', removed, -, -, index, -⟩ := removeOrderById_of_mem indexed inBook user
    rw [removed, index, if_neg (Ne.symm user), indexed.unlisted]
  · rw [removeOrderById_of_not_listed listed]
    exact indexed.unlisted

theorem removeOrderById_subset (mirrored : book.Mirrored) (u : Str) (id : Nat) :
    (book.removeOrderById u id).2.getAllOrders ⊆ book.getAllOrders := by
  by_cases listed : id ∈ book.userOrders.get u []
  · obtain ⟨o, inBook, rfl, rfl⟩ := mirrored.refers u id listed
    obtain ⟨book', removed, perm, -⟩ := removeOrderById_of_listed mirrored inBook listed
    rw [removed]
    exact fun o' member => perm.mem_iff.mpr (List.mem_cons_of_mem _ member)
  · rw [removeOrderById_of_not_listed listed]
    exact List.Subset.refl _

theorem removeOrderById_orders (mirrored : book.Mirrored) (u : Str) (id : Nat) (p : Str) :
    ((book.removeOrderById u id).2.orders p).Sublist (book.orders p) := by
  by_cases listed : id ∈ book.userOrders.get u []
  · obtain ⟨o, inBook, rfl, rfl⟩ := mirrored.refers u id listed
    obtain ⟨book', removed, -, lists, -⟩ := removeOrderById_of_listed mirrored inBook listed
    rw [removed, lists]
    split
    · exact List.eraseP_sublist
    · exact List.Sublist.refl _
  · rw [removeOrderById_of_not_listed listed]

/-- A removal keeps the orders with another id. -/
theorem mem_removeOrderById (mirrored : book.Mirrored) {u p : Str} {id : Nat} {o : OrderBookEntry R}
    (member : o ∈ book.orders p) (other : o.id ≠ id) : o ∈ (book.removeOrderById u id).2.orders p := by
  by_cases listed : id ∈ book.userOrders.get u []
  · obtain ⟨o', inBook, rfl, rfl⟩ := mirrored.refers u id listed
    obtain ⟨book', removed, -, lists, -⟩ := removeOrderById_of_listed mirrored inBook listed
    rw [removed, lists]
    split
    · exact (List.mem_eraseP_of_neg (by simpa using other)).mpr member
    · exact member
  · rw [removeOrderById_of_not_listed listed]
    exact member

theorem removeOrderById_index (mirrored : book.Mirrored) (u : Str) (id : Nat) (v : Str) :
    ((book.removeOrderById u id).2.userOrders.get v []).Sublist (book.userOrders.get v []) := by
  by_cases listed : id ∈ book.userOrders.get u []
  · obtain ⟨o, inBook, rfl, rfl⟩ := mirrored.refers u id listed
    obtain ⟨book', removed, -, -, index, -⟩ := removeOrderById_of_listed mirrored inBook listed
    rw [removed, get_of_lookup_index index]
    split
    · exact List.erase_sublist
    · exact List.Sublist.refl _
  · rw [removeOrderById_of_not_listed listed]

end Remove

section Matched

variable [Zero R] [LE R] [DecidableLE R]

theorem removeMatchedLoop_fst (l : List (OrderBookEntry R)) (m : KeyedMap Str (List Nat)) :
    (removeMatchedLoop l m).1 = l.filter (fun o => ¬ o.amount ≤ 0) := by
  induction l generalizing m with
  | nil => rfl
  | cons o l ih =>
    unfold removeMatchedLoop
    by_cases filled : o.amount ≤ 0
    · simp [filled, ih]
    · simp [filled, ih]

theorem get_removeMatchedLoop_snd (l : List (OrderBookEntry R)) (m : KeyedMap Str (List Nat))
    (u : Str) : (removeMatchedLoop l m).2.get u [] =
      (m.get u []).filter (fun i => ¬ ∃ o ∈ l, o.amount ≤ 0 ∧ o.username = u ∧ o.id = i) := by
  induction l generalizing m with
  | nil => simp [removeMatchedLoop]
  | cons o l ih =>
    unfold removeMatchedLoop
    by_cases filled : o.amount ≤ 0
    · rw [if_pos filled, ih, get_removeFromUserIndex]
      by_cases owner : u = o.username
      · subst owner
        rw [if_pos rfl, List.filter_filter]
        apply List.filter_congr
        intro i _
        have same : (i != o.id) = decide (¬ o.id = i) := by
          simp [bne, beq_eq_decide, eq_comm]
        simp only [List.mem_cons, exists_eq_or_imp, filled, true_and, not_or, same,
          Bool.decide_and, Bool.and_comm]
      · rw [if_neg owner]
        apply List.filter_congr
        intro i _
        simp [filled, Ne.symm owner]
    · rw [if_neg filled]
      refine (ih m).trans (List.filter_congr fun i _ => ?_)
      simp [filled]

variable {book : OrderBook R}

theorem removeMatchedOrders_orders (book : OrderBook R) (product p : Str) :
    (book.removeMatchedOrders product).orders p =
      if p = product then (book.orders p).filter (fun o => ¬ o.amount ≤ 0) else book.orders p := by
  unfold removeMatchedOrders
  cases found : book.orderMap.lookup product with
  | none =>
    simp only
    split
    · subst_vars
      simp [orders_of_lookup_none found]
    · rfl
  | some l =>
    simp only
    rw [orders_insert book rfl]
    split
    · subst_vars
      rw [orders_of_lookup found]
      exact removeMatchedLoop_fst l _
    · rfl

@[simp] theorem removeMatchedOrders_finalizedSales (book : OrderBook R) (product : Str) :
    (book.removeMatchedOrders product).finalizedSales = book.finalizedSales := by
  unfold removeMatchedOrders
  split <;> rfl

theorem removeMatchedOrders_perm (book : OrderBook R) (product : Str) :
    (book.removeMatchedOrders product).getAllOrders.Perm
      ((book.orders product).filter (fun o => ¬ o.amount ≤ 0) ++ book.others product) := by
  cases found : book.orderMap.lookup product with
  | none =>
    have := getAllOrders_perm book product
    rw [orders_of_lookup_none found] at this ⊢
    simpa [removeMatchedOrders, found] using this
  | some l =>
    simp only [removeMatchedOrders, found]
    rw [orders_of_lookup found, ← removeMatchedLoop_fst l book.userOrders]
    exact getAllOrders_insert_perm book rfl

/-- An emptied vector's key is erased. -/
theorem removeMatchedLoop_nonempty (l : List (OrderBookEntry R)) {m : KeyedMap Str (List Nat)}
    (nonempty : ∀ u vec, m.lookup u = some vec → vec ≠ []) (u : Str) (vec : List Nat)
    (found : (removeMatchedLoop l m).2.lookup u = some vec) : vec ≠ [] := by
  induction l generalizing m with
  | nil => exact nonempty u vec found
  | cons o l ih =>
    unfold removeMatchedLoop at found
    split at found
    · refine ih (fun v vec' found' => ?_) found
      unfold removeFromUserIndex at found'
      split at found'
      · exact nonempty v vec' found'
      · rw [lookup_setUserVec] at found'
        split at found'
        · split at found'
          · cases found'
          · rw [← Option.some.inj found']
            assumption
        · exact nonempty v vec' found'
    · exact ih nonempty found

/-- The index after the filled orders of a list were taken out. -/
theorem get_removeMatchedOrders (book : OrderBook R) (product u : Str) :
    (book.removeMatchedOrders product).userOrders.get u [] =
      (book.userOrders.get u []).filter
        (fun i => ¬ ∃ o ∈ book.orders product, o.amount ≤ 0 ∧ o.username = u ∧ o.id = i) := by
  unfold removeMatchedOrders
  cases found : book.orderMap.lookup product with
  | none => simp [orders_of_lookup_none found]
  | some l =>
    rw [orders_of_lookup found]
    exact get_removeMatchedLoop_snd l _ u

/-- The orders that are left. -/
theorem mem_removeMatchedOrders (mirrored : book.Mirrored) {product : Str} {o : OrderBookEntry R} :
    o ∈ (book.removeMatchedOrders product).getAllOrders ↔
      o ∈ book.getAllOrders ∧ ¬ (o ∈ book.orders product ∧ o.amount ≤ 0) := by
  have whole := getAllOrders_perm book product
  have distinct := (whole.map (fun o => o.id)).nodup_iff.mp mirrored.distinct
  rw [List.map_append, List.nodup_append] at distinct
  rw [(removeMatchedOrders_perm book product).mem_iff, whole.mem_iff, List.mem_append, List.mem_append,
    List.mem_filter]
  simp only [decide_eq_true_eq]
  constructor
  · rintro (⟨inList, open'⟩ | other)
    · exact ⟨Or.inl inList, fun both => open' both.2⟩
    · refine ⟨Or.inr other, fun both => ?_⟩
      exact distinct.2.2 _ (List.mem_map_of_mem both.1) _ (List.mem_map_of_mem other) rfl
  · rintro ⟨inList | other, open'⟩
    · exact Or.inl ⟨inList, fun filled => open' ⟨inList, filled⟩⟩
    · exact Or.inr other

theorem removeMatchedOrders_mirrored (mirrored : book.Mirrored) (product : Str) :
    (book.removeMatchedOrders product).Mirrored := by
  have whole := getAllOrders_perm book product
  have kept := removeMatchedOrders_perm book product
  refine ⟨?_, ?_, ?_, ?_, ?_, ?_⟩
  · apply (kept.map _).nodup_iff.mpr
    refine List.Nodup.sublist ?_ ((whole.map _).nodup_iff.mp mirrored.distinct)
    exact (List.Sublist.append_right List.filter_sublist _).map _
  · intro p o member
    rw [removeMatchedOrders_orders] at member
    split at member
    · exact mirrored.filed p o (List.mem_of_mem_filter member)
    · exact mirrored.filed p o member
  · intro u i listed
    rw [get_removeMatchedOrders] at listed
    obtain ⟨old, open'⟩ := List.mem_filter.mp listed
    obtain ⟨o, inBook, owner, rfl⟩ := mirrored.refers u i old
    refine ⟨o, (mem_removeMatchedOrders mirrored).mpr ⟨inBook, fun both => ?_⟩, owner, rfl⟩
    exact (of_decide_eq_true open') ⟨o, both.1, both.2, owner, rfl⟩
  · intro o inBook user
    obtain ⟨old, open'⟩ := (mem_removeMatchedOrders mirrored).mp inBook
    rw [get_removeMatchedOrders]
    refine List.mem_filter.mpr ⟨mirrored.complete o old user, decide_eq_true ?_⟩
    rintro ⟨o', inList, filled, -, same⟩
    have inBook' : o' ∈ book.getAllOrders := whole.mem_iff.mpr (List.mem_append_left _ inList)
    obtain rfl := eq_of_id mirrored.distinct inBook' old same
    exact open' ⟨inList, filled⟩
  · intro u
    rw [get_removeMatchedOrders]
    exact (mirrored.once u).filter _
  · intro u vec found
    unfold removeMatchedOrders at found
    split at found
    · exact mirrored.nonempty u vec found
    · exact removeMatchedLoop_nonempty _ mirrored.nonempty u vec found

theorem removeMatchedOrders_indexed (indexed : book.Indexed) (product : Str) :
    (book.removeMatchedOrders product).Indexed := by
  refine ⟨removeMatchedOrders_mirrored indexed.toMirrored product, ?_⟩
  rw [get_removeMatchedOrders, indexed.unlisted]
  rfl

end Matched

end OrderBook

end MiniATS
