import MiniATS.Proofs.BookIndex

/-!
# The orders of a user after a change of the book

What `getOrdersForUser` returns after `insertOrder` and `removeOrderById`: the owner's orders with
the order at the end, or without it, and every other user's as they were.
-/

namespace MiniATS

namespace OrderBook

variable {R : Type} {book book' : OrderBook R}

/-- Two books with the same lists and the same index have the same orders for every user. -/
theorem getOrdersForUser_congr (distinct : (book.getAllOrders.map (fun o => o.id)).Nodup)
    (distinct' : (book'.getAllOrders.map (fun o => o.id)).Nodup)
    (lists : ∀ p, book'.orders p = book.orders p) {u : Str}
    (index : book'.userOrders.get u [] = book.userOrders.get u []) :
    book'.getOrdersForUser u = book.getOrdersForUser u := by
  unfold getOrdersForUser
  rw [index]
  apply List.filterMap_congr
  intro i _
  apply Option.ext
  intro o
  simp only [deref_eq_some distinct, deref_eq_some distinct', mem_getAllOrders, lists]

/-- A pointer refers to the same order in a book with one order more. -/
theorem deref_of_cons {o : OrderBookEntry R} {i : Nat}
    (distinct : (book.getAllOrders.map (fun o => o.id)).Nodup)
    (distinct' : (book'.getAllOrders.map (fun o => o.id)).Nodup)
    (perm : book'.getAllOrders.Perm (o :: book.getAllOrders)) (other : i ≠ o.id) :
    book'.deref i = book.deref i := by
  apply Option.ext
  intro x
  simp only [deref_eq_some distinct, deref_eq_some distinct', perm.mem_iff, List.mem_cons]
  constructor
  · rintro ⟨rfl | old, rfl⟩
    · exact absurd rfl other
    · exact ⟨old, rfl⟩
  · rintro ⟨old, rfl⟩
    exact ⟨Or.inr old, rfl⟩

theorem getOrdersForUser_insertOrder (mirrored : book.Mirrored) {o : OrderBookEntry R}
    (fresh : ∀ o' ∈ book.getAllOrders, o'.id ≠ o.id) (v : Str) :
    (book.insertOrder o).getOrdersForUser v =
      if v = o.username then book.getOrdersForUser v ++ [o] else book.getOrdersForUser v := by
  have perm := insertOrder_perm book o
  have distinct' := (insertOrder_mirrored mirrored fresh).distinct
  have kept : ∀ i ∈ book.userOrders.get v [], (book.insertOrder o).deref i = book.deref i := by
    intro i listed
    obtain ⟨o', inBook, -, rfl⟩ := mirrored.refers v i listed
    exact deref_of_cons mirrored.distinct distinct' perm (fresh o' inBook)
  have new : (book.insertOrder o).deref o.id = some o :=
    (deref_eq_some distinct').mpr ⟨perm.mem_iff.mpr (by simp), rfl⟩
  simp only [getOrdersForUser, get_insertOrder_userOrders]
  split
  · rw [List.filterMap_append, List.filterMap_congr kept]
    simp [new]
  · exact List.filterMap_congr kept

/-- The book after `removeOrderById` has taken out an order. -/
structure Removed (book book' : OrderBook R) (o : OrderBookEntry R) : Prop where
  perm : book.getAllOrders.Perm (o :: book'.getAllOrders)
  lists : ∀ p, book'.orders p =
    if p = o.product then (book.orders p).eraseP (fun e => e.id == o.id) else book.orders p
  index : ∀ u, book'.userOrders.get u [] =
    if u = o.username then (book.userOrders.get u []).erase o.id else book.userOrders.get u []
  sales : book'.finalizedSales = book.finalizedSales

theorem getOrdersForUser_of_removed (mirrored : book.Mirrored) {o : OrderBookEntry R}
    (removed : book.Removed book' o) (v : Str) :
    book'.getOrdersForUser v =
      if v = o.username then (book.getOrdersForUser v).filter (fun e => e.id ≠ o.id)
      else book.getOrdersForUser v := by
  have perm := removed.perm
  have distinct' : (book'.getAllOrders.map (fun o => o.id)).Nodup :=
    (List.nodup_cons.mp ((perm.map (fun o => o.id)).nodup_iff.mp mirrored.distinct)).2
  have kept : ∀ i, i ≠ o.id → book'.deref i = book.deref i :=
    fun i other => (deref_of_cons distinct' mirrored.distinct perm other).symm
  simp only [getOrdersForUser, removed.index]
  split
  · rw [(mirrored.once v).erase_eq_filter, List.filterMap_filter, List.filter_filterMap]
    apply List.filterMap_congr
    intro i _
    by_cases same : i = o.id
    · have inBook : o ∈ book.getAllOrders := perm.mem_iff.mpr (by simp)
      simp [same, (deref_eq_some mirrored.distinct).mpr ⟨inBook, rfl⟩, Option.filter]
    · rw [if_pos (by simpa using same), kept i same]
      cases found : book.deref i with
      | none => rfl
      | some e =>
        have id := ((deref_eq_some mirrored.distinct).mp found).2
        simp [id, same, Option.filter]
  · rename_i other
    apply List.filterMap_congr
    intro i listed
    apply kept i
    rintro rfl
    obtain ⟨o', inBook, owner, same⟩ := mirrored.refers v _ listed
    have inBook' : o ∈ book.getAllOrders := perm.mem_iff.mpr (by simp)
    obtain rfl := eq_of_id mirrored.distinct inBook inBook' same
    exact other owner.symm

end OrderBook

end MiniATS
