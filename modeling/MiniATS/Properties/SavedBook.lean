import MiniATS.Proofs.Storage
import MiniATS.Properties.UserIndex

/-!
# The book in its file

`OrderBook::save` stores the lists and the finalised sales (`OrderBook.cpp:350-364`) and `load` reads
them back (`OrderBook.cpp:366-386`). Neither the index of the users nor the counter of the ids is
stored, and `load` makes neither of them anew: the book is as it was exactly when the index was empty
and the counter of the new process is past the ids of the lists.
-/

namespace MiniATS

open OrderBook

variable {R Text : Type} {json : JsonText R Text}

/-- The book `loaded` is what `book` was, and the ids from `nextId` on, which the orders created
afterwards get, are not in it. -/
structure OrderBook.Restored (book loaded : OrderBook R) (nextId : Nat) : Prop where
  lists : ∀ p, loaded.orderMap.lookup p = book.orderMap.lookup p
  sales : loaded.finalizedSales = book.finalizedSales
  listed : ∀ u, loaded.getOrdersForUser u = book.getOrdersForUser u
  removes : ∀ u id, (loaded.removeOrderById u id).1 = (book.removeOrderById u id).1 ∧
    ∀ p, (loaded.removeOrderById u id).2.orders p = (book.removeOrderById u id).2.orders p
  unused : ∀ n, nextId ≤ n → ∀ o ∈ loaded.getAllOrders, o.id ≠ n

namespace OrderBook

variable {book : OrderBook R}

theorem orders_of_lookup_eq {book' : OrderBook R} (same : ∀ p, book'.orderMap.lookup p = book.orderMap.lookup p)
    (p : Str) : book'.orders p = book.orders p := by
  unfold orders KeyedMap.get
  rw [same]

theorem unlisted_of_empty {u : Str} (empty : book.userOrders = ∅) : book.getOrdersForUser u = [] := by
  unfold getOrdersForUser
  rw [empty, KeyedMap.get_empty]
  rfl

theorem removeOrderById_unlisted {u : Str} {id : Nat} (unlisted : book.userOrders.lookup u = none) :
    book.removeOrderById u id = (false, book) := by
  unfold removeOrderById
  rw [unlisted]

/-- A user without orders has no vector in the index. -/
theorem Mirrored.unlisted (mirrored : book.Mirrored) {u : Str} (none' : book.getOrdersForUser u = []) :
    book.userOrders.lookup u = none := by
  cases found : book.userOrders.lookup u with
  | none => rfl
  | some vec =>
    obtain ⟨i, rest, rfl⟩ := List.exists_cons_of_ne_nil (mirrored.nonempty u vec found)
    have listed : i ∈ book.userOrders.get u [] := by
      rw [KeyedMap.get_of_lookup found]
      exact List.mem_cons_self
    obtain ⟨o, inBook, -, same⟩ := mirrored.refers u i listed
    have at' : book.deref i = some o := (deref_eq_some mirrored.distinct).mpr ⟨inBook, same⟩
    have member : o ∈ book.getOrdersForUser u := List.mem_filterMap.mpr ⟨i, listed, at'⟩
    rw [none'] at member
    exact absurd member List.not_mem_nil

/-- A book with the lists and the sales of another one and an empty index. -/
theorem restored_iff (mirrored : book.Mirrored) {loaded : OrderBook R} {nextId : Nat}
    (lists : ∀ p, loaded.orderMap.lookup p = book.orderMap.lookup p)
    (sales : loaded.finalizedSales = book.finalizedSales) (empty : loaded.userOrders = ∅) :
    Restored book loaded nextId ↔
      (∀ u, book.getOrdersForUser u = []) ∧ ∀ o ∈ book.getAllOrders, o.id < nextId := by
  have sameOrders := orders_of_lookup_eq lists
  have sameAll : ∀ o, o ∈ loaded.getAllOrders ↔ o ∈ book.getAllOrders := by
    intro o
    simp only [mem_getAllOrders, sameOrders]
  constructor
  · intro restored
    refine ⟨fun u => ?_, fun o inBook => ?_⟩
    · rw [← restored.listed u]
      exact unlisted_of_empty empty
    · by_contra late
      exact restored.unused o.id (by omega) o ((sameAll o).mpr inBook) rfl
  · rintro ⟨unlisted, below⟩
    have noIndex : ∀ u, loaded.userOrders.lookup u = none := by
      intro u
      rw [empty]
      exact AList.lookup_empty u
    refine ⟨lists, sales, fun u => ?_, fun u id => ?_, fun n later o inBook => ?_⟩
    · rw [unlisted u]
      exact unlisted_of_empty empty
    · rw [removeOrderById_unlisted (noIndex u),
        removeOrderById_unlisted (mirrored.unlisted (unlisted u))]
      exact ⟨rfl, sameOrders⟩
    · have := below o ((sameAll o).mp inBook)
      omega

end OrderBook

namespace BookRun

section Runs

variable [Zero R] [Add R] [Sub R] [Mul R] [LT R] [LE R] [DecidableLT R] [DecidableLE R] [BEq R]

/-- After any sequence of calls, saving the book and loading it in a new process restores it exactly
when no user has an open order in the index and every open order has an id below the counter of the
new process, whose constructor may have read a file. -/
theorem load_restores_iff (lossless : json.Lossless) (env env' : Env R)
    {filename filename' : Str} {file file' : Option Str} {book fresh : OrderBook R} {nextId freshId : Nat}
    (made : OrderBook.make env filename file 1 = .ok (book, nextId)) (calls : List (BookCall R))
    (plain : ((start book nextId).run calls).book.Plain json)
    (made' : OrderBook.make env' filename' file' 1 = .ok (fresh, freshId)) :
    let s := (start book nextId).run calls
    Restored s.book (fresh.load json (some (s.book.save json))) freshId ↔
      (∀ u, s.book.getOrdersForUser u = []) ∧ ∀ o ∈ s.book.getAllOrders, o.id < freshId := by
  intro s
  have unindexed : ∀ u, book.userOrders.get u [] = [] := by
    intro u
    rw [OrderBook.make_userOrders made, KeyedMap.get_empty]
  have tracked : s.Tracked := run_tracked (start_tracked (OrderBook.make_loaded made) unindexed) calls
  obtain ⟨orderMap, lists, loaded⟩ := OrderBook.load_save lossless plain fresh
  rw [loaded]
  have empty : fresh.userOrders = ∅ := OrderBook.make_userOrders made'
  exact OrderBook.restored_iff tracked.mirrored lists rfl empty

end Runs

/-- Files that hold values of exact numbers. -/
def exactFiles : JsonText ℚ (Option (Json ℚ)) := documents (fun _ => true) (fun n => n) (fun x => x.floor.toNat)

/-- What a server finds in its orders file. -/
def oneAsk : Option Str := some (str "1,BTC/USD,ask,4,1\n")

/-- A book with one order that the constructor has read is restored by a process that reads the same
file. -/
theorem load_restores_read : ∃ book nextId,
    OrderBook.make exactEnv (str "orders.csv") oneAsk 1 = .ok (book, nextId) ∧
      (book.orders (str "BTC/USD")).map (fun o => o.id) = [1] ∧
      Restored book (book.load exactFiles (some (book.save exactFiles))) nextId := by
  have fits : (OrderBook.make exactEnv (str "orders.csv") oneAsk 1).toOption.any (fun r =>
      decide ((r.1.orders (str "BTC/USD")).map (fun o => o.id) = [1] ∧ r.1.Plain exactFiles ∧
        r.1.userOrders = ∅ ∧ ∀ o ∈ r.1.getAllOrders, o.id < r.2)) = true := by
    decide +kernel
  cases made : OrderBook.make exactEnv (str "orders.csv") oneAsk 1 with
  | error e =>
    rw [made] at fits
    cases fits
  | ok r =>
    obtain ⟨book, nextId⟩ := r
    rw [made] at fits
    obtain ⟨ids, plain, empty, below⟩ := of_decide_eq_true fits
    exact ⟨book, nextId, rfl, ids, (load_restores_iff (documents_lossless _ _ _) exactEnv exactEnv made []
      plain made).mpr ⟨fun u => unlisted_of_empty empty, below⟩⟩

/-- Alice's ask is placed. -/
def alicesAsk : List (BookCall ℚ) :=
  [.construct 4 1 (str "2024/01/01 00:00:00") (str "BTC/USD") .ask (str "alice"), .insertOrder 0]

/-- Alice's ask is in the loaded list, but not among her orders, and the next order gets its id. -/
theorem load_forgets_user :
    let s := (start ⟨str "orders.csv", [], ∅, ∅⟩ 1).run alicesAsk
    let loaded := (⟨str "orders.csv", [], ∅, ∅⟩ : OrderBook ℚ).load exactFiles (some (s.book.save exactFiles))
    s.book.Plain exactFiles ∧
      (s.book.getOrdersForUser (str "alice")).map (fun o => o.id) = [1] ∧
      (loaded.orders (str "BTC/USD")).map (fun o => o.id) = [1] ∧
      loaded.getOrdersForUser (str "alice") = [] ∧
      ¬ Restored s.book loaded 1 := by
  intro s loaded
  have before : (s.book.getOrdersForUser (str "alice")).map (fun o => o.id) = [1] := by decide +kernel
  have after : loaded.getOrdersForUser (str "alice") = [] := by decide +kernel
  refine ⟨by decide +kernel, before, by decide +kernel, after, fun restored => ?_⟩
  rw [← restored.listed, after] at before
  cases before

end BookRun

end MiniATS
