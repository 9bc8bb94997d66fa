import MiniATS.Proofs.SerialBook
import MiniATS.Properties.ReservedFunds
import MiniATS.Server.Cleanup

/-!
# Open orders across a restart

The orders file has no column for the owner of an order, so the book that is read from it
belongs to `default`, while the users file still has the funds of the former owners locked. A
restart keeps the owners only when there is no open order of a user.
-/

namespace MiniATS

open OrderBookEntry

variable {R : Type}

/-- What an order is about, apart from when it was placed and by whom. -/
def OrderBookEntry.terms (o : OrderBookEntry R) : Str × OrderBookType × R × R :=
  (o.product, o.orderType, o.price, o.amount)

namespace OrderBook

/-- The users of the first book have the same orders in the second: they see them, can remove
them, and fills of them are theirs. -/
structure OwnersKept (book book' : OrderBook R) : Prop where
  listed : ∀ u, ((book'.getOrdersForUser u).map terms).Perm ((book.getOrdersForUser u).map terms)
  removable : ∀ u, ∀ o ∈ book'.getOrdersForUser u, (book'.removeOrderById u o.id).1 = true
  owned : ∀ u, ∀ o ∈ book'.getOrdersForUser u, o.username = u

/-- Nobody has an order in a book of `default`'s orders. -/
theorem getOrdersForUser_of_default {book : OrderBook R} (indexed : book.Indexed)
    (isDefault : ∀ o ∈ book.getAllOrders, o.username = defaultUser) (u : Str) :
    book.getOrdersForUser u = [] := by
  by_cases user : u = defaultUser
  · rw [user, getOrdersForUser, indexed.unlisted]
    rfl
  · apply List.eq_nil_iff_forall_not_mem.mpr
    intro o listed
    obtain ⟨inBook, owner⟩ := (mem_getOrdersForUser indexed.toMirrored user).mp listed
    exact user (owner.symm.trans (isDefault o inBook))

end OrderBook

namespace System

variable [Zero R] [Add R] [Sub R] [Mul R] [Div R] [LT R] [LE R] [DecidableLT R] [DecidableLE R] [BEq R]

/-- The orders of a state of a serial run keep their owners across a restart exactly when they are
all `default`'s. -/
theorem owners_kept_iff (env : Env R) {filename : Str} {file : Option Str} {book : OrderBook R}
    {nextId : Nat} (made : OrderBook.make env filename file 1 = .ok (book, nextId))
    (store : UserStore R) (events : List (Event R)) (old : Str) {book' : OrderBook R} {nextId' : Nat} :
    let s := run env (start book nextId store) events
    s.server.orderBook.restart env old = .ok (book', nextId') →
    (s.server.orderBook.OwnersKept book' ↔
      ∀ o ∈ s.server.orderBook.getAllOrders, o.username = defaultUser) := by
  intro s restarted
  have filed : Filed s := (Filed.start (OrderBook.make_loaded made) store).run events
  have loaded := OrderBook.make_loaded restarted
  have none' := OrderBook.getOrdersForUser_of_default loaded.indexed loaded.default'
  constructor
  · intro kept o inBook
    by_contra user
    have listed := (OrderBook.mem_getOrdersForUser filed.indexed.toMirrored user).mpr ⟨inBook, rfl⟩
    have perm := kept.listed o.username
    rw [none', List.map_nil] at perm
    have empty := List.map_eq_nil_iff.mp perm.nil_eq.symm
    rw [empty] at listed
    cases listed
  · intro isDefault
    have nobody := OrderBook.getOrdersForUser_of_default filed.indexed isDefault
    refine ⟨fun u => ?_, fun u o listed => ?_, fun u o listed => ?_⟩
    · rw [none', nobody]
    · rw [none'] at listed
      cases listed
    · rw [none'] at listed
      cases listed

/-- After Alice's ask a restart does not keep the owners. -/
theorem owners_kept_asked :
    let s := run exactEnv fresh [.line 0 "REGISTER alice pw", .line 0 "DEPOSIT btc 1",
      .line 0 "ASK btc/usd 1 4"]
    ∃ book' nextId', s.server.orderBook.restart exactEnv [] = .ok (book', nextId') ∧
      ¬ s.server.orderBook.OwnersKept book' := by
  intro s
  obtain ⟨⟨book', nextId'⟩, restarted⟩ : ∃ r, s.server.orderBook.restart exactEnv [] = .ok r := by
    have read : (s.server.orderBook.restart exactEnv []).isOk := by decide +kernel
    cases restarted : s.server.orderBook.restart exactEnv [] with
    | ok r => exact ⟨r, rfl⟩
    | error e => simp [restarted, Except.isOk, Except.toBool] at read
  have kept := owners_kept_iff exactEnv (fresh_book exactEnv) .empty [.line 0 "REGISTER alice pw",
    .line 0 "DEPOSIT btc 1", .line 0 "ASK btc/usd 1 4"] [] restarted
  exact ⟨book', nextId', restarted, kept.not.mpr (by decide +kernel)⟩

/-- Alice's ask is `default`'s after a restart, and her bitcoin is still locked. -/
theorem owner_lost :
    let s := run exactEnv fresh [.line 0 "REGISTER alice pw", .line 0 "DEPOSIT btc 1",
      .line 0 "ASK btc/usd 1 4"]
    let book' := s.server.orderBook.restart exactEnv []
    s.server.userStore.locked (str "alice") (str "BTC") = 1 ∧
      (s.server.orderBook.getOrdersForUser (str "alice")).map terms =
        [(str "BTC/USD", .ask, 4, 1)] ∧
      book'.map (fun r => (r.1.getOrdersForUser (str "alice")).map terms) = .ok [] ∧
      book'.map (fun r => r.1.getAllOrders.map (fun o => (o.username, o.terms))) =
        .ok [(defaultUser, str "BTC/USD", .ask, 4, 1)] := by
  intro s book'
  refine ⟨?_, ?_, ?_, ?_⟩ <;> decide +kernel

end System

end MiniATS
