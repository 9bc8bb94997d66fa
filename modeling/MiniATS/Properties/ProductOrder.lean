import MiniATS.Proofs.PassEffect
import MiniATS.Proofs.UserOrders
import MiniATS.Properties.ReservedFunds

/-!
# Passes on different products commute

The tasks of two products share the wallets, and every spending and refund of a pass asks whether
the locked balance suffices. In a secured state the answer is always yes for the users, so a pass
adds to their balances what the list of its product decides, and the order of two passes does not
matter. The balances of `default`, whose short balances are tolerated, are left out.
-/

namespace MiniATS

open OrderBook

namespace System

variable {s : System ℚ} (env : Env ℚ) (std : StdSort (EntryPtr ℚ))

section Second

variable {p q : Str} (different : p ≠ q) (now now' : Int)

include different

/-- A pass on another product leaves the list of a product alone. -/
theorem pass_orders_of_ne : (step env s (.pass std now q)).server.orderBook.orders p =
    s.server.orderBook.orders p := by
  apply (matchProduct_orders env std now s.server q p).trans
  rw [if_neg different]

/-- After a pass on another product a pass does what it would have done before. -/
theorem second_alike (secured : Secured s) (now'' : Int) :
    let later := (step env s (.pass std now q)).server
    (later.passCross env std now' p).made = (s.server.passCross env std now'' p).made ∧
      (later.passCross env std now' p).error = (s.server.passCross env std now'' p).error ∧
      later.passWritten env std now' p = s.server.passWritten env std now'' p :=
  passes_alike env std now'' now' (pass_orders_of_ne env std different now) (secured.covered p)
    ((secured.step (.pass std now q)).covered p)

end Second

section Both

variable (secured : Secured s) {p q : Str} (different : p ≠ q) (now₁ now₂ now₃ now₄ : Int)

include secured different

theorem commute_orders (r : Str) :
    (run env s [.pass std now₁ p, .pass std now₂ q]).server.orderBook.orders r =
      (run env s [.pass std now₃ q, .pass std now₄ p]).server.orderBook.orders r := by
  obtain ⟨-, error, written⟩ := second_alike env std different.symm now₁ now₂ secured now₃
  obtain ⟨-, error', written'⟩ := second_alike env std different now₃ now₄ secured now₁
  simp only [run_cons, run_nil, step] at error written error' written' ⊢
  rw [matchProduct_orders, matchProduct_orders, matchProduct_orders, matchProduct_orders, error,
    written, error', written']
  by_cases isP : r = p
  · subst isP
    rw [if_neg different, if_pos rfl, if_pos rfl]
  · rw [if_neg isP, if_neg isP]

theorem commute_index (u : Str) :
    (run env s [.pass std now₁ p, .pass std now₂ q]).server.orderBook.userOrders.get u [] =
      (run env s [.pass std now₃ q, .pass std now₄ p]).server.orderBook.userOrders.get u [] := by
  obtain ⟨-, error, written⟩ := second_alike env std different.symm now₁ now₂ secured now₃
  obtain ⟨-, error', written'⟩ := second_alike env std different now₃ now₄ secured now₁
  simp only [run_cons, run_nil, step] at error written error' written' ⊢
  rw [matchProduct_index, matchProduct_index, matchProduct_index, matchProduct_index, error,
    written, error', written', List.filter_comm]

theorem commute_sales :
    (run env s [.pass std now₁ p, .pass std now₂ q]).server.orderBook.saleTerms.Perm
      (run env s [.pass std now₃ q, .pass std now₄ p]).server.orderBook.saleTerms := by
  obtain ⟨made, error, -⟩ := second_alike env std different.symm now₁ now₂ secured now₃
  obtain ⟨made', error', -⟩ := second_alike env std different now₃ now₄ secured now₁
  simp only [run_cons, run_nil, step] at error made error' made' ⊢
  rw [matchProduct_sales, matchProduct_sales, matchProduct_sales, matchProduct_sales, error, made,
    error', made', List.append_assoc, List.append_assoc]
  exact List.perm_append_comm.append_left _

theorem commute_balances {u : Str} (user : u ≠ defaultUser) (c : Str) :
    let pq := run env s [.pass std now₁ p, .pass std now₂ q]
    let qp := run env s [.pass std now₃ q, .pass std now₄ p]
    pq.server.userStore.available u c = qp.server.userStore.available u c ∧
      pq.server.userStore.locked u c = qp.server.userStore.locked u c := by
  obtain ⟨made, error, -⟩ := second_alike env std different.symm now₁ now₂ secured now₃
  obtain ⟨made', error', -⟩ := second_alike env std different now₃ now₄ secured now₁
  have first := matchProduct_balances env std now₁ (secured.covered p) user c
  have first' := matchProduct_balances env std now₃ (secured.covered q) user c
  have later : Secured (step env s (.pass std now₁ p)) := secured.step _
  have later' : Secured (step env s (.pass std now₃ q)) := secured.step _
  have second := matchProduct_balances env std now₂ (later.covered q) user c
  have second' := matchProduct_balances env std now₄ (later'.covered p) user c
  simp only [run_cons, run_nil, step, ofOutcome] at *
  rw [made, error] at second
  rw [made', error'] at second'
  rw [second.1, second'.1, first.1, first'.1, second.2, second'.2, first.2, first'.2]
  exact ⟨by ring, by ring⟩

end Both

/-- The order in which two products are matched does not matter, in every state of a serial run and
whatever the clock shows at the passes. -/
theorem product_order_irrelevant {filename : Str} {file : Option Str} {book : OrderBook ℚ}
    {nextId : Nat} (made : OrderBook.make env filename file 1 = .ok (book, nextId))
    (store : UserStore ℚ)
    (balances : ∀ u c, 0 ≤ store.available u c ∧ 0 ≤ store.locked u c) (events : List (Event ℚ))
    {p q : Str} (different : p ≠ q) (now₁ now₂ now₃ now₄ : Int) :
    let s := run env (start book nextId store) events
    let pq := run env s [.pass std now₁ p, .pass std now₂ q]
    let qp := run env s [.pass std now₃ q, .pass std now₄ p]
    (∀ r, pq.server.orderBook.orders r = qp.server.orderBook.orders r) ∧
    (∀ u, pq.server.orderBook.getOrdersForUser u = qp.server.orderBook.getOrdersForUser u) ∧
    (∀ u, u ≠ defaultUser → ∀ c,
      pq.server.userStore.available u c = qp.server.userStore.available u c ∧
        pq.server.userStore.locked u c = qp.server.userStore.locked u c) ∧
    pq.server.orderBook.saleTerms.Perm qp.server.orderBook.saleTerms := by
  have secured : Secured (run env (start book nextId store) events) :=
    (Secured.start (make_loaded made) fun u _ c => (balances u c).2).run events
  intro s pq qp
  have orders : ∀ r, pq.server.orderBook.orders r = qp.server.orderBook.orders r :=
    commute_orders env std secured different now₁ now₂ now₃ now₄
  have sane : Secured pq := secured.run _
  have sane' : Secured qp := secured.run _
  refine ⟨orders, fun u => ?_, fun u user c => ?_, ?_⟩
  · exact getOrdersForUser_congr sane'.sane.indexed.distinct sane.sane.indexed.distinct orders
      (commute_index env std secured different now₁ now₂ now₃ now₄ u)
  · exact commute_balances env std secured different now₁ now₂ now₃ now₄ user c
  · exact commute_sales env std secured different now₁ now₂ now₃ now₄

/-- Bob bids for a bitcoin and for an ether with the same dollars. -/
def twoBids : List (Event ℚ) :=
  (saleAt "4" "6").take 6 ++
    [.line 0 "DEPOSIT eth 1", .line 0 "ASK eth/usd 1 2", .line 1 "BID eth/usd 1 3"]

theorem product_order_irrelevant_two :
    let s := run exactEnv fresh twoBids
    let pq := run exactEnv s [.pass (StdSort.insertion _) 0 (str "BTC/USD"),
      .pass (StdSort.insertion _) 0 (str "ETH/USD")]
    let qp := run exactEnv s [.pass (StdSort.insertion _) 0 (str "ETH/USD"),
      .pass (StdSort.insertion _) 0 (str "BTC/USD")]
    pq.server.userStore.available (str "bob") (str "USD") = 3 ∧
      ∀ u, u ≠ defaultUser → ∀ c,
        pq.server.userStore.available u c = qp.server.userStore.available u c ∧
          pq.server.userStore.locked u c = qp.server.userStore.locked u c :=
  ⟨by decide +kernel,
    (product_order_irrelevant exactEnv (StdSort.insertion _) (fresh_book exactEnv) .empty
      (fun _ _ => ⟨le_rfl, le_rfl⟩) twoBids (by decide : str "BTC/USD" ≠ str "ETH/USD")
      0 0 0 0).2.2.1⟩

end System

end MiniATS
