import MiniATS.Proofs.SerialSound

/-!
# Reserved funds

In every state of a serial run the locked balances cover what the open orders reserve, so the
branches that handle a short balance are dead for every user but `default`.
-/

namespace MiniATS

open OrderBookEntry OrderBook

namespace System

variable {env : Env ℚ} {s : System ℚ}

section Pass

variable (std : StdSort (EntryPtr ℚ)) (now : Int) (product : Str)

/-- The trades and the result of a pass, by its crossing. -/
theorem passOf_cross (env : Env ℚ) (s : System ℚ) :
    let r := s.server.passCross env std now product
    let p := passOf env s std now product
    p.trades = r.state.trades ∧
      p.result = match r.error with
        | none => .ok r.state.sales
        | some e => .error e :=
  matchProduct_cross env std now s.server product

/-- In a secured state a pass finds nobody short. -/
theorem Secured.pass_clean (secured : Secured s) :
    (∀ trade ∈ (passOf env s std now product).trades, Clean trade) ∧
      (passOf env s std now product).result ≠ .error buyerInsufficient ∧
      (passOf env s std now product).result ≠ .error sellerInsufficient :=
  matchProduct_clean env std now ((secured.covered product).affordable std)

end Pass

/-- In a secured state the funds of every open order of a user can be unlocked. -/
theorem Secured.cancel_unlocks (secured : Secured s) {u : Str} (user : u ≠ defaultUser)
    {o : OrderBookEntry ℚ} (listed : o ∈ s.server.orderBook.getOrdersForUser u) :
    ∃ srv, s.server.cancelFunds u o = .ok (true, srv) := by
  obtain ⟨inBook, rfl⟩ := (mem_getOrdersForUser secured.sane.indexed.toMirrored user).mp listed
  have admitted := secured.sane.admitted o inBook user
  obtain ⟨c, token⟩ := Option.isSome_iff_exists.mp admitted.token
  obtain ⟨store, ran, -⟩ := Server.cancelFunds_of_token admitted.owner token
  rw [ran, decide_eq_true (secured.need_le_locked inBook user token)]
  exact ⟨_, rfl⟩

/-- The reserved funds of every user but `default` are covered in every state of a serial run.
The wallet calls of a pass and of `CANCEL` never refuse such a user, and no pass ends because a
party's funds are insufficient. -/
theorem locked_covers_reserved (env : Env ℚ) {filename : Str} {file : Option Str} {book : OrderBook ℚ}
    {nextId : Nat} (made : OrderBook.make env filename file 1 = .ok (book, nextId))
    (store : UserStore ℚ)
    (balances : ∀ u c, 0 ≤ store.available u c ∧ 0 ≤ store.locked u c) (events : List (Event ℚ)) :
    let s := run env (start book nextId store) events
    (∀ u, u ≠ defaultUser → ∀ c,
      s.server.orderBook.reserved u c ≤ s.server.userStore.locked u c) ∧
    (∀ std now product,
      (∀ trade ∈ (passOf env s std now product).trades, Clean trade) ∧
        (passOf env s std now product).result ≠ .error buyerInsufficient ∧
        (passOf env s std now product).result ≠ .error sellerInsufficient) ∧
    (∀ u, u ≠ defaultUser → ∀ o ∈ s.server.orderBook.getOrdersForUser u,
      ∃ srv, s.server.cancelFunds u o = .ok (true, srv)) := by
  have secured : Secured (run env (start book nextId store) events) :=
    (Secured.start (make_loaded made) fun u _ c => (balances u c).2).run events
  exact ⟨secured.covers, fun std now product => secured.pass_clean std now product,
    fun u user o listed => secured.cancel_unlocks user listed⟩

/-- Alice offers a bitcoin, Bob bids for one, and a pass matches the two orders. -/
def saleAt (askPrice bidPrice : String) : List (Event ℚ) :=
  [.line 0 "REGISTER alice pw", .line 0 "DEPOSIT btc 1", .line 0 ("ASK btc/usd 1 " ++ askPrice),
    .line 1 "REGISTER bob pw", .line 1 "DEPOSIT usd 9", .line 1 ("BID btc/usd 1 " ++ bidPrice),
    .pass (StdSort.insertion _) 0 (str "BTC/USD")]

/-- Before the pass Bob's bid reserves six dollars, and six are locked. -/
theorem locked_covers_reserved_bid :
    let s := run exactEnv fresh ((saleAt "4" "6").take 6)
    s.server.orderBook.reserved (str "bob") (str "USD") = 6 ∧
      s.server.orderBook.reserved (str "bob") (str "USD") ≤
        s.server.userStore.locked (str "bob") (str "USD") :=
  ⟨by decide +kernel,
    (locked_covers_reserved exactEnv (fresh_book exactEnv) .empty (fun _ _ => ⟨le_rfl, le_rfl⟩)
      ((saleAt "4" "6").take 6)).1 (str "bob") (by decide) (str "USD")⟩

end System

end MiniATS
