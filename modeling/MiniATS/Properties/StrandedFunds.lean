import MiniATS.Properties.ReservedFunds

/-!
# Stranded funds

Locked funds that no open order reserves can be neither freed by `CANCEL` nor spent. They come
about in a pass in two ways: a bid with a negative amount and a negative price reserved their
product and is removed as if it were filled, or the first match throws on its negative price
after the buyer's order was reduced and before the buyer's refund. `nothing_stranded_iff` says
that these are the only ways.
-/

namespace MiniATS

open Crossing Ledger CSVHandler OrderBookEntry OrderBook

namespace OrderBook

variable {product : Str} {l : List (OrderBookEntry ℚ)} {store : UserStore ℚ}
  {std : StdSort (EntryPtr ℚ)}

/-- The pass starts by a match at a negative price. -/
def NegativeStart (std : StdSort (EntryPtr ℚ)) (orderList : List (OrderBookEntry ℚ)) : Prop :=
  ∃ ask ∈ bestAsk std orderList, ∃ bid ∈ bestBid std orderList,
    ask.entry.price ≤ bid.entry.price ∧ ask.entry.price < 0

/-- A pass on these orders strands nothing: when it starts by a match at a negative price, the
best bid is `default`'s, and otherwise no order of a user has a negative amount and reserves
something. -/
def StrandsNothing (std : StdSort (EntryPtr ℚ)) (orderList : List (OrderBookEntry ℚ)) : Prop :=
  (NegativeStart std orderList → ∀ bid ∈ bestBid std orderList, bid.entry.username = defaultUser) ∧
    (¬ NegativeStart std orderList →
      ∀ o ∈ orderList, o.username ≠ defaultUser → o.amount < 0 → o.need = 0)

instance (std : StdSort (EntryPtr ℚ)) (orderList : List (OrderBookEntry ℚ)) :
    Decidable (NegativeStart std orderList) :=
  inferInstanceAs (Decidable (∃ ask ∈ bestAsk std orderList, ∃ bid ∈ bestBid std orderList,
    ask.entry.price ≤ bid.entry.price ∧ ask.entry.price < 0))

instance (std : StdSort (EntryPtr ℚ)) (orderList : List (OrderBookEntry ℚ)) :
    Decidable (StrandsNothing std orderList) :=
  inferInstanceAs (Decidable ((NegativeStart std orderList →
    ∀ bid ∈ bestBid std orderList, bid.entry.username = defaultUser) ∧ (¬ NegativeStart std orderList →
      ∀ o ∈ orderList, o.username ≠ defaultUser → o.amount < 0 → o.need = 0)))

theorem need_of_amount_zero {o : OrderBookEntry ℚ} (empty : o.amount = 0) : o.need = 0 := by
  unfold need
  split
  · exact empty
  · rw [empty, zero_mul]
  · rfl

/-- Claims that are not negative add up to nothing only when there are none. -/
theorem claims_eq_zero_iff {l : List (OrderBookEntry ℚ)}
    (nonneg : ∀ o ∈ l, o.username ≠ defaultUser → o.reservedToken.isSome ∧ 0 ≤ o.need) :
    (∀ u, u ≠ defaultUser → ∀ c, claims l u c = 0) ↔
      ∀ o ∈ l, o.username ≠ defaultUser → o.need = 0 := by
  constructor
  · intro none' o member user
    obtain ⟨c, token⟩ := Option.isSome_iff_exists.mp (nonneg o member user).1
    have most := claim_le_claims (u := o.username)
      (fun o' member' owner => (nonneg o' member' (by rw [owner]; exact user)).2) member c
    rw [none' o.username user c, claim_of_token token, single_self] at most
    exact le_antisymm most (nonneg o member user).2
  · intro each u user c
    rw [claims_apply]
    apply List.sum_eq_zero
    intro x inSum
    obtain ⟨o, member, rfl⟩ := List.mem_map.mp inSum
    rw [claim_apply]
    split
    · rename_i both
      exact each o member (by rw [both.1]; exact user)
    · rfl

/-- What is dropped from a shrunk list: the orders of the list that had a negative amount. -/
theorem dropped_eq_zero_iff {l' : List (OrderBookEntry ℚ)}
    (admitted : ∀ o ∈ l, o.username ≠ defaultUser → Admitted store o)
    (shrunk : List.Forall₂ Shrunk l l') :
    (∀ u, u ≠ defaultUser → ∀ c, dropped l' u c = 0) ↔
      ∀ o ∈ l, o.username ≠ defaultUser → o.amount < 0 → o.need = 0 := by
  unfold dropped
  rw [claims_eq_zero_iff]
  · constructor
    · intro each o member user negative
      obtain ⟨o', inList, x, rfl, unchanged, -⟩ := ListFacts.forall₂_mem_left shrunk member
      have same := unchanged negative.le
      rw [same, withAmount_self] at inList
      exact each o (List.mem_filter.mpr ⟨inList, by simpa using negative.le⟩) user
    · intro each o' inFilter user
      obtain ⟨inList, empty⟩ := List.mem_filter.mp inFilter
      obtain ⟨o, member, x, rfl, unchanged, bounds⟩ := ListFacts.forall₂_mem_right shrunk inList
      have empty' : x ≤ 0 := of_decide_eq_true empty
      rcases lt_trichotomy o.amount 0 with negative | zero | positive
      · rw [unchanged negative.le, withAmount_self]
        exact each o member user negative
      · exact need_of_amount_zero (by rw [withAmount_amount, unchanged zero.le, zero])
      · exact need_of_amount_zero (le_antisymm empty' (bounds positive).1)
  · intro o' inFilter user
    obtain ⟨o, member, related⟩ :=
      ListFacts.forall₂_mem_right shrunk (List.mem_filter.mp inFilter).1
    have known := admitted o member (by rw [← related.username]; exact user)
    exact ⟨by rw [related.reservedToken]; exact known.token, related.need_nonneg known.nonneg⟩

theorem negativeStart_of_first {t : Match (EntryPtr ℚ) ℚ} {ts : List (Match (EntryPtr ℚ) ℚ)}
    (first : passPlan std l = t :: ts) : NegativeStart std l ↔ t.ask.entry.price < 0 := by
  obtain ⟨ask, bid⟩ := best_of_first first
  have crossed := (proper_of_sound (passPlan_sound (show t ∈ passPlan std l by simp [first]))).2
  simp [NegativeStart, ask, bid, crossed]

theorem not_negativeStart_of_idle (idle : passPlan std l = []) : ¬ NegativeStart std l := by
  rintro ⟨ask, isAsk, bid, isBid, crossed, -⟩
  obtain ⟨ts, first⟩ := first_of_best isAsk isBid crossed
  rw [idle] at first
  cases first

end OrderBook

section Pass

variable {env : Env ℚ} {std : StdSort (EntryPtr ℚ)} {now : Int} {srv : Server ℚ} {product : Str}

/-- What a pass strands, where it returns. -/
theorem stranded_of_returned (ended : (srv.passCross env std now product).error = none) :
    srv.stranded env std now product = dropped (srv.passWritten env std now product) := by
  unfold Server.stranded ofOutcome
  simp only [ended]
  exact zero_add _

/-- What a pass strands, where it throws. -/
theorem stranded_of_thrown {e : Exn} (ended : (srv.passCross env std now product).error = some e) :
    srv.stranded env std now product =
      unspent product (srv.passCross env std now product).made (.error e) := by
  unfold Server.stranded ofOutcome
  simp only [ended]
  exact add_zero _

theorem stranded_eq_zero_iff (covered : Covered product (srv.orderBook.orders product) srv.userStore) :
    (∀ u, u ≠ defaultUser → ∀ c, srv.stranded env std now product u c = 0) ↔
      StrandsNothing std (srv.orderBook.orders product) := by
  have affordable := covered.affordable std
  have run := passCross_ran env std now affordable
  cases ended : (srv.passCross env std now product).error with
  | none =>
    rw [stranded_of_returned ended,
      dropped_eq_zero_iff covered.admitted (passWritten_shrunk env std now srv product)]
    have fair : ¬ NegativeStart std (srv.orderBook.orders product) := by
      have result : (ofOutcome (srv.passCross env std now product)).result = .ok () := by
        simp only [ofOutcome, ended]
      rw [result] at run
      generalize (srv.passCross env std now product).made = made at run
      generalize UserStore.ledger (R := ℚ) _ = l' at run
      cases run with
      | idle none' => exact not_negativeStart_of_idle none'
      | complete pair prices =>
        cases first : passPlan std (srv.orderBook.orders product) with
        | nil => exact not_negativeStart_of_idle first
        | cons t ts =>
          rw [negativeStart_of_first first]
          exact not_lt.mpr (prices t (by simp [first]))
    exact ⟨fun each => ⟨fun negative => absurd negative fair, fun _ => each⟩, fun both => both.2 fair⟩
  | some e =>
    rw [stranded_of_thrown ended]
    have result : (ofOutcome (srv.passCross env std now product)).result = .error e := by
      simp only [ofOutcome, ended]
    rw [result] at run
    generalize (srv.passCross env std now product).made = made at run ⊢
    generalize UserStore.ledger (R := ℚ) _ = l' at run
    cases run with
    | @negative base quote' t ts pair first price =>
      have inPlan : t ∈ passPlan std (srv.orderBook.orders product) := by simp [first]
      have negative := (negativeStart_of_first first).mpr price
      obtain ⟨-, bid⟩ := best_of_first first
      have positive := (passPlan_sound inPlan).positive
      simp only [unspent, pair]
      constructor
      · intro none'
        refine ⟨fun _ b isBid => ?_, fun fair => absurd negative fair⟩
        obtain rfl := Option.some.inj (bid.symm.trans isBid)
        by_contra user
        have zero := none' _ user quote'
        rw [single_self] at zero
        have above : 0 < (saleOf base quote' t).refund :=
          mul_pos (sub_pos.mpr (price.trans_le (affordable.bid_price inPlan user))) positive
        exact above.ne' zero
      · rintro ⟨buyer, -⟩ u user c
        exact single_of_ne (by rw [buyer negative _ bid]; exact user) _ _ _
    | @unpaired _ t ts pair first buyer seller =>
      obtain ⟨-, bid⟩ := best_of_first first
      refine iff_of_true (fun u _ c => by simp [unspent, pair]) ⟨fun _ b isBid => ?_, fun _ o member user => ?_⟩
      · rw [← Option.some.inj (bid.symm.trans isBid)]
        exact buyer
      · exact absurd (affordable.default_of_unpaired pair o member) user

end Pass

namespace System

variable {env : Env ℚ} {s : System ℚ}

/-- The step strands nothing. -/
def LeavesNothing (s : System ℚ) : Event ℚ → Prop
  | .message _ _ _ => True
  | .pass std _ product => StrandsNothing std (s.server.orderBook.orders product)

instance (s : System ℚ) (e : Event ℚ) : Decidable (LeavesNothing s e) :=
  match e with
  | .message _ _ _ => inferInstanceAs (Decidable True)
  | .pass std _ product =>
    inferInstanceAs (Decidable (StrandsNothing std (s.server.orderBook.orders product)))

/-- The slack of the users but `default`. -/
def userSlack (s : System ℚ) : Str → Str → ℚ := fun u c => if u = defaultUser then 0 else slack s u c

theorem Secured.userSlack_eq_zero_iff (secured : Secured s) :
    userSlack s = 0 ↔ ∀ u, u ≠ defaultUser → ∀ c,
      s.server.userStore.locked u c ≤ s.server.orderBook.reserved u c := by
  constructor
  · intro none' u user c
    have zero := congrFun (congrFun none' u) c
    simp only [userSlack, if_neg user, slack, Pi.zero_apply] at zero
    exact (sub_eq_zero.mp zero).le
  · intro most
    funext u c
    by_cases user : u = defaultUser
    · exact if_pos user
    · refine (if_neg user).trans (sub_eq_zero.mpr ?_)
      exact le_antisymm (most u user c) (secured.covers u user c)

theorem userSlack_step_iff (secured : Secured s) (e : Event ℚ) :
    userSlack (step env s e) = userSlack s + 0 ↔ LeavesNothing s e := by
  have changes : userSlack (step env s e) = userSlack s + 0 ↔
      ∀ u, u ≠ defaultUser → ∀ c, strands env s e u c = 0 := by
    constructor
    · intro same u user c
      have here := congrFun (congrFun same u) c
      simp only [userSlack, if_neg user, add_zero] at here
      rw [step_slack user c env secured e] at here
      linarith
    · intro none'
      funext u c
      rw [add_zero]
      by_cases user : u = defaultUser
      · rw [userSlack, userSlack, if_pos user, if_pos user]
      · rw [userSlack, userSlack, if_neg user, if_neg user, step_slack user c env secured e,
          none' u user c, add_zero]
  rw [changes]
  cases e with
  | message sid now data => exact iff_of_true (fun _ _ _ => rfl) trivial
  | pass std now product => exact stranded_eq_zero_iff (secured.covered product)

/-- In every state of a run from users with nothing locked, the locked balances of all users but
`default` are reserved by open orders, exactly when every pass of the run strands nothing. -/
theorem nothing_stranded_iff (env : Env ℚ) {filename : Str} {file : Option Str} {book : OrderBook ℚ}
    {nextId : Nat} (made : OrderBook.make env filename file 1 = .ok (book, nextId))
    (store : UserStore ℚ) (unlocked : ∀ u c, store.locked u c = 0) (events : List (Event ℚ)) :
    let s := start book nextId store
    (∀ ran, ran <+: events → ∀ u, u ≠ defaultUser → ∀ c,
        (run env s ran).server.userStore.locked u c ≤ (run env s ran).server.orderBook.reserved u c) ↔
      Machine.Along (Machine.total (step env)) LeavesNothing s events := by
  intro s
  have loaded := make_loaded made
  have secured : Secured s := Secured.start loaded fun u _ c => (unlocked u c).ge
  have atStart : userSlack s = 0 := by
    apply secured.userSlack_eq_zero_iff.mpr
    intro u user c
    apply (unlocked u c).le.trans
    exact secured.toSound.reserved_nonneg user c
  rw [← Machine.run_accumulates_iff Secured userSlack (fun s e secured => secured.step e)
    (fun s e secured => userSlack_step_iff secured e) secured events]
  apply forall₂_congr
  intro ran within
  rw [← (secured.run ran).userSlack_eq_zero_iff, atStart, Machine.sumAlong_zero, add_zero]
  rfl

/-- When Alice's bitcoin is sold below Bob's price, the refund leaves nothing of Bob's locked. -/
theorem nothing_stranded_sale :
    (run exactEnv fresh (saleAt "4" "6")).server.userStore.locked (str "bob") (str "USD") ≤
      (run exactEnv fresh (saleAt "4" "6")).server.orderBook.reserved (str "bob") (str "USD") :=
  (nothing_stranded_iff exactEnv (fresh_book exactEnv) .empty (fun _ _ => rfl) (saleAt "4" "6")).mpr
    (by decide +kernel) _ List.prefix_rfl (str "bob") (by decide) (str "USD")

/-- Bob's bid for minus two bitcoins at minus three dollars reserves six dollars, and a pass with
nothing to match removes it: the six dollars stay locked. -/
def negativeBid : List (Event ℚ) :=
  [.line 0 "REGISTER bob pw", .line 0 "DEPOSIT usd 9", .line 0 "BID btc/usd -2 -3",
    .pass (StdSort.insertion _) 0 (str "BTC/USD")]

theorem negative_bid_stranded :
    ¬ (run exactEnv fresh negativeBid).server.userStore.locked (str "bob") (str "USD") ≤
      (run exactEnv fresh negativeBid).server.orderBook.reserved (str "bob") (str "USD") := by
  decide +kernel

end System

end MiniATS
