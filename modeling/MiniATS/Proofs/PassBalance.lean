import MiniATS.Proofs.Pass

/-!
# Balances and claims over a pass

For a user other than `default`, a pass whose matches can be paid takes from the locked balance what
its matches owe, and the claims of the list fall by the same. The difference between the two
can only grow: by what the buyer of a failed match had reserved beyond the cost (`unspent`), and
by the claims of orders that leave the list with nothing positive in them (`dropped`).
-/

namespace MiniATS

open Crossing Ledger CSVHandler OrderBookEntry

namespace OrderBook

/-- What the buyer of the match that a pass failed on had reserved beyond the cost. -/
def unspent (product : Str) (made : List (Match (EntryPtr ℚ) ℚ)) (result : Except Exn Unit) :
    Str → Str → ℚ :=
  match result, pairTokens invalidSaleProduct product, made with
  | .error _, .ok (base, quote'), [t] => single t.bid.entry.username quote' (saleOf base quote' t).refund
  | _, _, _ => 0

/-- The claims of the orders of a list that have no positive amount. -/
def dropped (l : List (OrderBookEntry ℚ)) : Str → Str → ℚ := claims (l.filter (fun o => o.amount ≤ 0))

theorem claims_filter (l : List (OrderBookEntry ℚ)) :
    claims (l.filter (fun o => ¬ o.amount ≤ 0)) + dropped l = claims l := by
  unfold dropped
  induction l with
  | nil => simp
  | cons o l ih =>
    by_cases filled : o.amount ≤ 0
    · simp only [List.filter_cons, filled, not_true, decide_true, decide_false, if_true,
        Bool.false_eq_true, if_false, claims_cons, ← ih]
      abel
    · simp only [List.filter_cons, filled, not_false_eq_true, decide_true, decide_false, if_true,
        Bool.false_eq_true, if_false, claims_cons, ← ih]
      abel

variable {product : Str} {l : List (OrderBookEntry ℚ)} {store : UserStore ℚ}
  {std : StdSort (EntryPtr ℚ)} {made : List (Match (EntryPtr ℚ) ℚ)} {l' : Ledger Str Str ℚ}
  {result : Except Exn Unit}

theorem unspent_ok : unspent product made (.ok ()) = 0 := rfl

theorem plan_covers (affordable : Affordable std product l store) {base quote' : Str}
    (pair : pairTokens invalidSaleProduct product = .ok (base, quote')) :
    Covers (· ≠ defaultUser) store.ledger
      (((passPlan std l).map (saleOf base quote')).map Sale.owed).sum := by
  intro u user c
  rw [sum_owedBy pair]
  exact affordable.enough u user c

theorem plan_nonneg (affordable : Affordable std product l store) (base quote' : Str) :
    ∀ s ∈ (passPlan std l).map (saleOf base quote'), ∀ u, u ≠ defaultUser → ∀ c, 0 ≤ s.owed u c := by
  intro s member u user c
  obtain ⟨t, inPlan, rfl⟩ := List.mem_map.mp member
  exact affordable.owed_nonneg base quote' inPlan u user c

theorem plan_amounts (base quote' : Str) :
    ∀ s ∈ (passPlan std l).map (saleOf base quote'), 0 ≤ s.amount ∧ 0 ≤ s.refund := by
  intro s member
  obtain ⟨t, inPlan, rfl⟩ := List.mem_map.mp member
  exact (proper_of_sound (passPlan_sound inPlan)).sale base quote'

/-- The first match is covered by itself. -/
theorem head_covers (affordable : Affordable std product l store) {base quote' : Str}
    (pair : pairTokens invalidSaleProduct product = .ok (base, quote')) {t : Match (EntryPtr ℚ) ℚ}
    {ts : List (Match (EntryPtr ℚ) ℚ)} (first : passPlan std l = t :: ts) :
    Covers (· ≠ defaultUser) store.ledger (saleOf base quote' t).owed := by
  have covers := plan_covers affordable pair
  have nonneg := plan_nonneg affordable base quote'
  have inPlan : t ∈ passPlan std l := by simp [first]
  obtain ⟨amount, refund⟩ := (proper_of_sound (passPlan_sound inPlan)).sale base quote'
  rw [first, List.map_cons] at covers nonneg
  rw [List.map_cons, List.sum_cons] at covers
  exact (covers.split amount refund fun u user c =>
    sum_owed_nonneg (fun s member => nonneg s (by simp [member])) user c).1

/-- The locked balance falls by what the matches owe, up to what a failed match leaves unspent. -/
theorem PassRun.locked (affordable : Affordable std product l store)
    (run : PassRun product store (passPlan std l) made l' result) {u : Str} (user : u ≠ defaultUser)
    (c : Str) :
    l'.locked u c + (made.map (fun t => owedBy product t u c)).sum =
      store.locked u c + unspent product made result u c := by
  cases run with
  | idle none' => simp [unspent]
  | @complete base quote' pair prices =>
    have settled := (settle_foldl_of_covered (plan_amounts base quote')
      (plan_nonneg affordable base quote') (plan_covers affordable pair) user c).2
    rw [settled, sum_owedBy pair, unspent_ok]
    simp
  | @negative base quote' t ts pair first price =>
    have inPlan : t ∈ passPlan std l := by simp [first]
    obtain ⟨amount, refund⟩ := (proper_of_sound (passPlan_sound inPlan)).sale base quote'
    have delivered := (deliver_of_covered amount refund (head_covers affordable pair first) user c).2
    rw [delivered]
    simp only [List.map_cons, List.map_nil, List.sum_cons, List.sum_nil, add_zero,
      owedBy_of_pair pair, unspent, pair, Sale.owed, single_add, Pi.add_apply]
    simp only [saleOf, UserStore.ledger_locked]
    ring
  | @unpaired e t ts pair first buyer seller => simp [unspent, pair, owedBy]

theorem unspent_nonneg (run : PassRun product store (passPlan std l) made l' result) (u c : Str) :
    0 ≤ unspent product made result u c := by
  cases run with
  | idle none' => simp [unspent]
  | complete pair prices => simp [unspent]
  | @negative base quote' t ts pair first price =>
    have inPlan : t ∈ passPlan std l := by simp [first]
    obtain ⟨-, refund⟩ := (proper_of_sound (passPlan_sound inPlan)).sale base quote'
    simp only [unspent, pair]
    exact single_nonneg _ _ refund _ _
  | unpaired pair first buyer seller => simp [unspent, pair]

/-- The available balance rises by what the matches pay, when the pass returns. -/
theorem PassRun.available_of_ok (affordable : Affordable std product l store)
    (run : PassRun product store (passPlan std l) made l' (.ok ())) {base quote' : Str}
    (pair : pairTokens invalidSaleProduct product = .ok (base, quote')) {u : Str}
    (user : u ≠ defaultUser) (c : Str) :
    l'.available u c =
      store.available u c + ((made.map (saleOf base quote')).map Sale.received).sum u c := by
  cases run with
  | idle none' => simp
  | @complete base' quote'' pair' prices =>
    obtain ⟨rfl, rfl⟩ : base' = base ∧ quote'' = quote' := by
      rw [pair] at pair'
      simpa using pair'.symm
    exact (settle_foldl_of_covered (plan_amounts base' quote'')
      (plan_nonneg affordable base' quote'') (plan_covers affordable pair) user c).1

end OrderBook

end MiniATS
