import Mathlib.Algebra.BigOperators.Group.Finset.Basic
import Mathlib.Algebra.BigOperators.Group.Finset.Piecewise
import Mathlib.Algebra.BigOperators.Group.List.Basic
import Mathlib.Algebra.Order.Group.Defs
import Mathlib.Algebra.Order.BigOperators.Group.List
import Mathlib.Tactic.Abel
import Mathlib.Tactic.Linarith

/-!
# Ledgers with locked funds

Every owner has an available and a locked balance in every currency. Funds that an open
order may have to pay are locked; settling a sale spends them, pays both sides and unlocks
what the buyer had set aside beyond the cost. `spend`, `lock`, `unlock` and `debit` do
nothing when the balance is short.

`keep` selects the owners whose locked funds cover what they owe; nothing is said of the
others, whose short balances are tolerated. The two results are `settle_of_covered`, which
gives the balances after a sale, and `total_settle`, which says that a sale between two
owners of a carrier creates and destroys nothing.
-/

universe u v w

variable {U : Type u} {C : Type v} {M : Type w}

/-- Available and locked balances by owner and currency. -/
@[ext] structure Ledger (U : Type u) (C : Type v) (M : Type w) where
  available : U → C → M
  locked : U → C → M

namespace Ledger

variable [DecidableEq U] [DecidableEq C]

section Operations

/-- The balances with one of them replaced. -/
def replace (b : U → C → M) (u : U) (c : C) (x : M) : U → C → M :=
  fun v d => if v = u ∧ d = c then x else b v d

@[simp] theorem replace_self (b : U → C → M) (u : U) (c : C) (x : M) : replace b u c x u c = x :=
  if_pos ⟨rfl, rfl⟩

theorem replace_of_ne (b : U → C → M) {u v : U} (other : v ≠ u) (c : C) (x : M) :
    replace b u c x v = b v := by
  funext d
  exact if_neg fun same => other same.1

/-- Pay an amount to an owner. -/
def credit [Add M] (l : Ledger U C M) (u : U) (c : C) (x : M) : Ledger U C M :=
  { l with available := replace l.available u c (l.available u c + x) }

variable [LE M] [DecidableLE M] [Sub M]

/-- Take an amount from the available balance. -/
def debit (l : Ledger U C M) (u : U) (c : C) (x : M) : Ledger U C M :=
  if x ≤ l.available u c then { l with available := replace l.available u c (l.available u c - x) } else l

/-- Take an amount from the locked balance. -/
def spend (l : Ledger U C M) (u : U) (c : C) (x : M) : Ledger U C M :=
  if x ≤ l.locked u c then { l with locked := replace l.locked u c (l.locked u c - x) } else l

variable [Add M]

/-- Move an amount from the available to the locked balance. -/
def lock (l : Ledger U C M) (u : U) (c : C) (x : M) : Ledger U C M :=
  if x ≤ l.available u c then
    ⟨replace l.available u c (l.available u c - x), replace l.locked u c (l.locked u c + x)⟩
  else l

/-- Move an amount from the locked to the available balance. -/
def unlock (l : Ledger U C M) (u : U) (c : C) (x : M) : Ledger U C M :=
  if x ≤ l.locked u c then
    ⟨replace l.available u c (l.available u c + x), replace l.locked u c (l.locked u c - x)⟩
  else l

end Operations

/-- A sale of `amount` of `base` for `cost` of `quote`; the buyer had locked `refund` more
than the cost. -/
structure Sale (U : Type u) (C : Type v) (M : Type w) where
  buyer : U
  seller : U
  base : C
  quote : C
  amount : M
  cost : M
  refund : M

section Sales

variable [LE M] [DecidableLE M] [Sub M] [Add M]

/-- The part of a sale up to the seller's payment. -/
def deliver (l : Ledger U C M) (t : Sale U C M) : Ledger U C M :=
  ((l.spend t.buyer t.quote t.cost).credit t.buyer t.base t.amount).spend t.seller t.base t.amount

/-- A sale without the refund. -/
def pay (l : Ledger U C M) (t : Sale U C M) : Ledger U C M :=
  (l.deliver t).credit t.seller t.quote t.cost

/-- A whole sale. -/
def settle (l : Ledger U C M) (t : Sale U C M) : Ledger U C M :=
  (l.pay t).unlock t.buyer t.quote t.refund

end Sales

section Single

variable [AddCommGroup M]

/-- `x` of one currency for one owner. -/
def single (u : U) (c : C) (x : M) : U → C → M := fun v d => if v = u ∧ d = c then x else 0

theorem single_apply (u v : U) (c d : C) (x : M) :
    single u c x v d = if v = u ∧ d = c then x else 0 := rfl

theorem replace_add (b : U → C → M) (u : U) (c : C) (x : M) : replace b u c (b u c + x) = b + single u c x := by
  funext v d
  by_cases here : v = u ∧ d = c
  · obtain ⟨rfl, rfl⟩ := here
    simp [single]
  · simp [replace, single, here]

theorem replace_sub (b : U → C → M) (u : U) (c : C) (x : M) : replace b u c (b u c - x) = b - single u c x := by
  rw [sub_eq_add_neg, replace_add]
  funext v d
  by_cases here : v = u ∧ d = c <;> simp [single, here, sub_eq_add_neg]

/-- `single`, owner by owner. -/
theorem single_eq_ite (u v : U) (c d : C) (x : M) :
    single u c x v d = if u = v then if d = c then x else 0 else 0 := by
  rw [single_apply]
  by_cases same : u = v
  · simp only [same, true_and, if_true]
  · simp only [same, Ne.symm same, false_and, if_false]

@[simp] theorem single_self (u : U) (c : C) (x : M) : single u c x u c = x := by
  simp [single]

@[simp] theorem single_zero (u : U) (c : C) : single u c (0 : M) = 0 := by
  funext v d
  simp [single]

theorem single_of_ne {u v : U} (other : v ≠ u) (c d : C) (x : M) : single u c x v d = 0 := by
  simp [single, other]

theorem single_add (u : U) (c : C) (x y : M) : single u c (x + y) = single u c x + single u c y := by
  funext v d
  by_cases here : v = u ∧ d = c <;> simp [single, here]

theorem single_nonneg [PartialOrder M] (u : U) (c : C) {x : M} (nonneg : 0 ≤ x) (v : U) (d : C) :
    0 ≤ single u c x v d := by
  by_cases here : v = u ∧ d = c <;> simp [single, here, nonneg]

theorem sum_single (carrier : Finset U) (u : U) (c d : C) (x : M) :
    ∑ v ∈ carrier, single u c x v d = if u ∈ carrier ∧ d = c then x else 0 := by
  by_cases same : d = c
  · simp [single, same]
  · simp [single, same]

end Single

variable [LinearOrder M] [AddCommGroup M]

namespace Sale

/-- What the parties of a sale have locked for it. -/
def owed (t : Sale U C M) : U → C → M :=
  single t.buyer t.quote (t.cost + t.refund) + single t.seller t.base t.amount

/-- What the parties of a sale are paid, the refund included. -/
def received (t : Sale U C M) : U → C → M :=
  single t.buyer t.base t.amount + single t.buyer t.quote t.refund +
    single t.seller t.quote t.cost

/-- What the owners of a carrier gain by a sale with someone outside it. -/
def flow (carrier : Finset U) (t : Sale U C M) (d : C) : M :=
  (if t.buyer ∈ carrier ∧ t.seller ∉ carrier then
    (if d = t.base then t.amount else 0) - (if d = t.quote then t.cost else 0) else 0) +
  (if t.buyer ∉ carrier ∧ t.seller ∈ carrier then
    (if d = t.quote then t.cost else 0) - (if d = t.base then t.amount else 0) else 0)

end Sale

section Fields

variable (l : Ledger U C M) (u v : U) (c d : C) (x : M)

omit [LinearOrder M] in
@[simp] theorem credit_available : (l.credit u c x).available = l.available + single u c x :=
  replace_add ..

omit [LinearOrder M] in
@[simp] theorem credit_locked : (l.credit u c x).locked = l.locked := rfl

@[simp] theorem spend_available : (l.spend u c x).available = l.available := by
  unfold spend
  split <;> rfl

@[simp] theorem debit_locked : (l.debit u c x).locked = l.locked := by
  unfold debit
  split <;> rfl

theorem spend_locked_of_ne (other : v ≠ u) : (l.spend u c x).locked v = l.locked v := by
  unfold spend
  split
  · exact replace_of_ne _ other _ _
  · rfl

theorem unlock_available_of_ne (other : v ≠ u) : (l.unlock u c x).available v = l.available v := by
  unfold unlock
  split
  · exact replace_of_ne _ other _ _
  · rfl

theorem unlock_locked_of_ne (other : v ≠ u) : (l.unlock u c x).locked v = l.locked v := by
  unfold unlock
  split
  · exact replace_of_ne _ other _ _
  · rfl

variable {l u c x}

theorem debit_of_le (enough : x ≤ l.available u c) :
    l.debit u c x = { l with available := l.available - single u c x } := by
  rw [← replace_sub]
  exact if_pos enough

theorem lock_of_le (enough : x ≤ l.available u c) :
    l.lock u c x = ⟨l.available - single u c x, l.locked + single u c x⟩ := by
  rw [← replace_sub, ← replace_add]
  exact if_pos enough

theorem unlock_of_le (enough : x ≤ l.locked u c) :
    l.unlock u c x = ⟨l.available + single u c x, l.locked - single u c x⟩ := by
  rw [← replace_sub, ← replace_add]
  exact if_pos enough

theorem spend_of_le (enough : x ≤ l.locked u c) :
    l.spend u c x = { l with locked := l.locked - single u c x } := by
  rw [← replace_sub]
  exact if_pos enough

variable (l u c x)

@[simp] theorem unlock_zero : l.unlock u c 0 = l := by
  by_cases enough : 0 ≤ l.locked u c
  · rw [unlock_of_le enough]
    ext <;> simp
  · exact if_neg enough

end Fields

section Keep

variable {keep : U → Prop} {l : Ledger U C M} {u v : U} {c : C} {x : M}

/-- Spending, seen from an owner who is kept, when kept owners have enough. -/
theorem spend_locked_of_enough (enough : keep u → x ≤ l.locked u c) (kept : keep v) (d : C) :
    (l.spend u c x).locked v d = l.locked v d - single u c x v d := by
  by_cases same : v = u
  · subst same
    simp [spend_of_le (enough kept)]
  · rw [spend_locked_of_ne _ _ _ _ _ same, single_of_ne same, sub_zero]

theorem unlock_of_enough (enough : keep u → x ≤ l.locked u c) (kept : keep v) (d : C) :
    (l.unlock u c x).available v d = l.available v d + single u c x v d ∧
      (l.unlock u c x).locked v d = l.locked v d - single u c x v d := by
  by_cases same : v = u
  · subst same
    simp [unlock_of_le (enough kept)]
  · rw [unlock_available_of_ne _ _ _ _ _ same, unlock_locked_of_ne _ _ _ _ _ same,
      single_of_ne same, sub_zero, add_zero]
    exact ⟨rfl, rfl⟩

end Keep

/-- The locked balances of the kept owners are at least what `owed` says. -/
def Covers (keep : U → Prop) (l : Ledger U C M) (owed : U → C → M) : Prop :=
  ∀ u, keep u → ∀ c, owed u c ≤ l.locked u c

variable [IsOrderedAddMonoid M]

section Settle

variable {keep : U → Prop} {l : Ledger U C M} {t : Sale U C M}

theorem Sale.cost_le_owed (amount : 0 ≤ t.amount) (refund : 0 ≤ t.refund) :
    t.cost ≤ t.owed t.buyer t.quote := by
  have other := single_nonneg t.seller t.base amount t.buyer t.quote
  simp only [owed, Pi.add_apply, single_self]
  exact (le_add_of_nonneg_right refund).trans (le_add_of_nonneg_right other)

theorem spend_buyer_enough (amount : 0 ≤ t.amount) (refund : 0 ≤ t.refund)
    (covered : Covers keep l t.owed) (kept : keep t.buyer) : t.cost ≤ l.locked t.buyer t.quote :=
  (Sale.cost_le_owed amount refund).trans (covered _ kept _)

theorem spend_seller_enough (amount : 0 ≤ t.amount) (refund : 0 ≤ t.refund)
    (covered : Covers keep l t.owed) (kept : keep t.seller) :
    t.amount ≤ ((l.spend t.buyer t.quote t.cost).credit t.buyer t.base t.amount).locked
      t.seller t.base := by
  have bound := covered _ kept t.base
  have extra := single_nonneg t.buyer t.quote refund t.seller t.base
  rw [credit_locked, spend_locked_of_enough (spend_buyer_enough amount refund covered) kept]
  simp only [Sale.owed, single_add, Pi.add_apply, single_self] at bound
  rw [le_sub_iff_add_le']
  refine le_trans ?_ bound
  exact add_le_add_left (le_add_of_nonneg_right extra) _

/-- The balances of the kept owners when both sides have delivered. -/
theorem deliver_of_covered (amount : 0 ≤ t.amount) (refund : 0 ≤ t.refund)
    (covered : Covers keep l t.owed) {v : U} (kept : keep v) (d : C) :
    (l.deliver t).available v d = l.available v d + single t.buyer t.base t.amount v d ∧
      (l.deliver t).locked v d =
        l.locked v d - single t.buyer t.quote t.cost v d - single t.seller t.base t.amount v d := by
  refine ⟨by simp [deliver], ?_⟩
  unfold deliver
  rw [spend_locked_of_enough (spend_seller_enough amount refund covered) kept, credit_locked,
    spend_locked_of_enough (spend_buyer_enough amount refund covered) kept]

theorem unlock_buyer_enough (amount : 0 ≤ t.amount) (refund : 0 ≤ t.refund)
    (covered : Covers keep l t.owed) (kept : keep t.buyer) :
    t.refund ≤ ((l.deliver t).credit t.seller t.quote t.cost).locked t.buyer t.quote := by
  have bound := covered _ kept t.quote
  rw [credit_locked, (deliver_of_covered amount refund covered kept t.quote).2, single_self]
  simp only [Sale.owed, Pi.add_apply, single_self] at bound
  rw [le_sub_iff_add_le, le_sub_iff_add_le']
  rwa [add_assoc] at bound

/-- The balances of the kept owners after a sale whose parties have locked what they owe. -/
theorem settle_of_covered (amount : 0 ≤ t.amount) (refund : 0 ≤ t.refund)
    (covered : Covers keep l t.owed) {v : U} (kept : keep v) (d : C) :
    (l.settle t).available v d = l.available v d + t.received v d ∧
      (l.settle t).locked v d = l.locked v d - t.owed v d := by
  obtain ⟨available, locked⟩ := deliver_of_covered amount refund covered kept d
  obtain ⟨available', locked'⟩ := unlock_of_enough (unlock_buyer_enough amount refund covered) kept d
  refine ⟨?_, ?_⟩
  · rw [settle, pay, available', credit_available, Pi.add_apply, Pi.add_apply, available]
    simp only [Sale.received, Pi.add_apply]
    abel
  · rw [settle, pay, locked', credit_locked, locked]
    simp only [Sale.owed, single_add, Pi.add_apply]
    abel

end Settle

section Many

variable {keep : U → Prop}

/-- What is owed for one sale and for others covers the one, and the others once it is
settled. -/
theorem Covers.split {l : Ledger U C M} {t : Sale U C M} {rest : U → C → M}
    (amount : 0 ≤ t.amount) (refund : 0 ≤ t.refund) (nonneg : ∀ u, keep u → ∀ c, 0 ≤ rest u c)
    (covered : Covers keep l (t.owed + rest)) :
    Covers keep l t.owed ∧ Covers keep (l.settle t) rest := by
  have head : Covers keep l t.owed := fun u kept c =>
    (le_add_of_nonneg_right (nonneg u kept c)).trans (covered u kept c)
  refine ⟨head, fun u kept c => ?_⟩
  rw [(settle_of_covered amount refund head kept c).2]
  exact le_sub_iff_add_le'.mpr (covered u kept c)

theorem sum_owed_nonneg {ts : List (Sale U C M)}
    (nonneg : ∀ t ∈ ts, ∀ u, keep u → ∀ c, 0 ≤ t.owed u c) {u : U} (kept : keep u) (c : C) :
    0 ≤ (ts.map Sale.owed).sum u c := by
  induction ts with
  | nil => simp
  | cons t ts ih =>
    simp only [List.map_cons, List.sum_cons, Pi.add_apply]
    exact add_nonneg (nonneg t (by simp) u kept c)
      (ih fun t' member => nonneg t' (by simp [member]))

/-- Sales settled in turn, by owners who have locked what all of them owe. -/
theorem settle_foldl_of_covered {ts : List (Sale U C M)}
    (amounts : ∀ t ∈ ts, 0 ≤ t.amount ∧ 0 ≤ t.refund)
    (nonneg : ∀ t ∈ ts, ∀ u, keep u → ∀ c, 0 ≤ t.owed u c) {l : Ledger U C M}
    (covered : Covers keep l (ts.map Sale.owed).sum) {v : U} (kept : keep v) (d : C) :
    (ts.foldl settle l).available v d = l.available v d + (ts.map Sale.received).sum v d ∧
      (ts.foldl settle l).locked v d = l.locked v d - (ts.map Sale.owed).sum v d := by
  induction ts generalizing l with
  | nil => simp
  | cons t ts ih =>
    have later : ∀ t ∈ ts, ∀ u, keep u → ∀ c, 0 ≤ t.owed u c :=
      fun t member => nonneg t (by simp [member])
    obtain ⟨amount, refund⟩ := amounts t (by simp)
    rw [List.map_cons, List.sum_cons] at covered
    obtain ⟨head, tail⟩ := covered.split amount refund fun u kept c => sum_owed_nonneg later kept c
    obtain ⟨available, locked⟩ := settle_of_covered amount refund head kept d
    obtain ⟨available', locked'⟩ := ih (fun t member => amounts t (by simp [member])) later tail
    simp only [List.foldl_cons, List.map_cons, List.sum_cons, Pi.add_apply]
    rw [available', locked', available, locked]
    exact ⟨by abel, by abel⟩

end Many

section Worth

/-- All that an owner has in a currency. -/
def worth (l : Ledger U C M) : U → C → M := l.available + l.locked

variable {l : Ledger U C M} {u : U} {c : C} {x : M}

/-- What the parties of a sale have more or less after it. -/
def Sale.gain (t : Sale U C M) : U → C → M :=
  single t.buyer t.base t.amount - single t.buyer t.quote t.cost + single t.seller t.quote t.cost -
    single t.seller t.base t.amount

omit [LinearOrder M] [IsOrderedAddMonoid M] in
theorem Sale.received_eq (t : Sale U C M) : t.received = t.owed + t.gain := by
  unfold received owed gain
  rw [single_add]
  abel

omit [LinearOrder M] [IsOrderedAddMonoid M] in
theorem Sale.sum_received (ts : List (Sale U C M)) :
    (ts.map received).sum = (ts.map owed).sum + (ts.map gain).sum := by
  induction ts with
  | nil => simp
  | cons t ts ih =>
    simp only [List.map_cons, List.sum_cons, ih, received_eq]
    abel

/-- Sales settled in turn make a kept owner richer by the gains. -/
theorem worth_settle_foldl {keep : U → Prop} {ts : List (Sale U C M)}
    (amounts : ∀ t ∈ ts, 0 ≤ t.amount ∧ 0 ≤ t.refund)
    (nonneg : ∀ t ∈ ts, ∀ u, keep u → ∀ c, 0 ≤ t.owed u c)
    (covered : Covers keep l (ts.map Sale.owed).sum) {v : U} (kept : keep v) (d : C) :
    (ts.foldl settle l).worth v d = l.worth v d + (ts.map Sale.gain).sum v d := by
  obtain ⟨available, locked⟩ := settle_foldl_of_covered amounts nonneg covered kept d
  unfold worth
  rw [Pi.add_apply, Pi.add_apply, Pi.add_apply, Pi.add_apply, available, locked, Sale.sum_received,
    Pi.add_apply, Pi.add_apply]
  abel

/-- A sale that ends before the seller is paid. -/
theorem worth_deliver {keep : U → Prop} {t : Sale U C M} (amount : 0 ≤ t.amount) (refund : 0 ≤ t.refund)
    (covered : Covers keep l t.owed) {v : U} (kept : keep v) (d : C) :
    (l.deliver t).worth v d = l.worth v d + t.gain v d - single t.seller t.quote t.cost v d := by
  obtain ⟨available, locked⟩ := deliver_of_covered amount refund covered kept d
  unfold worth Sale.gain
  simp only [Pi.add_apply, Pi.sub_apply, available, locked]
  abel

end Worth

section Total

/-- All that the owners of a carrier have in a currency. -/
def total (carrier : Finset U) (l : Ledger U C M) (d : C) : M :=
  ∑ v ∈ carrier, (l.available v d + l.locked v d)

omit [DecidableEq U] [DecidableEq C] [LinearOrder M] [IsOrderedAddMonoid M] in
/-- A change of the balances known for every owner of the carrier, summed. -/
theorem total_of_changes {carrier : Finset U} {l l' : Ledger U C M} {d : C} (gain loss : U → C → M)
    (available : ∀ v ∈ carrier, l'.available v d = l.available v d + gain v d)
    (locked : ∀ v ∈ carrier, l'.locked v d = l.locked v d - loss v d) :
    l'.total carrier d = l.total carrier d + ∑ v ∈ carrier, (gain v d - loss v d) := by
  unfold total
  rw [← Finset.sum_add_distrib]
  apply Finset.sum_congr rfl
  intro v member
  rw [available v member, locked v member]
  abel

omit [LinearOrder M] [IsOrderedAddMonoid M] in
/-- What the parties are paid beyond what they owe is the flow from outside the carrier. -/
theorem Sale.sum_received_sub_owed (t : Sale U C M) (carrier : Finset U) (d : C) :
    ∑ v ∈ carrier, (t.received v d - t.owed v d) = t.flow carrier d := by
  simp only [received, owed, single_add, Pi.add_apply, Finset.sum_sub_distrib,
    Finset.sum_add_distrib, sum_single, flow]
  by_cases buyer : t.buyer ∈ carrier <;> by_cases seller : t.seller ∈ carrier <;>
    simp only [buyer, seller, true_and, false_and, and_true, and_false, not_true, not_false_eq_true,
      if_false, if_true, add_zero, zero_add, sub_self] <;>
    abel

omit [IsOrderedAddMonoid M] in
theorem total_lock (carrier : Finset U) (l : Ledger U C M) (u : U) (c : C) (x : M) (d : C) :
    (l.lock u c x).total carrier d = l.total carrier d := by
  by_cases enough : x ≤ l.available u c
  · rw [lock_of_le enough]
    unfold total
    apply Finset.sum_congr rfl
    intro v _
    simp only [Pi.add_apply, Pi.sub_apply]
    abel
  · rw [lock, if_neg enough]

omit [IsOrderedAddMonoid M] in
theorem total_unlock (carrier : Finset U) (l : Ledger U C M) (u : U) (c : C) (x : M) (d : C) :
    (l.unlock u c x).total carrier d = l.total carrier d := by
  by_cases enough : x ≤ l.locked u c
  · rw [unlock_of_le enough]
    unfold total
    apply Finset.sum_congr rfl
    intro v _
    simp only [Pi.add_apply, Pi.sub_apply]
    abel
  · rw [unlock, if_neg enough]

omit [LinearOrder M] [IsOrderedAddMonoid M] in
theorem total_credit {carrier : Finset U} (l : Ledger U C M) {u : U} (member : u ∈ carrier) (c : C)
    (x : M) (d : C) :
    (l.credit u c x).total carrier d = l.total carrier d + if d = c then x else 0 := by
  rw [total_of_changes (l := l) (single u c x) 0 (fun v _ => by rw [credit_available]; rfl) (fun v _ => by simp)]
  simp [sum_single, member]

omit [IsOrderedAddMonoid M] in
theorem total_debit {carrier : Finset U} {l : Ledger U C M} {u : U} (member : u ∈ carrier) {c : C}
    {x : M} (enough : x ≤ l.available u c) (d : C) :
    (l.debit u c x).total carrier d = l.total carrier d + if d = c then - x else 0 := by
  rw [debit_of_le enough]
  have taken : total carrier ⟨l.available - single u c x, l.locked⟩ d =
      l.total carrier d + ∑ v ∈ carrier, ((- single u c x) v d - (0 : U → C → M) v d) :=
    total_of_changes _ _ (fun v _ => sub_eq_add_neg _ _) (fun v _ => (sub_zero _).symm)
  rw [taken]
  simp only [Pi.neg_apply, Pi.zero_apply, sub_zero, Finset.sum_neg_distrib, sum_single, member,
    true_and]
  split
  · rfl
  · rw [neg_zero]

omit [DecidableEq U] [DecidableEq C] [LinearOrder M] [IsOrderedAddMonoid M] in
/-- Owners with nothing do not count. -/
theorem total_of_subset {carrier carrier' : Finset U} (subset : carrier ⊆ carrier')
    {l : Ledger U C M} (nothing : ∀ v ∈ carrier', v ∉ carrier → ∀ d, l.available v d + l.locked v d = 0)
    (d : C) : l.total carrier' d = l.total carrier d :=
  (Finset.sum_subset subset fun v member out => nothing v member out d).symm

theorem total_settle {carrier : Finset U} {l : Ledger U C M} {t : Sale U C M}
    (amount : 0 ≤ t.amount) (refund : 0 ≤ t.refund) (covered : Covers (· ∈ carrier) l t.owed)
    (d : C) : (l.settle t).total carrier d = l.total carrier d + t.flow carrier d := by
  rw [← Sale.sum_received_sub_owed]
  exact total_of_changes _ _
    (fun v member => (settle_of_covered amount refund covered member d).1)
    (fun v member => (settle_of_covered amount refund covered member d).2)

/-- A sale that ends before the seller is paid leaves the cost out. -/
theorem total_deliver {carrier : Finset U} {l : Ledger U C M} {t : Sale U C M}
    (amount : 0 ≤ t.amount) (refund : 0 ≤ t.refund) (covered : Covers (· ∈ carrier) l t.owed)
    (d : C) :
    (l.deliver t).total carrier d = l.total carrier d + t.flow carrier d -
      (if t.seller ∈ carrier ∧ d = t.quote then t.cost else 0) := by
  rw [total_of_changes (single t.buyer t.base t.amount)
    (single t.buyer t.quote t.cost + single t.seller t.base t.amount)
    (fun v member => (deliver_of_covered amount refund covered member d).1)
    (fun v member => by
      rw [(deliver_of_covered amount refund covered member d).2, Pi.add_apply, Pi.add_apply]
      abel),
    ← Sale.sum_received_sub_owed]
  simp only [Sale.received, Sale.owed, single_add, Pi.add_apply, Finset.sum_sub_distrib,
    Finset.sum_add_distrib, sum_single]
  abel

theorem total_settle_foldl {carrier : Finset U} {ts : List (Sale U C M)}
    (amounts : ∀ t ∈ ts, 0 ≤ t.amount ∧ 0 ≤ t.refund)
    (nonneg : ∀ t ∈ ts, ∀ u ∈ carrier, ∀ c, 0 ≤ t.owed u c) {l : Ledger U C M}
    (covered : Covers (· ∈ carrier) l (ts.map Sale.owed).sum) (d : C) :
    (ts.foldl settle l).total carrier d =
      l.total carrier d + (ts.map fun t => t.flow carrier d).sum := by
  induction ts generalizing l with
  | nil => simp
  | cons t ts ih =>
    have later : ∀ t ∈ ts, ∀ u ∈ carrier, ∀ c, 0 ≤ t.owed u c :=
      fun t member => nonneg t (by simp [member])
    obtain ⟨amount, refund⟩ := amounts t (by simp)
    rw [List.map_cons, List.sum_cons] at covered
    obtain ⟨head, tail⟩ := covered.split amount refund fun u kept c => sum_owed_nonneg later kept c
    rw [List.foldl_cons, ih (fun t member => amounts t (by simp [member])) later tail,
      total_settle amount refund head, List.map_cons, List.sum_cons, add_assoc]

end Total

end Ledger
