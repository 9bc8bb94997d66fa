import MiniATS.Misc.Ledger
import MiniATS.Server.OrderBook
import Mathlib.Algebra.Order.Ring.Rat

/-!
# What an order reserves

An ask reserves its amount of the base token, a bid its amount times its price of the quote
token. `reserved` is the sum over a user's open orders; `claim` spreads one order over all
users and currencies, so that sums of claims are added and compared as functions.
-/

namespace MiniATS

open Ledger CSVHandler

namespace OrderBookEntry

/-- The amount an open order keeps locked. -/
def need (o : OrderBookEntry ℚ) : ℚ :=
  match o.orderType with
  | .ask => o.amount
  | .bid => o.amount * o.price
  | .sale => 0

/-- The currency in which an open order keeps it locked. -/
def reservedToken (o : OrderBookEntry ℚ) : Option Str :=
  match pairTokens Wallet.invalidProduct o.product, o.orderType with
  | .ok (base, _), .ask => some base
  | .ok (_, quote'), .bid => some quote'
  | _, _ => none

/-- What an order reserves, by user and currency. -/
def claim (o : OrderBookEntry ℚ) : Str → Str → ℚ :=
  match o.reservedToken with
  | some c => single o.username c o.need
  | none => 0

theorem need_of_ask {o : OrderBookEntry ℚ} (type : o.orderType = .ask) : o.need = o.amount := by
  simp only [need, type]

theorem need_of_bid {o : OrderBookEntry ℚ} (type : o.orderType = .bid) :
    o.need = o.amount * o.price := by
  simp only [need, type]

theorem claim_of_token {o : OrderBookEntry ℚ} {c : Str} (token : o.reservedToken = some c) :
    o.claim = single o.username c o.need := by
  simp [claim, token]

theorem claim_apply (o : OrderBookEntry ℚ) (u c : Str) :
    o.claim u c = if o.username = u ∧ o.reservedToken = some c then o.need else 0 := by
  unfold claim
  cases token : o.reservedToken with
  | none => simp
  | some d => simp only [single_apply, Option.some.injEq, eq_comm]

theorem claim_of_ne {o : OrderBookEntry ℚ} {u : Str} (other : o.username ≠ u) (c : Str) :
    o.claim u c = 0 := by
  simp [claim_apply, other]

theorem claim_nonneg {o : OrderBookEntry ℚ} {u : Str} (nonneg : o.username = u → 0 ≤ o.need)
    (c : Str) : 0 ≤ o.claim u c := by
  rw [claim_apply]
  split
  · exact nonneg (And.left ‹_›)
  · exact le_rfl

/-- The tokens of a product, whatever is thrown when it has not got two. -/
theorem pairTokens_ok {what product : Str} {tokens : Str × Str}
    (pair : pairTokens what product = .ok tokens) (what' : Str) :
    pairTokens what' product = .ok tokens := by
  unfold pairTokens at pair ⊢
  split at pair
  · cases pair
  · exact pair
  · cases pair

theorem extractTokens_of_pairTokens {what product base quote' : Str}
    (pair : pairTokens what product = .ok (base, quote')) :
    extractTokens product 47 = .ok [base, quote'] := by
  unfold pairTokens at pair
  split at pair
  · cases pair
  · obtain ⟨rfl, rfl⟩ := Prod.mk.inj (Except.ok.inj pair)
    assumption
  · cases pair

private theorem extractTokensLoop_error {csvLine : Str} {separator : UInt8} {e : Exn} (fuel : Nat)
    {start : Int} {tokens : List Str}
    (failed : extractTokensLoop csvLine separator fuel start tokens = .error e) :
    ∃ what, e = .outOfRange what := by
  have substr : ∀ {pos count : Nat} {e' : Exn}, Str.substr csvLine pos count = .error e' →
      ∃ what, e' = .outOfRange what := by
    intro pos count e' thrown
    unfold Str.substr at thrown
    split at thrown
    · exact ⟨_, (Except.error.inj thrown).symm⟩
    · cases thrown
  induction fuel generalizing start tokens with
  | zero => cases failed
  | succ fuel ih =>
    unfold extractTokensLoop at failed
    dsimp only at failed
    split at failed
    · cases failed
    split at failed
    · split at failed
      · obtain rfl := Except.error.inj failed
        exact substr ‹_›
      · exact ih failed
    · split at failed
      · obtain rfl := Except.error.inj failed
        exact substr ‹_›
      · cases failed

/-- No text that is not a product makes `processSale` throw what a short balance makes it throw. -/
theorem pairTokens_ne_runtimeError (what product text : Str) :
    pairTokens what product ≠ .error (.runtimeError text) := by
  intro failed
  unfold pairTokens at failed
  split at failed
  · rename_i e thrown
    obtain rfl := Except.error.inj failed
    obtain ⟨_, impossible⟩ := extractTokensLoop_error _ thrown
    cases impossible
  · cases failed
  · cases failed

end OrderBookEntry

open OrderBookEntry

/-- The sum of the claims of some orders. -/
def claims (l : List (OrderBookEntry ℚ)) : Str → Str → ℚ := (l.map claim).sum

@[simp] theorem claims_nil : claims [] = 0 := rfl

@[simp] theorem claims_cons (o : OrderBookEntry ℚ) (l : List (OrderBookEntry ℚ)) :
    claims (o :: l) = o.claim + claims l := by
  simp [claims]

@[simp] theorem claims_append (l l' : List (OrderBookEntry ℚ)) :
    claims (l ++ l') = claims l + claims l' := by
  simp [claims]

theorem claims_perm {l l' : List (OrderBookEntry ℚ)} (perm : l.Perm l') : claims l = claims l' :=
  (perm.map claim).sum_eq

theorem claims_apply (l : List (OrderBookEntry ℚ)) (u c : Str) :
    claims l u c = (l.map (fun o => o.claim u c)).sum := by
  induction l with
  | nil => rfl
  | cons o l ih => simp [ih]

theorem claims_nonneg {l : List (OrderBookEntry ℚ)} {u : Str}
    (nonneg : ∀ o ∈ l, o.username = u → 0 ≤ o.need) (c : Str) : 0 ≤ claims l u c := by
  rw [claims_apply]
  apply List.sum_nonneg
  intro x member
  obtain ⟨o, inList, rfl⟩ := List.mem_map.mp member
  exact claim_nonneg (nonneg o inList) c

/-- An order of the list claims no more than the list, when nothing it claims is negative. -/
theorem claim_le_claims {l : List (OrderBookEntry ℚ)} {u : Str}
    (nonneg : ∀ o ∈ l, o.username = u → 0 ≤ o.need) {o : OrderBookEntry ℚ} (member : o ∈ l)
    (c : Str) : o.claim u c ≤ claims l u c := by
  rw [claims_perm (List.perm_cons_erase member), claims_cons, Pi.add_apply, Pi.add_apply]
  exact le_add_of_nonneg_right
    (claims_nonneg (fun o' inList => nonneg o' (List.mem_of_mem_erase inList)) c)

/-- Some orders of a list claim no more than the list, when nothing it claims is negative. -/
theorem claims_sublist {l l' : List (OrderBookEntry ℚ)} {u : Str} (fewer : l.Sublist l')
    (nonneg : ∀ o ∈ l', o.username = u → 0 ≤ o.need) (c : Str) : claims l u c ≤ claims l' u c := by
  induction fewer with
  | slnil => exact le_rfl
  | @cons l l' o _ ih =>
    rw [claims_cons, Pi.add_apply, Pi.add_apply]
    exact le_add_of_nonneg_of_le (claim_nonneg (nonneg o List.mem_cons_self) c)
      (ih fun o' member => nonneg o' (List.mem_cons_of_mem _ member))
  | @cons_cons l l' o _ ih =>
    rw [claims_cons, claims_cons]
    exact add_le_add le_rfl (ih fun o' member => nonneg o' (List.mem_cons_of_mem _ member))

theorem claims_of_ne {l : List (OrderBookEntry ℚ)} {u : Str} (others : ∀ o ∈ l, o.username ≠ u)
    (c : Str) : claims l u c = 0 := by
  rw [claims_apply]
  apply List.sum_eq_zero
  intro x member
  obtain ⟨o, inList, rfl⟩ := List.mem_map.mp member
  exact claim_of_ne (others o inList) c

namespace OrderBook

/-- The amount of a currency that a user's open orders reserve. -/
def reserved (book : OrderBook ℚ) (u c : Str) : ℚ :=
  ((book.getAllOrders.filter (fun o => o.username = u ∧ o.reservedToken = some c)).map need).sum

theorem reserved_eq_claims (book : OrderBook ℚ) (u c : Str) :
    book.reserved u c = claims book.getAllOrders u c := by
  unfold reserved
  rw [claims_apply]
  induction book.getAllOrders with
  | nil => rfl
  | cons o l ih =>
    rw [List.filter_cons, List.map_cons, List.sum_cons, claim_apply]
    split <;> simp_all

end OrderBook

end MiniATS
