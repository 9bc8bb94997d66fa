import MiniATS.Server.CSVHandler

/-!
# `Wallet`

Available and locked balances (`Wallet.cpp:23-132`). A method that changes the wallet returns
the new one; one that throws leaves it as it was. Reading a balance with `operator[]` creates
the key (`touch`), as the source does where it tests `locked[type]`.
-/

namespace MiniATS

open CSVHandler

/-- `class Wallet`: `std::map<std::string, double>` for each kind of balance. -/
structure Wallet (R : Type) where
  currencies : KeyedMap Str R
  locked : KeyedMap Str R

namespace Wallet

variable {R : Type} [Zero R]

/-- A new user's wallet. -/
def empty : Wallet R := ⟨∅, ∅⟩

/-- `m[type]` as an expression: the key is there afterwards. -/
def touch (m : KeyedMap Str R) (type : Str) : KeyedMap Str R := m.insert type (m.get type 0)

/-- The available balance in a currency. -/
def available (w : Wallet R) (type : Str) : R := w.currencies.get type 0

/-- The locked balance in a currency. -/
def lockedIn (w : Wallet R) (type : Str) : R := w.locked.get type 0

variable [LT R] [LE R] [DecidableLT R] [DecidableLE R]

/-- What `insertCurrency`, `removeCurrency` and `containsAmmount` throw. -/
def negativeAmount : Exn := .invalidArgument (str "Amount cannot be negative")

/-- `insertCurrency` (`Wallet.cpp:23-29`). -/
def insertCurrency [Add R] (w : Wallet R) (type : Str) (amount : R) : Except Exn (Wallet R) :=
  if amount < 0 then .error negativeAmount
  else .ok { w with currencies := w.currencies.insert type (w.currencies.get type 0 + amount) }

/-- `containsAmmount` (`Wallet.cpp:43-53`). -/
def containsAmmount (w : Wallet R) (type : Str) (amount : R) : Except Exn Bool :=
  if amount < 0 then .error negativeAmount
  else match w.currencies.lookup type with
    | some balance => .ok (decide (amount ≤ balance))
    | none => .ok (decide (amount ≤ 0))

/-- `removeCurrency` (`Wallet.cpp:31-41`). -/
def removeCurrency [Sub R] (w : Wallet R) (type : Str) (amount : R) :
    Except Exn (Bool × Wallet R) :=
  if amount < 0 then .error negativeAmount
  else match w.containsAmmount type amount with
    | .error e => .error e
    | .ok true =>
      .ok (true, { w with currencies := w.currencies.insert type (w.currencies.get type 0 - amount) })
    | .ok false => .ok (false, w)

/-- `lockCurrency` (`Wallet.cpp:89-97`). -/
def lockCurrency [Add R] [Sub R] (w : Wallet R) (type : Str) (amount : R) :
    Except Exn (Bool × Wallet R) :=
  match w.containsAmmount type amount with
  | .error e => .error e
  | .ok true =>
    .ok (true, { currencies := w.currencies.insert type (w.currencies.get type 0 - amount)
                 locked := w.locked.insert type (w.locked.get type 0 + amount) })
  | .ok false => .ok (false, w)

/-- What `fulfillOrder` and `cancelOrder` throw on a product without exactly two tokens. -/
def invalidProduct : Str := str "Invalid product format in order"

/-- `fulfillOrder` (`Wallet.cpp:73-87`). -/
def fulfillOrder [Add R] [Sub R] [Mul R] (w : Wallet R) (order : OrderBookEntry R) :
    Except Exn (Bool × Wallet R) :=
  match pairTokens invalidProduct order.product with
  | .error e => .error e
  | .ok (base, quote') =>
    match order.orderType with
    | .ask => w.lockCurrency base order.amount
    | .bid => w.lockCurrency quote' (order.amount * order.price)
    | .sale => .ok (false, w)

/-- `unlockCurrency` (`Wallet.cpp:115-123`). -/
def unlockCurrency [Add R] [Sub R] (w : Wallet R) (type : Str) (amount : R) : Bool × Wallet R :=
  if amount ≤ w.locked.get type 0 then
    (true, { currencies := w.currencies.insert type (w.currencies.get type 0 + amount)
             locked := w.locked.insert type (w.locked.get type 0 - amount) })
  else (false, { w with locked := touch w.locked type })

/-- `spendLocked` (`Wallet.cpp:125-132`). -/
def spendLocked [Sub R] (w : Wallet R) (type : Str) (amount : R) : Bool × Wallet R :=
  if amount ≤ w.locked.get type 0 then
    (true, { w with locked := w.locked.insert type (w.locked.get type 0 - amount) })
  else (false, { w with locked := touch w.locked type })

/-- `cancelOrder` (`Wallet.cpp:99-113`). -/
def cancelOrder [Add R] [Sub R] [Mul R] (w : Wallet R) (order : OrderBookEntry R) :
    Except Exn (Bool × Wallet R) :=
  match pairTokens invalidProduct order.product with
  | .error e => .error e
  | .ok (base, quote') =>
    match order.orderType with
    | .ask => .ok (w.unlockCurrency base order.amount)
    | .bid => .ok (w.unlockCurrency quote' (order.amount * order.price))
    | .sale => .ok (false, w)

end Wallet

end MiniATS
