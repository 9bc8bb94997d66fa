import MiniATS.Cxx.Str
import Mathlib.Data.List.Lex

/-!
# `OrderBookEntry`

An order or a sale (`OrderBookEntry.hpp`, `OrderBookEntry.cpp:4-54`). The static counter
`nextId` is passed in and out of the constructor.
-/

namespace MiniATS

/-- `enum class OrderBookType`. -/
inductive OrderBookType
  | bid
  | ask
  | sale
  deriving DecidableEq, Repr

/-- `class OrderBookEntry`. -/
structure OrderBookEntry (R : Type) where
  price : R
  amount : R
  timestamp : Str
  product : Str
  orderType : OrderBookType
  username : Str
  id : Nat
  deriving DecidableEq

/-- The username that orders of the CSV file and sales carry. -/
def defaultUser : Str := str "default"

namespace OrderBookEntry

variable {R : Type}

/-- The constructor (`OrderBookEntry.cpp:6-21`): the entry and the advanced `nextId`. -/
def make (price amount : R) (timestamp product : Str) (orderType : OrderBookType)
    (username : Str) (nextId : Nat) : OrderBookEntry R × Nat :=
  ({ price, amount, timestamp, product, orderType, username, id := nextId }, nextId + 1)

/-- `determineOrderType` (`OrderBookEntry.cpp:23-33`). -/
def determineOrderType (typeStr : Str) : Except Exn OrderBookType :=
  if typeStr = str "bid" then .ok .bid
  else if typeStr = str "ask" then .ok .ask
  else if typeStr = str "sale" then .ok .sale
  else .error (.invalidArgument (str "Invalid order type string: " ++ typeStr))

/-- `orderTypeToString` (`OrderBookEntry.cpp:35-42`). -/
def orderTypeToString : OrderBookType → Str
  | .bid => str "bid"
  | .ask => str "ask"
  | .sale => str "sale"

/-- `compareByTimestamp` (`OrderBookEntry.cpp:44-46`). -/
def compareByTimestamp (a b : OrderBookEntry R) : Bool := decide (a.timestamp < b.timestamp)

/-- `compareByPriceAsc` (`OrderBookEntry.cpp:48-50`). -/
def compareByPriceAsc [LT R] [DecidableLT R] (a b : OrderBookEntry R) : Bool :=
  decide (a.price < b.price)

/-- `compareByPriceDesc` (`OrderBookEntry.cpp:52-54`). -/
def compareByPriceDesc [LT R] [DecidableLT R] (a b : OrderBookEntry R) : Bool :=
  decide (b.price < a.price)

/-- The same entry with another amount. -/
def withAmount (e : OrderBookEntry R) (amount : R) : OrderBookEntry R := { e with amount }

section Fields

variable (e : OrderBookEntry R) (x y : R)

@[simp] theorem withAmount_price : (e.withAmount x).price = e.price := rfl
@[simp] theorem withAmount_amount : (e.withAmount x).amount = x := rfl
@[simp] theorem withAmount_timestamp : (e.withAmount x).timestamp = e.timestamp := rfl
@[simp] theorem withAmount_product : (e.withAmount x).product = e.product := rfl
@[simp] theorem withAmount_orderType : (e.withAmount x).orderType = e.orderType := rfl
@[simp] theorem withAmount_username : (e.withAmount x).username = e.username := rfl
@[simp] theorem withAmount_id : (e.withAmount x).id = e.id := rfl
@[simp] theorem withAmount_withAmount : (e.withAmount x).withAmount y = e.withAmount y := rfl
@[simp] theorem withAmount_self : e.withAmount e.amount = e := rfl

end Fields

end OrderBookEntry

end MiniATS
