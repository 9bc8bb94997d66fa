import MiniATS.Misc.ListFacts
import MiniATS.Misc.StdSort
import MiniATS.Server.UserStore

/-!
# `OrderBook`

The product lists, the per-user index and the finalised sales (`OrderBook.cpp:13-211`,
`:316-348`). The index holds pointers to list nodes; a node is named by the id of its order,
which the constructor of `OrderBookEntry` makes unique, so `userOrders` holds ids and `deref`
finds the order. The iteration order of an `unordered_map` is unspecified; here it is the
order of the map's entries.
-/

namespace MiniATS

open CSVHandler

/-- `class OrderBook`. -/
structure OrderBook (R : Type) where
  filename : Str
  finalizedSales : List (OrderBookEntry R)
  orderMap : KeyedMap Str (List (OrderBookEntry R))
  userOrders : KeyedMap Str (List Nat)

namespace OrderBook

variable {R : Type}

/-- The constructor (`OrderBook.cpp:13-17`): the book read from a file, and `nextId`. -/
def make (env : Env R) (filename : Str) (file : Option Str) (nextId : Nat) :
    Except Exn (OrderBook R × Nat) :=
  match readCSV env file nextId with
  | .error e => .error e
  | .ok (orderMap, nextId') => .ok (⟨filename, [], orderMap, ∅⟩, nextId')

/-- The list of a product, empty if the product is not known. -/
def orders (book : OrderBook R) (product : Str) : List (OrderBookEntry R) :=
  book.orderMap.get product []

/-- `getKnownProducts` (`OrderBook.cpp:19-27`). -/
def getKnownProducts (book : OrderBook R) : List Str := book.orderMap.keys

/-- `getAllOrders` (`OrderBook.cpp:137-145`). -/
def getAllOrders (book : OrderBook R) : List (OrderBookEntry R) := book.orderMap.flat

/-- The order a pointer of the index refers to. -/
def deref (book : OrderBook R) (id : Nat) : Option (OrderBookEntry R) :=
  book.getAllOrders.find? (fun e => e.id == id)

/-- Where `insertOrder` puts a late order (`OrderBook.cpp:129-133`): it scans back over the
orders with a later timestamp. -/
def insertLate (orderList : List (OrderBookEntry R)) (order : OrderBookEntry R) :
    List (OrderBookEntry R) :=
  let later := fun e : OrderBookEntry R => decide (order.timestamp < e.timestamp)
  (orderList.reverse.dropWhile later).reverse ++ order :: (orderList.reverse.takeWhile later).reverse

/-- The list after `insertOrder`: at the end when the list is empty or no later order ends it. -/
def insertInto (orderList : List (OrderBookEntry R)) (order : OrderBookEntry R) :
    List (OrderBookEntry R) :=
  match orderList.getLast? with
  | none => orderList ++ [order]
  | some back =>
    if back.timestamp ≤ order.timestamp then orderList ++ [order] else insertLate orderList order

/-- `insertOrder` (`OrderBook.cpp:116-135`). -/
def insertOrder (book : OrderBook R) (order : OrderBookEntry R) : OrderBook R :=
  { book with
    orderMap := book.orderMap.insert order.product (insertInto (book.orders order.product) order)
    userOrders := book.userOrders.insert order.username
      (book.userOrders.get order.username [] ++ [order.id]) }

/-- `getOrdersForUser` (`OrderBook.cpp:147-157`). -/
def getOrdersForUser (book : OrderBook R) (username : Str) : List (OrderBookEntry R) :=
  (book.userOrders.get username []).filterMap book.deref

/-- `insertSales` (`OrderBook.cpp:159-162`). -/
def insertSales (book : OrderBook R) (sales : List (OrderBookEntry R)) : OrderBook R :=
  { book with finalizedSales := book.finalizedSales ++ sales }

/-- `getSales` (`OrderBook.cpp:164-167`). -/
def getSales (book : OrderBook R) : List (OrderBookEntry R) := book.finalizedSales

/-- The index after a vector has become `userVec`: an empty vector's key is erased. -/
def setUserVec (userOrders : KeyedMap Str (List Nat)) (username : Str) (userVec : List Nat) :
    KeyedMap Str (List Nat) :=
  if userVec.isEmpty then userOrders.erase username else userOrders.insert username userVec

/-- `removeOrderById` (`OrderBook.cpp:169-211`): whether an order was removed, and the book. -/
def removeOrderById (book : OrderBook R) (username : Str) (id : Nat) : Bool × OrderBook R :=
  match book.userOrders.lookup username with
  | none => (false, book)
  | some userVec =>
    match userVec.find? (fun entry => entry == id) with
    | none => (false, book)
    | some entry =>
      match book.deref entry with
      | none => (false, book)
      | some order =>
        match book.orderMap.lookup order.product with
        | none => (false, book)
        | some orderList =>
          if orderList.any (fun e => e.id == id) then
            (true, { book with
              orderMap := book.orderMap.insert order.product
                (orderList.eraseP (fun e => e.id == id))
              userOrders := setUserVec book.userOrders username (userVec.erase entry) })
          else (false, book)

/-- `removeFromUserIndex` (`OrderBook.cpp:332-348`). -/
def removeFromUserIndex (userOrders : KeyedMap Str (List Nat)) (username : Str) (orderId : Nat) :
    KeyedMap Str (List Nat) :=
  match userOrders.lookup username with
  | none => userOrders
  | some userVec => setUserVec userOrders username (userVec.filter (fun entry => entry != orderId))

variable [Zero R] [LE R] [DecidableLE R]

/-- The loop of `removeMatchedOrders` (`OrderBook.cpp:322-329`). -/
def removeMatchedLoop : List (OrderBookEntry R) → KeyedMap Str (List Nat) →
    List (OrderBookEntry R) × KeyedMap Str (List Nat)
  | [], userOrders => ([], userOrders)
  | order :: orderList, userOrders =>
    if order.amount ≤ 0 then
      removeMatchedLoop orderList (removeFromUserIndex userOrders order.username order.id)
    else
      let r := removeMatchedLoop orderList userOrders
      (order :: r.1, r.2)

/-- `removeMatchedOrders` (`OrderBook.cpp:316-330`). -/
def removeMatchedOrders (book : OrderBook R) (product : Str) : OrderBook R :=
  match book.orderMap.lookup product with
  | none => book
  | some orderList =>
    let r := removeMatchedLoop orderList book.userOrders
    { book with orderMap := book.orderMap.insert product r.1, userOrders := r.2 }

end OrderBook

end MiniATS
