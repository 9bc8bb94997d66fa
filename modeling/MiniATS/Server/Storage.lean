import MiniATS.Cxx.Json
import MiniATS.Server.OrderBook

/-!
# The JSON files

What `users.json` and `orderbook.json` hold (`OrderBookEntry.cpp:56-85`, `Wallet.cpp:134-146`,
`User.cpp:22-36`), and `save` and `load` of the store (`UserStore.cpp:39-67`) and of the book
(`OrderBook.cpp:350-386`). A file that is there is its content; `none` stands for one that cannot be
opened.
-/

namespace MiniATS

open Json

variable {R Text : Type}

namespace OrderBookEntry

/-- The members of `to_json` (`OrderBookEntry.cpp:57-65`). -/
def members (e : OrderBookEntry R) : List (Str × Json R) :=
  [(str "amount", .number e.amount), (str "id", .unsigned e.id),
    (str "orderType", .string (orderTypeToString e.orderType)), (str "price", .number e.price),
    (str "product", .string e.product), (str "timestamp", .string e.timestamp),
    (str "username", .string e.username)]

/-- `to_json` (`OrderBookEntry.cpp:56-66`). -/
def toJson (e : OrderBookEntry R) : Json R := .object e.members

/-- `from_json` on a new entry (`OrderBookEntry.cpp:68-85`). -/
def fromJson (json : JsonText R Text) (j : Json R) : Except Exn (OrderBookEntry R) := do
  let price ← json.asNumber (← j.at' (str "price"))
  let amount ← json.asNumber (← j.at' (str "amount"))
  let timestamp ← asString (← j.at' (str "timestamp"))
  let product ← asString (← j.at' (str "product"))
  let orderType ← determineOrderType (← asString (← j.at' (str "orderType")))
  let username ← asString (← j.at' (str "username"))
  let id ← match j.member (str "id") with
    | some v => json.asUnsigned v
    | none => .ok 0
  return { price, amount, timestamp, product, orderType, username, id }

end OrderBookEntry

namespace Wallet

/-- The members of `to_json` (`Wallet.cpp:135-138`). -/
def members (w : Wallet R) : List (Str × Json R) :=
  [(str "currencies", ofMap .number w.currencies), (str "locked", ofMap .number w.locked)]

/-- `to_json` (`Wallet.cpp:134-139`). -/
def toJson (w : Wallet R) : Json R := .object w.members

/-- `from_json` on a new wallet (`Wallet.cpp:141-146`). -/
def fromJson (json : JsonText R Text) (j : Json R) : Except Exn (Wallet R) := do
  let currencies ← match j.member (str "currencies") with
    | some v => asMap json.asNumber v
    | none => .ok ∅
  let locked ← match j.member (str "locked") with
    | some v => asMap json.asNumber v
    | none => .ok ∅
  return { currencies, locked }

end Wallet

namespace User

/-- The members of `to_json` (`User.cpp:23-27`). -/
def members (u : User R) : List (Str × Json R) :=
  [(str "password", .string u.password), (str "username", .string u.username),
    (str "wallet", u.wallet.toJson)]

/-- `to_json` (`User.cpp:22-28`). -/
def toJson (u : User R) : Json R := .object u.members

/-- `from_json` on a new user (`User.cpp:30-36`). -/
def fromJson (json : JsonText R Text) (j : Json R) : Except Exn (User R) := do
  let username ← asString (← j.at' (str "username"))
  let password ← asString (← j.at' (str "password"))
  let wallet ← match j.member (str "wallet") with
    | some v => Wallet.fromJson json v
    | none => .ok ⟨∅, ∅⟩
  return { username, password, wallet }

end User

namespace UserStore

/-- `save` (`UserStore.cpp:39-50`): the content of the file afterwards. -/
def save (json : JsonText R Text) (store : UserStore R) : Text :=
  json.written (ofMap User.toJson store.users)

/-- `load` (`UserStore.cpp:52-67`): the map `users` afterwards. -/
def load (json : JsonText R Text) (users : KeyedMap Str (User R)) (file : Option Text) :
    KeyedMap Str (User R) :=
  match file with
  | none => users
  | some text =>
    match json.parse text >>= asMap (User.fromJson json) with
    | .ok users' => users'
    | .error _ => users

end UserStore

namespace OrderBook

/-- The members of the value that `save` stores (`OrderBook.cpp:352-354`). -/
def members (book : OrderBook R) : List (Str × Json R) :=
  [(str "finalizedSales", ofList OrderBookEntry.toJson book.finalizedSales),
    (str "orderMap", ofMap (ofList OrderBookEntry.toJson) book.orderMap)]

/-- The value that `save` stores. -/
def toJson (book : OrderBook R) : Json R := .object book.members

/-- `save` (`OrderBook.cpp:350-364`): the content of the file afterwards. -/
def save (json : JsonText R Text) (book : OrderBook R) : Text := json.written book.toJson

/-- `load` (`OrderBook.cpp:366-386`): `orderMap` is replaced first, and stays replaced when the
sales are not read. -/
def load (json : JsonText R Text) (book : OrderBook R) (file : Option Text) : OrderBook R :=
  match file with
  | none => book
  | some text =>
    match json.parse text with
    | .error _ => book
    | .ok j =>
      match (j.member (str "orderMap")).mapM (asMap (asList (OrderBookEntry.fromJson json))) with
      | .error _ => book
      | .ok orderMap =>
        let book := { book with orderMap := orderMap.getD book.orderMap }
        match (j.member (str "finalizedSales")).mapM (asList (OrderBookEntry.fromJson json)) with
        | .error _ => book
        | .ok sales => { book with finalizedSales := sales.getD book.finalizedSales }

end OrderBook

end MiniATS
