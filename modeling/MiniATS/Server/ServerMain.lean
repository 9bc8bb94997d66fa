import MiniATS.Server.Matching

/-!
# `ServerMain`

What one message of a client does to the server (`ServerMain.cpp:95-343`). A handler that
takes several locks is cut at them: `admitOrder`, `insertOrder` and `startMatchingProduct` for
`ASK` and `BID`, `findOwnOrder`, `cancelFunds` and `removeOrderById` for `CANCEL`; `handleMessage`
runs the pieces of one command one after the other. `ServerMain`'s socket, thread and signal
members are not modelled.
-/

namespace MiniATS

open Str

/-- The state shared by the client threads and the matching engine: the members of
`ServerMain` and the static `OrderBookEntry::nextId`. -/
structure Server (R : Type) where
  orderBook : OrderBook R
  userStore : UserStore R
  nextId : Nat
  pendingProducts : List Str

/-- What a client sees of a message: a line of text, nothing, or the end of the connection. -/
inductive Reply
  | text (line : Str)
  | silent
  | closed
  deriving DecidableEq

namespace Server

variable {R : Type}

/-- `getCurrentTimestamp` (`ServerMain.cpp:405-410`). -/
def getCurrentTimestamp (env : Env R) (now : Int) : Str := (ctime env.utcOffset now).dropLast

/-- `startMatchingProduct` (`ServerMain.cpp:395-403`). -/
def startMatchingProduct (srv : Server R) (product : Str) : Server R :=
  if product ∈ srv.pendingProducts then srv
  else { srv with pendingProducts := srv.pendingProducts ++ [product] }

@[simp] theorem startMatchingProduct_orderBook (srv : Server R) (product : Str) :
    (srv.startMatchingProduct product).orderBook = srv.orderBook := by
  unfold startMatchingProduct
  split <;> rfl

@[simp] theorem startMatchingProduct_userStore (srv : Server R) (product : Str) :
    (srv.startMatchingProduct product).userStore = srv.userStore := by
  unfold startMatchingProduct
  split <;> rfl

@[simp] theorem startMatchingProduct_nextId (srv : Server R) (product : Str) :
    (srv.startMatchingProduct product).nextId = srv.nextId := by
  unfold startMatchingProduct
  split <;> rfl

/-- `orderBook.insertOrder`. -/
def insertOrder (srv : Server R) (order : OrderBookEntry R) : Server R :=
  { srv with orderBook := srv.orderBook.insertOrder order }

/-- `orderBook.removeOrderById`. -/
def removeOrderById (srv : Server R) (username : Str) (id : Nat) : Bool × Server R :=
  let r := srv.orderBook.removeOrderById username id
  (r.1, { srv with orderBook := r.2 })

section Account

variable [Zero R]

/-- `REGISTER` (`ServerMain.cpp:130-148`): the server, the session's username and the reply. -/
def handleRegister (srv : Server R) (username : Str) (tokens : List Str) : Server R × Str × Reply :=
  match tokens with
  | [_, u, p] =>
    if u = defaultUser then
      (srv, username, .text (str "ERR Username not allowed. Please choose another."))
    else if srv.userStore.userExists u then
      (srv, username, .text (str "ERR User already exists. Please LOGIN."))
    else
      ({ srv with userStore := srv.userStore.addUser u p }, u,
        .text (str "OK User registered as " ++ u))
  | _ => (srv, username, .text (str "ERR Invalid REGISTER command"))

omit [Zero R] in
/-- `LOGIN` (`ServerMain.cpp:149-172`). -/
def handleLogin (srv : Server R) (username : Str) (tokens : List Str) : Server R × Str × Reply :=
  match tokens with
  | [_, u, p] =>
    if u = defaultUser then
      (srv, username, .text (str "ERR Username not allowed. Please choose another."))
    else if srv.userStore.userExists u then
      if srv.userStore.validatePassword u p then (srv, u, .text (str "OK Logged in as " ++ u))
      else (srv, username, .text (str "ERR Invalid credentials. Try again."))
    else (srv, username, .text (str "ERR Invalid username. Please REGISTER first."))
  | _ => (srv, username, .text (str "ERR Invalid LOGIN command"))

end Account

section Funds

variable [Zero R] [Add R] [Sub R] [LT R] [LE R] [DecidableLT R] [DecidableLE R]

/-- `userStore.getUser(username).getWallet().insertCurrency(product, amount)`. -/
def deposit (srv : Server R) (username product : Str) (amount : R) : Except Exn (Server R) :=
  match srv.userStore.getUser username with
  | .error e => .error e
  | .ok store =>
    match store.insertCurrency username product amount with
    | .error e => .error e
    | .ok store => .ok { srv with userStore := store }

/-- `userStore.getUser(username).getWallet().removeCurrency(product, amount)`. -/
def withdraw (srv : Server R) (username product : Str) (amount : R) :
    Except Exn (Bool × Server R) :=
  match srv.userStore.getUser username with
  | .error e => .error e
  | .ok store =>
    match store.removeCurrency username product amount with
    | .error e => .error e
    | .ok (removed, store) => .ok (removed, { srv with userStore := store })

/-- `DEPOSIT` and `WITHDRAW` (`ServerMain.cpp:266-292`). -/
def handleFunds (env : Env R) (srv : Server R) (username command : Str) (tokens : List Str) :
    Server R × Reply :=
  if username = [] then (srv, .text (str "ERR Login required"))
  else match tokens with
    | [_, token, amountStr] =>
      let product := toUpper token
      match env.stod amountStr with
      | none => (srv, .text (str "ERR Invalid amount"))
      | some amount =>
        if command = str "WITHDRAW" then
          match srv.withdraw username product amount with
          | .error _ => (srv, .text (str "ERR Invalid amount"))
          | .ok (true, srv) =>
            (srv, .text (str "OK Withdrew " ++ env.toString amount ++ [32] ++ product))
          | .ok (false, srv) => (srv, .text (str "ERR Insufficient funds"))
        else
          match srv.deposit username product amount with
          | .error _ => (srv, .text (str "ERR Invalid amount"))
          | .ok srv => (srv, .text (str "OK Deposited " ++ env.toString amount ++ [32] ++ product))
    | _ => (srv, .text (str "ERR Invalid " ++ command ++ str " command"))

end Funds

section Orders

variable [Zero R] [Add R] [Sub R] [Mul R] [LT R] [LE R] [DecidableLT R] [DecidableLE R]

/-- `userStore.getUser(username).getWallet().fulfillOrder(obe)` (`ServerMain.cpp:188-192`): either
the command ends here with a reply, or the order is to be inserted. -/
def reserveFunds (srv : Server R) (username command : Str) (obe : OrderBookEntry R) :
    Server R × (Reply ⊕ OrderBookEntry R) :=
  match srv.userStore.getUser username with
  | .error _ => (srv, .inl (.text (str "ERR Invalid order")))
  | .ok store =>
    match store.fulfillOrder username obe with
    | .error _ => ({ srv with userStore := store }, .inl (.text (str "ERR Invalid order")))
    | .ok (false, store) =>
      ({ srv with userStore := store },
        .inl (.text (str "ERR Insufficient funds in wallet to place this " ++ command ++ str ".")))
    | .ok (true, store) => ({ srv with userStore := store }, .inr obe)

/-- The first part of `ASK` and `BID` (`ServerMain.cpp:174-192`): the order is constructed, with the
next id to itself, and its funds are reserved. -/
def admitOrder (env : Env R) (now : Int) (srv : Server R) (username command : Str)
    (tokens : List Str) : Server R × (Reply ⊕ OrderBookEntry R) :=
  if username = [] then (srv, .inl (.text (str "ERR Login required")))
  else match tokens with
    | [_, token, amountStr, priceStr] =>
      match env.stod amountStr, env.stod priceStr with
      | some amount, some price =>
        let type := if command = str "ASK" then OrderBookType.ask else OrderBookType.bid
        let obe := OrderBookEntry.make price amount (getCurrentTimestamp env now) (toUpper token)
          type username srv.nextId
        reserveFunds { srv with nextId := obe.2 } username command obe.1
      | _, _ => (srv, .inl (.text (str "ERR Invalid order")))
    | _ => (srv, .inl (.text (str "ERR Invalid " ++ command ++ str " command")))

/-- `ASK` and `BID` (`ServerMain.cpp:173-203`). -/
def handleOrder (env : Env R) (now : Int) (srv : Server R) (username command : Str)
    (tokens : List Str) : Server R × Reply :=
  match srv.admitOrder env now username command tokens with
  | (srv, .inl reply) => (srv, reply)
  | (srv, .inr obe) =>
    ((srv.insertOrder obe).startMatchingProduct obe.product,
      .text (str "OK " ++ command ++ str " placed for " ++ obe.product))

omit [Zero R] [Add R] [Sub R] [Mul R] [LT R] [LE R] [DecidableLT R] [DecidableLE R] in
/-- The first part of `CANCEL` (`ServerMain.cpp:228-237`): the copy of the user's order with the
id, or the reply that ends the command. -/
def findOwnOrder (srv : Server R) (username : Str) (tokens : List Str) : Reply ⊕ OrderBookEntry R :=
  if username = [] then .inl (.text (str "ERR Login required"))
  else match tokens with
    | [_, idStr] =>
      match stoi idStr with
      | none => .inl (.text (str "ERR Invalid order ID"))
      | some orderId =>
        match (srv.orderBook.getOrdersForUser username).find? (fun o => toSizeT orderId == o.id) with
        | none => .inl (.text (str "ERR Order not found or not owned by user."))
        | some order => .inr order
    | _ => .inl (.text (str "ERR Invalid CANCEL command"))

/-- `userStore.getUser(username).getWallet().cancelOrder(order)` (`ServerMain.cpp:239`). -/
def cancelFunds (srv : Server R) (username : Str) (order : OrderBookEntry R) :
    Except Exn (Bool × Server R) :=
  match srv.userStore.getUser username with
  | .error e => .error e
  | .ok store =>
    match store.cancelOrder username order with
    | .error e => .error e
    | .ok (unlocked, store) => .ok (unlocked, { srv with userStore := store })

/-- `CANCEL` (`ServerMain.cpp:227-258`). -/
def handleCancel (srv : Server R) (username : Str) (tokens : List Str) : Server R × Reply :=
  match srv.findOwnOrder username tokens with
  | .inl reply => (srv, reply)
  | .inr order =>
    match srv.cancelFunds username order with
    | .error _ => (srv, .text (str "ERR Invalid order ID"))
    | .ok (_, srv) =>
      match srv.removeOrderById username order.id with
      | (true, srv) => (srv, .text (str "OK Order cancelled."))
      | (false, srv) => (srv, .text (str "ERR Order not found."))

end Orders

section Reports

variable [Zero R]

/-- `ORDERS` (`ServerMain.cpp:204-226`). -/
def handleOrders (env : Env R) (srv : Server R) (username : Str) : Reply :=
  if username = [] then .text (str "ERR Login required")
  else
    let orders := srv.orderBook.getOrdersForUser username
    let line := fun o : OrderBookEntry R =>
      str " ID: " ++ ofNat o.id ++ str " | " ++ OrderBookEntry.orderTypeToString o.orderType ++
        str " | " ++ o.product ++ str " | Amount: " ++ env.ostream o.amount ++ str " | Price: " ++
        env.ostream o.price ++ str " | Timestamp: " ++ o.timestamp ++ [10]
    .text (str "Ongoing orders of user " ++ username ++ str ":\n" ++ orders.flatMap line ++
      if orders.isEmpty then str "    (no ongoing orders)" else [])

variable [LT R] [DecidableLT R]

/-- `Wallet::toString` (`Wallet.cpp:55-71`), the balances in the order of the currencies. -/
def walletToString (env : Env R) (w : Wallet R) : Str :=
  let line := fun (mark : Str) (m : KeyedMap Str R) (type : Str) =>
    if 0 < m.get type 0 then mark ++ type ++ str ": " ++ env.toString (m.get type 0) ++ [10] else []
  let sorted := fun m : KeyedMap Str R => m.keys.insertionSort (· ≤ ·)
  str "Wallet contains:\n" ++
    if w.currencies.keys.isEmpty then str "     (empty)\n"
    else (sorted w.currencies).flatMap (line (str "     ") w.currencies) ++
      (sorted w.locked).flatMap (line (str "     (Locked) ") w.locked)

/-- `WALLET` (`ServerMain.cpp:259-265`); `getUser` throwing ends the connection. -/
def handleWallet (env : Env R) (srv : Server R) (username : Str) : Reply :=
  if username = [] then .text (str "ERR Login required")
  else match srv.userStore.getUser username with
    | .error _ => .closed
    | .ok store => .text (walletToString env (store.wallet username))

/-- `getHighPrice` (`OrderBook.cpp:46-55`). -/
def getHighPrice (orders : List (EntryPtr R)) : R :=
  match orders with
  | [] => 0
  | first :: _ => orders.foldl (fun m e => if m < e.entry.price then e.entry.price else m) first.entry.price

/-- `getLowPrice` (`OrderBook.cpp:57-66`). -/
def getLowPrice (orders : List (EntryPtr R)) : R :=
  match orders with
  | [] => 0
  | first :: _ => orders.foldl (fun m e => if e.entry.price < m then e.entry.price else m) first.entry.price

variable [Add R] [Mul R] [Div R] [BEq R]

omit [LT R] [DecidableLT R] [Mul R] [Div R] [BEq R] in
/-- `getTotalVolume` (`OrderBook.cpp:80-86`). -/
def getTotalVolume (orders : List (EntryPtr R)) : R :=
  orders.foldl (fun volume e => volume + e.entry.amount) 0

omit [LT R] [DecidableLT R] in
/-- `getAvgPrice` (`OrderBook.cpp:68-78`). -/
def getAvgPrice (orders : List (EntryPtr R)) : R :=
  let total := orders.foldl (fun total e => total + e.entry.price * e.entry.amount) 0
  if getTotalVolume orders == 0 then 0 else total / getTotalVolume orders

/-- `MARKET` (`ServerMain.cpp:293-305`). -/
def handleMarket (env : Env R) (srv : Server R) : Reply :=
  .text (srv.orderBook.getKnownProducts.flatMap fun product =>
    let bids := OrderBook.getOrders (srv.orderBook.orders product) .bid
    let asks := OrderBook.getOrders (srv.orderBook.orders product) .ask
    if bids.isEmpty && asks.isEmpty then []
    else str "\n Product: " ++ product ++ str "\t Best bid: " ++ env.ostream (getHighPrice bids) ++
      str "\t Best ask: " ++ env.ostream (getLowPrice asks))

/-- `STATS` (`ServerMain.cpp:306-334`). -/
def handleStats (env : Env R) (srv : Server R) (tokens : List Str) : Reply :=
  match tokens with
  | [_, token] =>
    let orders := srv.orderBook.orders (toUpper token)
    let bids := OrderBook.getOrders orders .bid
    let asks := OrderBook.getOrders orders .ask
    .text (str "\n  Bids \t\t\t: " ++ ofNat bids.length ++ str "\n" ++
      str "  High Bid \t\t: " ++ env.ostream (getHighPrice bids) ++ str "\n" ++
      str "  Avg Bid Price \t: " ++ env.ostream (getAvgPrice bids) ++ str "\n" ++
      str "  Total Bid Volume \t: " ++ env.ostream (getTotalVolume bids) ++ str "\n" ++
      str "\n  Asks \t\t\t: " ++ ofNat asks.length ++ str "\n" ++
      str "  Low Ask \t\t: " ++ env.ostream (getLowPrice asks) ++ str "\n" ++
      str "  Avg Ask Price \t: " ++ env.ostream (getAvgPrice asks) ++ str "\n" ++
      str "  Total Ask Volume \t: " ++ env.ostream (getTotalVolume asks))
  | _ => .text (str "ERR Invalid STATS command. Usage: STATS <PRODUCT>")

end Reports

section Message

variable [Zero R] [Add R] [Sub R] [Mul R] [Div R] [LT R] [LE R] [DecidableLT R] [DecidableLE R] [BEq R]

/-- The tokens of a message (`ServerMain.cpp:106-119`). -/
def tokenise (data : Str) : List Str := getlines 32 (stripLineEnds data)

/-- The command of a list of tokens, in upper case (`ServerMain.cpp:126-128`). -/
def commandOf (tokens : List Str) : Str := toUpper (tokens.headD [])

/-- One round of `handleClient` (`ServerMain.cpp:106-343`): the server, the session's username
and what the client sees. The line end that follows every reply is left out. -/
def handleMessage (env : Env R) (now : Int) (srv : Server R) (username data : Str) :
    Server R × Str × Reply :=
  let tokens := tokenise data
  let command := commandOf tokens
  if tokens = [] then (srv, username, .silent)
  else if command = str "REGISTER" then srv.handleRegister username tokens
  else if command = str "LOGIN" then srv.handleLogin username tokens
  else if command = str "ASK" ∨ command = str "BID" then
    let r := srv.handleOrder env now username command tokens
    (r.1, username, r.2)
  else if command = str "ORDERS" then (srv, username, srv.handleOrders env username)
  else if command = str "CANCEL" then
    let r := srv.handleCancel username tokens
    (r.1, username, r.2)
  else if command = str "WALLET" then (srv, username, srv.handleWallet env username)
  else if command = str "DEPOSIT" ∨ command = str "WITHDRAW" then
    let r := srv.handleFunds env username command tokens
    (r.1, username, r.2)
  else if command = str "MARKET" then (srv, username, srv.handleMarket env)
  else if command = str "STATS" then (srv, username, srv.handleStats env tokens)
  else if command = str "EXIT" then (srv, username, .closed)
  else (srv, username, .text (str "ERR Unknown command. Type HELP for list."))

/-- The body of a matching task (`ServerMain.cpp:384-387`): the server after the pass, and the
pass. -/
def matchProduct (env : Env R) (std : StdSort (EntryPtr R)) (now : Int) (srv : Server R)
    (product : Str) : Server R × OrderBook.PassEnd R :=
  let r := srv.orderBook.matchAsksToBids std product (getCurrentTimestamp env now) srv.userStore
    srv.nextId
  ({ srv with orderBook := r.book, userStore := r.userStore, nextId := r.nextId }, r)

end Message

end Server

end MiniATS
