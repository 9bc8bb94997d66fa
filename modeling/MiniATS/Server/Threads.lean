import MiniATS.Misc.Machine
import MiniATS.Server.ServerMain

/-!
# Interleaved runs

The client threads, the matching engine, its tasks and the shutdown handler, interleaved at
the calls that take a lock. `Session.receive` is what a client thread does with a message up
to its first such call, `Session.advance` its next one; a whole matching pass is one step, as
the book is locked throughout. `getUser` of a user that is there changes nothing and nobody is
ever removed, so the wallet call after it is not a step of its own, except in `LOGIN`.

`STATS` and `MARKET` read through pointers into the list of a product after its lock is
released. A pointer is good as long as an order with its id is in the list: list nodes stay
where they are and ids are not used again. Reading through any other leaves the session in the
phase `undefined`.

The counter of the ids is a plain variable that threads step without a lock (`OrderBookEntry.cpp:20`).
Here an order takes its id in one step with its construction, so that no two threads read the same
count. `cleanup` runs once: that a second signal enters it again is not in the model.
-/

namespace MiniATS

open Str

/-- The figures that `STATS` and `MARKET` compute, one call of a statistics function each. -/
inductive Figure
  | highBid
  | avgBid
  | bidVolume
  | lowAsk
  | avgAsk
  | askVolume
  deriving DecidableEq

namespace Figure

/-- The orders a figure is computed from. -/
def side : Figure → OrderBookType
  | highBid | avgBid | bidVolume => .bid
  | lowAsk | avgAsk | askVolume => .ask

variable {R : Type} [Zero R] [Add R] [Mul R] [Div R] [LT R] [DecidableLT R] [BEq R]

def value (orders : List (EntryPtr R)) : Figure → R
  | highBid => Server.getHighPrice orders
  | lowAsk => Server.getLowPrice orders
  | avgBid | avgAsk => Server.getAvgPrice orders
  | bidVolume | askVolume => Server.getTotalVolume orders

end Figure

/-- A figure in a reply, with the text around it. -/
structure Line where
  before : Str
  figure : Figure
  after : Str

/-- A reply of `STATS` or `MARKET` under way: the text so far, the pointers `getOrders` returned
for a product, what is still to be computed from them, and the products still to come. -/
structure Report (R : Type) where
  text : Str
  product : Str
  bids : List (EntryPtr R)
  asks : List (EntryPtr R)
  todo : List Line
  products : List Str

/-- Where a client thread stands between two steps. -/
inductive Phase (R : Type)
  | idle
  -- `REGISTER` and `LOGIN`, after `userExists`
  | registering (u p : Str)
  | loggingIn (u p : Str)
  -- `ASK` and `BID`, after `fulfillOrder` and after `insertOrder`
  | inserting (order : OrderBookEntry R)
  | starting (product : Str)
  -- `CANCEL`, after `getOrdersForUser` and after `Wallet::cancelOrder`
  | unlocking (order : OrderBookEntry R)
  | removing (id : Nat)
  -- `STATS` and `MARKET`
  | reporting (report : Report R)
  | undefined
  | ended

/-- A client's thread: `message` is the one being handled, `log` are those handled, with what
the client saw of each. -/
structure Session (R : Type) where
  username : Str
  message : Str
  phase : Phase R
  log : List (Str × Reply)

/-- The thread of `startMatching`. -/
inductive Engine
  | starting
  | enqueuing (products : List Str)
  | waiting
  | holding (product : Str)
  deriving DecidableEq

/-- What `cleanup` writes to `sales.csv`, `orders.csv` and `users.json`. -/
structure Exports (R : Type) where
  sales : List (OrderBookEntry R)
  orders : List (OrderBookEntry R)
  users : UserStore R

/-- How far `cleanup` has come. -/
inductive Shutdown (R : Type)
  | running
  | savedSales (sales : List (OrderBookEntry R))
  | savedOrders (sales orders : List (OrderBookEntry R))
  | saved (exports : Exports R)
  -- `isRunning` is false
  | stopped (exports : Exports R)

namespace OrderBook

variable {R : Type}

/-- The order a pointer into the list of a product stands for now. -/
def read (book : OrderBook R) (product : Str) (ptr : EntryPtr R) : Option (EntryPtr R) :=
  ((book.orders product).find? (fun o => o.id == ptr.entry.id)).map (fun o => ⟨ptr.pos, o⟩)

end OrderBook

namespace Report

variable {R : Type}

/-- The pointers a figure is computed through. -/
def pointers (r : Report R) : OrderBookType → List (EntryPtr R)
  | .bid => r.bids
  | .ask => r.asks
  | .sale => []

/-- The lines of a reply to `STATS` (`ServerMain.cpp:317-328`). -/
def statsLines (bids asks : Nat) : List Line :=
  [⟨str "\n  Bids \t\t\t: " ++ ofNat bids ++ str "\n" ++ str "  High Bid \t\t: ", .highBid, str "\n"⟩,
    ⟨str "  Avg Bid Price \t: ", .avgBid, str "\n"⟩,
    ⟨str "  Total Bid Volume \t: ", .bidVolume, str "\n"⟩,
    ⟨str "\n  Asks \t\t\t: " ++ ofNat asks ++ str "\n" ++ str "  Low Ask \t\t: ", .lowAsk, str "\n"⟩,
    ⟨str "  Avg Ask Price \t: ", .avgAsk, str "\n"⟩,
    ⟨str "  Total Ask Volume \t: ", .askVolume, []⟩]

/-- The line of a product in a reply to `MARKET` (`ServerMain.cpp:298-301`). -/
def marketLines (product : Str) : List Line :=
  [⟨str "\n Product: " ++ product ++ str "\t Best bid: ", .highBid, []⟩,
    ⟨str "\t Best ask: ", .lowAsk, []⟩]

/-- `getOrders` of `STATS` (`ServerMain.cpp:313`). -/
def stats (book : OrderBook R) (product : Str) : Report R :=
  let bids := OrderBook.getOrders (book.orders product) .bid
  let asks := OrderBook.getOrders (book.orders product) .ask
  ⟨[], product, bids, asks, statsLines bids.length asks.length, []⟩

/-- `getKnownProducts` of `MARKET` (`ServerMain.cpp:295`). -/
def market (book : OrderBook R) : Report R := ⟨[], [], [], [], [], book.getKnownProducts⟩

/-- `getOrders` of `MARKET` (`ServerMain.cpp:296-297`); a product without bids and asks is
passed over. -/
def turn (r : Report R) (book : OrderBook R) (product : Str) (products : List Str) : Report R :=
  let bids := OrderBook.getOrders (book.orders product) .bid
  let asks := OrderBook.getOrders (book.orders product) .ask
  ⟨r.text, product, bids, asks, if bids.isEmpty && asks.isEmpty then [] else marketLines product,
    products⟩

end Report

/-- A figure as it is printed, computed from some orders. -/
def Line.text {R : Type} [Zero R] [Add R] [Mul R] [Div R] [LT R] [DecidableLT R] [BEq R] (env : Env R)
    (line : Line) (orders : List (EntryPtr R)) : Str :=
  line.before ++ env.ostream (line.figure.value orders) ++ line.after

namespace Session

variable {R : Type}

/-- A client that has just connected. -/
def connected : Session R := ⟨[], [], .idle, []⟩

/-- The session after its message has been answered. -/
def answer (c : Session R) (reply : Reply) : Session R :=
  { c with phase := if reply = .closed then .ended else .idle, log := c.log ++ [(c.message, reply)] }

/-- `REGISTER` up to `userExists` (`ServerMain.cpp:130-139`). -/
def receiveRegister (srv : Server R) (c : Session R) (tokens : List Str) : Session R :=
  match tokens with
  | [_, u, p] =>
    if u = defaultUser then
      c.answer (.text (str "ERR Username not allowed. Please choose another."))
    else if srv.userStore.userExists u then
      c.answer (.text (str "ERR User already exists. Please LOGIN."))
    else { c with phase := .registering u p }
  | _ => c.answer (.text (str "ERR Invalid REGISTER command"))

/-- `LOGIN` up to `userExists` (`ServerMain.cpp:149-157`). -/
def receiveLogin (srv : Server R) (c : Session R) (tokens : List Str) : Session R :=
  match tokens with
  | [_, u, p] =>
    if u = defaultUser then
      c.answer (.text (str "ERR Username not allowed. Please choose another."))
    else if srv.userStore.userExists u then { c with phase := .loggingIn u p }
    else c.answer (.text (str "ERR Invalid username. Please REGISTER first."))
  | _ => c.answer (.text (str "ERR Invalid LOGIN command"))

variable [Zero R] [Add R] [Sub R] [Mul R] [Div R] [LT R] [LE R] [DecidableLT R] [DecidableLE R] [BEq R]

/-- A message up to the first call that takes a lock (`ServerMain.cpp:106-338`). -/
def receive (env : Env R) (now : Int) (srv : Server R) (idle : Session R) (data : Str) :
    Server R × Session R :=
  let c := { idle with message := data }
  let tokens := Server.tokenise data
  let command := Server.commandOf tokens
  if tokens = [] then (srv, c.answer .silent)
  else if command = str "REGISTER" then (srv, c.receiveRegister srv tokens)
  else if command = str "LOGIN" then (srv, c.receiveLogin srv tokens)
  else if command = str "ASK" ∨ command = str "BID" then
    match srv.admitOrder env now c.username command tokens with
    | (srv, .inl reply) => (srv, c.answer reply)
    | (srv, .inr order) => (srv, { c with phase := .inserting order })
  else if command = str "ORDERS" then (srv, c.answer (srv.handleOrders env c.username))
  else if command = str "CANCEL" then
    match srv.findOwnOrder c.username tokens with
    | .inl reply => (srv, c.answer reply)
    | .inr order => (srv, { c with phase := .unlocking order })
  else if command = str "WALLET" then (srv, c.answer (srv.handleWallet env c.username))
  else if command = str "DEPOSIT" ∨ command = str "WITHDRAW" then
    let r := srv.handleFunds env c.username command tokens
    (r.1, c.answer r.2)
  else if command = str "MARKET" then
    (srv, { c with phase := .reporting (.market srv.orderBook) })
  else if command = str "STATS" then
    match tokens with
    | [_, token] => (srv, { c with phase := .reporting (.stats srv.orderBook (toUpper token)) })
    | _ => (srv, c.answer (.text (str "ERR Invalid STATS command. Usage: STATS <PRODUCT>")))
  else if command = str "EXIT" then (srv, c.answer .closed)
  else (srv, c.answer (.text (str "ERR Unknown command. Type HELP for list.")))

/-- The next step of a report: a figure, `getOrders` of the next product, or the reply. -/
def advanceReport (env : Env R) (book : OrderBook R) (c : Session R) (r : Report R) : Session R :=
  match r.todo with
  | line :: todo =>
    match (r.pointers line.figure.side).mapM (book.read r.product) with
    | none => { c with phase := .undefined }
    | some orders =>
      { c with phase := .reporting { r with text := r.text ++ line.text env orders, todo } }
  | [] =>
    match r.products with
    | product :: products => { c with phase := .reporting (r.turn book product products) }
    | [] => c.answer (.text r.text)

/-- The next step of a message under way; `none` when there is no message or no next step. -/
def advance (env : Env R) (srv : Server R) (c : Session R) : Option (Server R × Session R) :=
  match c.phase with
  | .idle => none
  | .registering u p =>
    some ({ srv with userStore := srv.userStore.addUser u p },
      { c with username := u }.answer (.text (str "OK User registered as " ++ u)))
  | .loggingIn u p =>
    match srv.userStore.getUser u with
    | .error _ => some (srv, c.answer .closed)
    | .ok store =>
      if store.validatePassword u p then
        some ({ srv with userStore := store },
          { c with username := u }.answer (.text (str "OK Logged in as " ++ u)))
      else
        some ({ srv with userStore := store },
          c.answer (.text (str "ERR Invalid credentials. Try again.")))
  | .inserting order => some (srv.insertOrder order, { c with phase := .starting order.product })
  | .starting product =>
    some (srv.startMatchingProduct product, c.answer (.text (str "OK " ++
      Server.commandOf (Server.tokenise c.message) ++ str " placed for " ++ product)))
  | .unlocking order =>
    match srv.cancelFunds c.username order with
    | .error _ => some (srv, c.answer (.text (str "ERR Invalid order ID")))
    | .ok (_, srv) => some (srv, { c with phase := .removing order.id })
  | .removing id =>
    match srv.removeOrderById c.username id with
    | (true, srv) => some (srv, c.answer (.text (str "OK Order cancelled.")))
    | (false, srv) => some (srv, c.answer (.text (str "ERR Order not found.")))
  | .reporting r => some (srv, c.advanceReport env srv.orderBook r)
  | .undefined => none
  | .ended => none

end Session

/-- The shared state and where every thread stands; a task is named by its product. -/
structure Threads (R : Type) where
  server : Server R
  sessions : List (Session R)
  engine : Engine
  tasks : List Str
  shutdown : Shutdown R

/-- One step of one thread: `task n` is the pass of the `n`-th task that has not run it. -/
inductive Action (R : Type)
  | connect
  | message (sid : Nat) (now : Int) (data : Str)
  | advance (sid : Nat)
  | engine
  | task (n : Nat) (std : StdSort (EntryPtr R)) (now : Int)
  | cleanup

namespace Threads

variable {R : Type}

/-- A server just started. -/
def start (book : OrderBook R) (nextId : Nat) (store : UserStore R) : Threads R :=
  ⟨⟨book, store, nextId, []⟩, [], .starting, [], .running⟩

/-- A server started without an orders file and without a users file. -/
def fresh : Threads R := start ⟨str "orders.csv", [], ∅, ∅⟩ 1 .empty

/-- The server and one session after a step of the session. -/
def put (s : Threads R) (sid : Nat) (r : Server R × Session R) : Threads R :=
  { s with server := r.1, sessions := s.sessions.set sid r.2 }

/-- The server with other products pending. -/
def withPending (s : Threads R) (products : List Str) : Threads R :=
  { s with server := { s.server with pendingProducts := products } }

/-- Whether `isRunning` is false. -/
def isStopped (s : Threads R) : Bool :=
  match s.shutdown with
  | .stopped _ => true
  | _ => false

/-- The next step of `startMatching` (`ServerMain.cpp:350-392`). -/
def engineStep (s : Threads R) : Option (Threads R) :=
  match s.engine with
  | .starting => some { s with engine := .enqueuing s.server.orderBook.getKnownProducts }
  | .enqueuing products =>
    some { s.withPending (s.server.pendingProducts ++ products) with engine := .waiting }
  | .waiting =>
    if s.isStopped then none
    else match s.server.pendingProducts with
      | [] => none
      | product :: products => some { s.withPending products with engine := .holding product }
  | .holding product => some { s with tasks := s.tasks ++ [product], engine := .waiting }

/-- The next step of `cleanup` (`ServerMain.cpp:12-25`), which one signal has started. -/
def cleanupStep (s : Threads R) : Option (Threads R) :=
  match s.shutdown with
  | .running => some { s with shutdown := .savedSales s.server.orderBook.getSales }
  | .savedSales sales =>
    some { s with shutdown := .savedOrders sales s.server.orderBook.getAllOrders }
  | .savedOrders sales orders =>
    some { s with shutdown := .saved ⟨sales, orders, s.server.userStore⟩ }
  | .saved exports => some { s with shutdown := .stopped exports }
  | .stopped _ => none

variable [Zero R] [Add R] [Sub R] [Mul R] [Div R] [LT R] [LE R] [DecidableLT R] [DecidableLE R] [BEq R]

/-- One step; `none` when the thread has none to take. -/
def next (env : Env R) (s : Threads R) : Action R → Option (Threads R)
  | .connect => some { s with sessions := s.sessions ++ [.connected] }
  | .message sid now data =>
    match s.sessions[sid]? with
    | none => none
    | some c =>
      match c.phase with
      | .idle => some (s.put sid (c.receive env now s.server data))
      | _ => none
  | .advance sid =>
    match s.sessions[sid]? with
    | none => none
    | some c => (c.advance env s.server).map (s.put sid)
  | .engine => s.engineStep
  | .task n std now =>
    match s.tasks[n]? with
    | none => none
    | some product =>
      some { s with server := (s.server.matchProduct env std now product).1
                    tasks := s.tasks.eraseIdx n }
  | .cleanup => s.cleanupStep

end Threads

end MiniATS
