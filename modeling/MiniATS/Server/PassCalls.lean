import MiniATS.Misc.Resumption
import MiniATS.Server.Threads

/-!
# A pass and its wallet calls

`matchAsksToBids` once more, cut at every call of `UserStore` and `Wallet`, and the interleaved
runs in which other threads take steps between these calls. `ordersMutex` is held from the
start of a pass to its end: no other pass runs, and the steps that lock it wait. A figure of
`STATS` or `MARKET` is read without the lock; here it waits too, as it is about the book and not
about the wallets.
-/

namespace MiniATS

open Str

/-- The ask and the bid after a round, and how it ended. -/
structure Visit (R : Type) where
  ask : EntryPtr R
  bid : EntryPtr R
  how : OrderBook.RoundEnd

/-- A settled match: `how` unless `processSale` threw. -/
def Visit.settled {R : Type} (ask bid : EntryPtr R) (how : OrderBook.RoundEnd) : Except Exn Unit → Visit R
  | .error e => ⟨ask, bid, .thrown e⟩
  | .ok () => ⟨ask, bid, how⟩

/-- The orders after a loop of the pass, and how it ended. -/
structure Visits (R : Type) where
  asks : List (EntryPtr R)
  bids : List (EntryPtr R)
  result : Except Exn Unit

namespace OrderBook

variable {R : Type} [Zero R] [Add R] [Sub R] [Mul R] [LT R] [LE R] [DecidableLT R] [DecidableLE R] [BEq R]

/-- A call that works on the users. -/
def storeCall {A : Type} (f : UserStore R → A × UserStore R) : Resumption (PassState R) A :=
  .call fun st => ((f st.userStore).1, { st with userStore := (f st.userStore).2 })

/-- `insertCurrency`, which leaves the wallet as it was when it throws. -/
def tryInsert (username type : Str) (amount : R) (store : UserStore R) :
    Except Exn Unit × UserStore R :=
  match store.insertCurrency username type amount with
  | .error e => (.error e, store)
  | .ok store => (.ok (), store)

/-- `getUser`, which leaves the store as it was when it throws. -/
def tryUser (username : Str) (store : UserStore R) : Except Exn Unit × UserStore R :=
  match store.getUser username with
  | .error e => (.error e, store)
  | .ok store => (.ok (), store)

/-- The wallet updates of `processSale` (`OrderBook.cpp:287-313`). -/
def exchangeCalls (buyer seller base quote' : Str) (amount totalCost bidPrice askPrice : R) :
    Resumption (PassState R) (SaleFlags × Except Exn Unit) := do
  let spent ← storeCall fun store => store.spendLocked buyer quote' totalCost
  let name ← storeCall fun store => (store.getUsername buyer, store)
  if !spent && name != defaultUser then
    return (⟨some spent, none, none⟩, .error buyerInsufficient)
  match ← storeCall (tryInsert buyer base amount) with
  | .error e => return (⟨some spent, none, none⟩, .error e)
  | .ok () =>
    let sold ← storeCall fun store => store.spendLocked seller base amount
    let name ← storeCall fun store => (store.getUsername seller, store)
    if !sold && name != defaultUser then
      return (⟨some spent, some sold, none⟩, .error sellerInsufficient)
    match ← storeCall (tryInsert seller quote' totalCost) with
    | .error e => return (⟨some spent, some sold, none⟩, .error e)
    | .ok () =>
      if askPrice < bidPrice then
        let refunded ← storeCall fun store =>
          store.unlockCurrency buyer quote' ((bidPrice - askPrice) * amount)
        return (⟨some spent, some sold, some refunded⟩, .ok ())
      else return (⟨some spent, some sold, none⟩, .ok ())

/-- `processSale` (`OrderBook.cpp:278-314`). -/
def processSaleCalls (buyer seller : Str) (sale : OrderBookEntry R) (bidPrice askPrice : R) :
    Resumption (PassState R) (SaleFlags × Except Exn Unit) :=
  match CSVHandler.pairTokens invalidSaleProduct sale.product with
  | .error e => return (⟨none, none, none⟩, .error e)
  | .ok (base, quote') =>
    exchangeCalls buyer seller base quote' sale.amount (sale.price * sale.amount) bidPrice askPrice

/-- The start of a match (`OrderBook.cpp:239-243`). -/
def beginSaleCalls (product currentTimestamp : Str) (bid ask : EntryPtr R) :
    Resumption (PassState R) (Except Exn (OrderBookEntry R)) := do
  match ← storeCall (tryUser bid.entry.username) with
  | .error e => return .error e
  | .ok () =>
    match ← storeCall (tryUser ask.entry.username) with
    | .error e => return .error e
    | .ok () =>
      let sale ← .call fun st =>
        let made := OrderBookEntry.make ask.entry.price 0 currentTimestamp product .sale defaultUser
          st.nextId
        (made.1, { st with nextId := made.2 })
      return .ok sale

/-- `sales.push_back(sale)` and `processSale`; what they are recorded in belongs to the pass alone. -/
def settleCalls (sale : OrderBookEntry R) (bid ask : EntryPtr R) :
    Resumption (PassState R) (Except Exn Unit) := do
  let (flags, result) ← processSaleCalls bid.entry.username ask.entry.username sale bid.entry.price
    ask.entry.price
  .call fun st => (result, { st with sales := st.sales ++ [sale],
                                     trades := st.trades ++ [(⟨bid, ask, sale.amount⟩, flags)] })

/-- The body of the inner loop (`OrderBook.cpp:233-270`). -/
def bidRoundCalls (product currentTimestamp : Str) (ask bid : EntryPtr R) :
    Resumption (PassState R) (Visit R) :=
  if bid.entry.amount ≤ 0 then return ⟨ask, bid, .next⟩
  else if ask.entry.price ≤ bid.entry.price then do
    match ← beginSaleCalls product currentTimestamp bid ask with
    | .error e => return ⟨ask, bid, .thrown e⟩
    | .ok sale =>
      if bid.entry.amount == ask.entry.amount then
        let result ← settleCalls (sale.withAmount ask.entry.amount) bid ask
        return .settled (ask.withAmount 0) (bid.withAmount 0) .leave result
      else if ask.entry.amount < bid.entry.amount then
        let result ← settleCalls (sale.withAmount ask.entry.amount) bid ask
        return .settled (ask.withAmount 0)
          (bid.withAmount (bid.entry.amount - ask.entry.amount)) .leave result
      else if bid.entry.amount < ask.entry.amount then
        let result ← settleCalls (sale.withAmount bid.entry.amount) bid ask
        return .settled (ask.withAmount (ask.entry.amount - bid.entry.amount)) (bid.withAmount 0)
          .next result
      else return ⟨ask, bid, .next⟩
  else return ⟨ask, bid, .next⟩

/-- The inner loop (`OrderBook.cpp:232-271`). -/
def bidLoopCalls (product currentTimestamp : Str) :
    EntryPtr R → List (EntryPtr R) → Resumption (PassState R) (Visits R)
  | ask, [] => return ⟨[ask], [], .ok ()⟩
  | ask, bid :: bids => do
    let v ← bidRoundCalls product currentTimestamp ask bid
    match v.how with
    | .thrown e => return ⟨[v.ask], v.bid :: bids, .error e⟩
    | .leave => return ⟨[v.ask], v.bid :: bids, .ok ()⟩
    | .next =>
      let rest ← bidLoopCalls product currentTimestamp v.ask bids
      return { rest with bids := v.bid :: rest.bids }

/-- The outer loop (`OrderBook.cpp:228-272`). -/
def askLoopCalls (product currentTimestamp : Str) :
    List (EntryPtr R) → List (EntryPtr R) → Resumption (PassState R) (Visits R)
  | [], bids => return ⟨[], bids, .ok ()⟩
  | ask :: asks, bids =>
    if ask.entry.amount ≤ 0 then do
      let rest ← askLoopCalls product currentTimestamp asks bids
      return { rest with asks := ask :: rest.asks }
    else do
      let v ← bidLoopCalls product currentTimestamp ask bids
      match v.result with
      | .error _ => return { v with asks := v.asks ++ asks }
      | .ok () =>
        let rest ← askLoopCalls product currentTimestamp asks v.bids
        return { rest with asks := v.asks ++ rest.asks }

/-- The two loops of a pass over a product (`OrderBook.cpp:219-272`); a product without a list
has no bids and no asks. -/
def passCalls (std : StdSort (EntryPtr R)) (book : OrderBook R) (product currentTimestamp : Str) :
    Resumption (PassState R) (Visits R) :=
  askLoopCalls product currentTimestamp (sortedAsks std (book.orders product))
    (sortedBids std (book.orders product))

/-- The book when the loops have ended (`OrderBook.cpp:273-275`). -/
def finishPass (book : OrderBook R) (product : Str) (sales : List (OrderBookEntry R)) (v : Visits R) :
    OrderBook R :=
  match book.orderMap.lookup product with
  | none => book.insertSales []
  | some orderList =>
    let book := { book with
      orderMap := book.orderMap.insert product (writeBack orderList (v.bids ++ v.asks)) }
    match v.result with
    | .error _ => book
    | .ok () => (book.insertSales sales).removeMatchedOrders product

end OrderBook

/-- A pass under way: what it has recorded, and what it has still to do. -/
structure Running (R : Type) where
  product : Str
  sales : List (OrderBookEntry R)
  trades : List (Trade R × SaleFlags)
  rest : Resumption (PassState R) (Visits R)

/-- The threads, and the pass that holds `ordersMutex`. -/
structure CallThreads (R : Type) where
  threads : Threads R
  running : Option (Running R)

/-- One step: of any thread but a task, the start of a task's pass, or the next call of the pass
under way. -/
inductive CallAction (R : Type)
  | other (a : Action R)
  | begin (n : Nat) (std : StdSort (EntryPtr R)) (now : Int)
  | call

namespace CallThreads

variable {R : Type}

/-- Whether a message locks `ordersMutex` in its first step (`ServerMain.cpp:204-314`). -/
def messageLocks (username data : Str) : Bool :=
  let tokens := Server.tokenise data
  let command := Server.commandOf tokens
  if command = str "ORDERS" then username ≠ []
  else if command = str "CANCEL" then
    match tokens with
    | [_, idStr] => username ≠ [] && (stoi idStr).isSome
    | _ => false
  else if command = str "STATS" then tokens.length = 2
  else command = str "MARKET"

/-- Whether the next step of a message locks `ordersMutex`. -/
def phaseLocks : Phase R → Bool
  | .inserting _ | .removing _ | .reporting _ => true
  | _ => false

/-- Whether the step locks `ordersMutex`. -/
def locksBook (s : Threads R) : Action R → Bool
  | .connect => false
  | .message sid _ data => (s.sessions[sid]?).any fun c => messageLocks c.username data
  | .advance sid => (s.sessions[sid]?).any fun c => phaseLocks c.phase
  | .engine => s.engine = .starting
  | .cleanup =>
    match s.shutdown with
    | .running | .savedSales _ => true
    | _ => false
  | .task _ _ _ => true

variable [Zero R] [Add R] [Sub R] [Mul R] [Div R] [LT R] [LE R] [DecidableLT R] [DecidableLE R] [BEq R]

/-- The next call of the pass, or its end. -/
def callStep (s : Threads R) (r : Running R) : CallThreads R :=
  match r.rest with
  | .step update next =>
    let st : PassState R := ⟨s.server.userStore, s.server.nextId, r.sales, r.trades⟩
    let st' := update st
    ⟨{ s with server := { s.server with userStore := st'.userStore, nextId := st'.nextId } },
      some ⟨r.product, st'.sales, st'.trades, next st⟩⟩
  | .done v =>
    ⟨{ s with server := { s.server with
        orderBook := s.server.orderBook.finishPass r.product r.sales v } }, none⟩

/-- One step; `none` when the thread has none to take, or waits for `ordersMutex`. -/
def next (env : Env R) (s : CallThreads R) : CallAction R → Option (CallThreads R)
  | .other (.task _ _ _) => none
  | .other a =>
    if s.running.isSome && locksBook s.threads a then none
    else (s.threads.next env a).map fun threads => { s with threads }
  | .begin n std now =>
    match s.running, s.threads.tasks[n]? with
    | none, some product =>
      some ⟨{ s.threads with tasks := s.threads.tasks.eraseIdx n },
        some ⟨product, [], [], s.threads.server.orderBook.passCalls std product
          (Server.getCurrentTimestamp env now)⟩⟩
    | _, _ => none
  | .call => s.running.map (callStep s.threads)

/-- A server just started. -/
def start (book : OrderBook R) (nextId : Nat) (store : UserStore R) : CallThreads R :=
  ⟨.start book nextId store, none⟩

end CallThreads

end MiniATS
