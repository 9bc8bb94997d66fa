import MiniATS.Server.OrderBook

/-!
# `OrderBook::matchAsksToBids`

The matching pass (`OrderBook.cpp:217-314`). A pointer into the product's list is the
position of its node and the order as it stands, and is written back when the pass ends,
also when it ends by an exception: the lock is held throughout, so nothing else reads the
list in between. `trades` and `SaleFlags` are history: they record what was matched and what
the wallet calls of its settlement returned, and nothing depends on them.
-/

namespace MiniATS

open CSVHandler

/-- An `OrderBookEntry*` into the list of the product. -/
structure EntryPtr (R : Type) where
  pos : Nat
  entry : OrderBookEntry R

/-- `ptr->amount = amount`. -/
def EntryPtr.withAmount {R : Type} (p : EntryPtr R) (amount : R) : EntryPtr R :=
  { p with entry := p.entry.withAmount amount }

/-- What the wallet calls of one `processSale` returned; `none` for a call not made. -/
structure SaleFlags where
  buyerSpent : Option Bool
  sellerSpent : Option Bool
  refunded : Option Bool
  deriving DecidableEq

/-- A match: the two orders before it and the amount sold. -/
structure Trade (R : Type) where
  bid : EntryPtr R
  ask : EntryPtr R
  amount : R

/-- What the pass changes besides the amounts of the orders. -/
structure PassState (R : Type) where
  userStore : UserStore R
  nextId : Nat
  sales : List (OrderBookEntry R)
  trades : List (Trade R × SaleFlags)

namespace OrderBook

variable {R : Type}

/-- The pointers that `getOrders` (`OrderBook.cpp:29-44`) returns for one order type. -/
def getOrders (orderList : List (OrderBookEntry R)) (type : OrderBookType) : List (EntryPtr R) :=
  (orderList.zipIdx.filter (fun e => e.1.orderType = type)).map (fun e => ⟨e.2, e.1⟩)

variable [Zero R] [Add R] [Sub R] [Mul R] [LT R] [LE R] [DecidableLT R] [DecidableLE R] [BEq R]

/-- What `processSale` throws on a product without exactly two tokens. -/
def invalidSaleProduct : Str := str "Invalid product format in sale"

/-- What `processSale` throws when the buyer's locked balance is short. -/
def buyerInsufficient : Exn := .runtimeError (str "Buyer has insufficient funds")

/-- What `processSale` throws when the seller's locked balance is short. -/
def sellerInsufficient : Exn := .runtimeError (str "Seller has insufficient funds")

/-- The wallet updates of `processSale` (`OrderBook.cpp:287-313`), with the buyer and the seller
given by their keys in the store. -/
def exchange (store : UserStore R) (buyer seller base quote' : Str) (amount totalCost bidPrice
    askPrice : R) : UserStore R × SaleFlags × Except Exn Unit :=
  -- the buyer's wallet
  let spent := store.spendLocked buyer quote' totalCost
  if !spent.1 && store.getUsername buyer != defaultUser then
    (spent.2, ⟨some spent.1, none, none⟩, .error buyerInsufficient)
  else match spent.2.insertCurrency buyer base amount with
  | .error e => (spent.2, ⟨some spent.1, none, none⟩, .error e)
  | .ok store =>
    -- the seller's wallet
    let sold := store.spendLocked seller base amount
    if !sold.1 && store.getUsername seller != defaultUser then
      (sold.2, ⟨some spent.1, some sold.1, none⟩, .error sellerInsufficient)
    else match sold.2.insertCurrency seller quote' totalCost with
    | .error e => (sold.2, ⟨some spent.1, some sold.1, none⟩, .error e)
    | .ok store =>
      -- the refund when the bid was priced above the ask
      if askPrice < bidPrice then
        let refunded := store.unlockCurrency buyer quote' ((bidPrice - askPrice) * amount)
        (refunded.2, ⟨some spent.1, some sold.1, some refunded.1⟩, .ok ())
      else (store, ⟨some spent.1, some sold.1, none⟩, .ok ())

/-- `processSale` (`OrderBook.cpp:278-314`). -/
def processSale (store : UserStore R) (buyer seller : Str) (sale : OrderBookEntry R)
    (bidPrice askPrice : R) : UserStore R × SaleFlags × Except Exn Unit :=
  match pairTokens invalidSaleProduct sale.product with
  | .error e => (store, ⟨none, none, none⟩, .error e)
  | .ok (base, quote') =>
    exchange store buyer seller base quote' sale.amount (sale.price * sale.amount) bidPrice askPrice

/-- The start of a match (`OrderBook.cpp:239-243`): both users are looked up and the sale is
constructed with amount zero. -/
def beginSale (st : PassState R) (product currentTimestamp : Str) (bid ask : EntryPtr R) :
    PassState R × Except Exn (OrderBookEntry R) :=
  match st.userStore.getUser bid.entry.username with
  | .error e => (st, .error e)
  | .ok store =>
    match store.getUser ask.entry.username with
    | .error e => ({ st with userStore := store }, .error e)
    | .ok store =>
      let (sale, nextId) :=
        OrderBookEntry.make ask.entry.price 0 currentTimestamp product .sale defaultUser st.nextId
      ({ st with userStore := store, nextId }, .ok sale)

/-- `sales.push_back(sale)` and `processSale`, for a sale whose amount has been set. -/
def settle (st : PassState R) (sale : OrderBookEntry R) (bid ask : EntryPtr R) :
    PassState R × Except Exn Unit :=
  let r := processSale st.userStore bid.entry.username ask.entry.username sale bid.entry.price
    ask.entry.price
  ({ st with userStore := r.1, sales := st.sales ++ [sale],
             trades := st.trades ++ [(⟨bid, ask, sale.amount⟩, r.2.1)] }, r.2.2)

/-- How a round of the inner loop ends: it goes on to the next bid, it breaks, or an exception
leaves the pass. -/
inductive RoundEnd
  | next
  | leave
  | thrown (e : Exn)

/-- The ask, the bid and the state after a round. -/
structure Round (R : Type) where
  ask : EntryPtr R
  bid : EntryPtr R
  st : PassState R
  how : RoundEnd

/-- A settled match: `how` unless `processSale` threw. -/
def Round.settled (ask bid : EntryPtr R) (r : PassState R × Except Exn Unit) (how : RoundEnd) :
    Round R :=
  match r.2 with
  | .error e => ⟨ask, bid, r.1, .thrown e⟩
  | .ok () => ⟨ask, bid, r.1, how⟩

/-- The body of the inner loop (`OrderBook.cpp:233-270`). -/
def bidRound (product currentTimestamp : Str) (ask bid : EntryPtr R) (st : PassState R) : Round R :=
  if bid.entry.amount ≤ 0 then ⟨ask, bid, st, .next⟩
  else if ask.entry.price ≤ bid.entry.price then
    let begun := beginSale st product currentTimestamp bid ask
    match begun.2 with
    | .error e => ⟨ask, bid, begun.1, .thrown e⟩
    | .ok sale =>
      let st := begun.1
      if bid.entry.amount == ask.entry.amount then
        .settled (ask.withAmount 0) (bid.withAmount 0)
          (settle st (sale.withAmount ask.entry.amount) bid ask) .leave
      else if ask.entry.amount < bid.entry.amount then
        .settled (ask.withAmount 0) (bid.withAmount (bid.entry.amount - ask.entry.amount))
          (settle st (sale.withAmount ask.entry.amount) bid ask) .leave
      else if bid.entry.amount < ask.entry.amount then
        .settled (ask.withAmount (ask.entry.amount - bid.entry.amount)) (bid.withAmount 0)
          (settle st (sale.withAmount bid.entry.amount) bid ask) .next
      else ⟨ask, bid, st, .next⟩
  else ⟨ask, bid, st, .next⟩

/-- The orders and the state when a loop of the pass ends, and how it ended. -/
structure LoopEnd (R : Type) where
  asks : List (EntryPtr R)
  bids : List (EntryPtr R)
  st : PassState R
  result : Except Exn Unit

/-- The inner loop (`OrderBook.cpp:232-271`). -/
def bidLoop (product currentTimestamp : Str) :
    EntryPtr R → List (EntryPtr R) → PassState R → LoopEnd R
  | ask, [], st => ⟨[ask], [], st, .ok ()⟩
  | ask, bid :: bids, st =>
    let r := bidRound product currentTimestamp ask bid st
    match r.how with
    | .thrown e => ⟨[r.ask], r.bid :: bids, r.st, .error e⟩
    | .leave => ⟨[r.ask], r.bid :: bids, r.st, .ok ()⟩
    | .next =>
      let q := bidLoop product currentTimestamp r.ask bids r.st
      { q with bids := r.bid :: q.bids }

/-- The outer loop (`OrderBook.cpp:228-272`). -/
def askLoop (product currentTimestamp : Str) :
    List (EntryPtr R) → List (EntryPtr R) → PassState R → LoopEnd R
  | [], bids, st => ⟨[], bids, st, .ok ()⟩
  | ask :: asks, bids, st =>
    if ask.entry.amount ≤ 0 then
      let r := askLoop product currentTimestamp asks bids st
      { r with asks := ask :: r.asks }
    else
      let r := bidLoop product currentTimestamp ask bids st
      match r.result with
      | .error _ => { r with asks := r.asks ++ asks }
      | .ok () =>
        let q := askLoop product currentTimestamp asks r.bids r.st
        { q with asks := r.asks ++ q.asks }

/-- The book, the store, `nextId`, the trades made and the outcome of a pass: the sales it
returns, or the exception it ends by. -/
structure PassEnd (R : Type) where
  book : OrderBook R
  userStore : UserStore R
  nextId : Nat
  trades : List (Trade R × SaleFlags)
  result : Except Exn (List (OrderBookEntry R))

/-- The asks of a product in the order `std::sort` gives them. -/
def sortedAsks (std : StdSort (EntryPtr R)) (orderList : List (OrderBookEntry R)) :
    List (EntryPtr R) :=
  std.sort (fun a b => OrderBookEntry.compareByPriceAsc a.entry b.entry) (getOrders orderList .ask)

/-- The bids of a product in the order `std::sort` gives them. -/
def sortedBids (std : StdSort (EntryPtr R)) (orderList : List (OrderBookEntry R)) :
    List (EntryPtr R) :=
  std.sort (fun a b => OrderBookEntry.compareByPriceDesc a.entry b.entry) (getOrders orderList .bid)

/-- The nodes of the list after the amounts have been changed through the pointers. -/
def writeBack (orderList : List (OrderBookEntry R)) (ptrs : List (EntryPtr R)) :
    List (OrderBookEntry R) :=
  ListFacts.putAll orderList (ptrs.map (fun p => (p.pos, p.entry)))

/-- The two loops over the list of a product. -/
def passLoop (std : StdSort (EntryPtr R)) (orderList : List (OrderBookEntry R))
    (product currentTimestamp : Str) (userStore : UserStore R) (nextId : Nat) : LoopEnd R :=
  askLoop product currentTimestamp (sortedAsks std orderList) (sortedBids std orderList)
    ⟨userStore, nextId, [], []⟩

/-- `matchAsksToBids` (`OrderBook.cpp:217-276`). -/
def matchAsksToBids (std : StdSort (EntryPtr R)) (book : OrderBook R) (product currentTimestamp : Str)
    (userStore : UserStore R) (nextId : Nat) : PassEnd R :=
  match book.orderMap.lookup product with
  | none => ⟨book.insertSales [], userStore, nextId, [], .ok []⟩
  | some orderList =>
    let r := passLoop std orderList product currentTimestamp userStore nextId
    let book := { book with
      orderMap := book.orderMap.insert product (writeBack orderList (r.bids ++ r.asks)) }
    match r.result with
    | .error e => ⟨book, r.st.userStore, r.st.nextId, r.st.trades, .error e⟩
    | .ok () =>
      ⟨(book.insertSales r.st.sales).removeMatchedOrders product, r.st.userStore, r.st.nextId,
        r.st.trades, .ok r.st.sales⟩

end OrderBook

end MiniATS
