import MiniATS.Misc.Locks

/-!
# The mutexes of the server

What each function does to `OrderBook::ordersMutex`, `UserStore::mtx`, `Wallet::mtx` and
`ServerMain::matchingMutex`, in the order of its code and with its branches and exceptions; what a
branch depends on is left open. Wallets are objects, and an object is a number: the copies that
`users.emplace` and `users = ...` make of a wallet lock the mutex of a temporary one. A future counts
as a mutex that its task holds from the launch to its end and that `f.wait()` takes and gives back.
`Wallet::operator=` is not used by the server.
-/

namespace MiniATS

open Locks Locking

/-- The mutexes. -/
inductive Mutex
  | matching
  | future (n : Nat)
  | orders
  | users
  | wallet (w : Nat)
  deriving DecidableEq

/-- `std::recursive_mutex` or `std::mutex`, and the order in which the mutexes are taken. -/
def Mutex.kinds : Kinds Mutex where
  recursive
    | .orders | .wallet _ => true
    | .matching | .future _ | .users => false
  rank
    | .matching => 0
    | .future _ => 1
    | .orders => 2
    | .users => 3
    | .wallet _ => 4

namespace Wallet.Locks

/-- The copy constructor (`Wallet.cpp:6-10`). -/
def copy (w : Nat) : Locking Mutex := .guard (.wallet w) .skip

/-- `insertCurrency` (`Wallet.cpp:23-29`). -/
def insertCurrency (w : Nat) : Locking Mutex := .guard (.wallet w) (.branch .raise .skip)

/-- `containsAmmount` (`Wallet.cpp:43-53`). -/
def containsAmmount (w : Nat) : Locking Mutex := .guard (.wallet w) (.branch .raise .skip)

/-- `removeCurrency` (`Wallet.cpp:31-41`). -/
def removeCurrency (w : Nat) : Locking Mutex := .guard (.wallet w) (.branch .raise (containsAmmount w))

/-- `toString` (`Wallet.cpp:55-71`). -/
def toString (w : Nat) : Locking Mutex := .guard (.wallet w) .skip

/-- `lockCurrency` (`Wallet.cpp:89-97`). -/
def lockCurrency (w : Nat) : Locking Mutex := .guard (.wallet w) (containsAmmount w)

/-- `fulfillOrder` (`Wallet.cpp:73-87`). -/
def fulfillOrder (w : Nat) : Locking Mutex :=
  .guard (.wallet w) (.branch .raise (.branch (lockCurrency w) .skip))

/-- `unlockCurrency` (`Wallet.cpp:115-123`). -/
def unlockCurrency (w : Nat) : Locking Mutex := .guard (.wallet w) .skip

/-- `cancelOrder` (`Wallet.cpp:99-113`). -/
def cancelOrder (w : Nat) : Locking Mutex :=
  .guard (.wallet w) (.branch .raise (.branch (unlockCurrency w) .skip))

/-- `spendLocked` (`Wallet.cpp:125-132`). -/
def spendLocked (w : Nat) : Locking Mutex := .guard (.wallet w) .skip

end Wallet.Locks

namespace UserStore.Locks

/-- `userExists` (`UserStore.cpp:11-14`). -/
def userExists : Locking Mutex := .guard .users .skip

/-- `addUser` (`UserStore.cpp:16-19`): the new user is copied into the map. -/
def addUser : Locking Mutex := .guard .users (.choose Wallet.Locks.copy)

/-- `getUser` (`UserStore.cpp:26-37`): the user is there, or is `default` and new, or is not found. -/
def getUser : Locking Mutex :=
  .guard .users (.branch .skip (.branch (.choose Wallet.Locks.copy) .raise))

/-- `save` (`UserStore.cpp:39-50`): `dump` may throw. -/
def save : Locking Mutex := .guard .users (.branch .raise .skip)

/-- `load` (`UserStore.cpp:52-67`): the users that are read are copied. -/
def load : Locking Mutex :=
  .guard .users (.attempt (.branch .raise (.loop (.choose Wallet.Locks.copy))))

end UserStore.Locks

namespace OrderBook.Locks

/-- `getKnownProducts` (`OrderBook.cpp:19-27`). -/
def getKnownProducts : Locking Mutex := .guard .orders .skip

/-- `getOrders` (`OrderBook.cpp:29-44`). -/
def getOrders : Locking Mutex := .guard .orders .skip

/-- `insertOrder` (`OrderBook.cpp:116-135`). -/
def insertOrder : Locking Mutex := .guard .orders .skip

/-- `getAllOrders` (`OrderBook.cpp:137-145`). -/
def getAllOrders : Locking Mutex := .guard .orders .skip

/-- `getOrdersForUser` (`OrderBook.cpp:147-157`). -/
def getOrdersForUser : Locking Mutex := .guard .orders .skip

/-- `insertSales` (`OrderBook.cpp:159-162`). -/
def insertSales : Locking Mutex := .guard .orders .skip

/-- `getSales` (`OrderBook.cpp:164-167`). -/
def getSales : Locking Mutex := .guard .orders .skip

/-- `removeOrderById` (`OrderBook.cpp:169-211`). -/
def removeOrderById : Locking Mutex := .guard .orders .skip

/-- `removeMatchedOrders` (`OrderBook.cpp:316-330`). -/
def removeMatchedOrders : Locking Mutex := .guard .orders .skip

/-- A party of `processSale` whose locked funds are short: its wallet is printed. -/
def insufficient (w : Nat) : Locking Mutex := .branch (.seq (Wallet.Locks.toString w) .raise) .skip

/-- `processSale` (`OrderBook.cpp:278-314`). -/
def processSale (buyer seller : Nat) : Locking Mutex :=
  .branch .raise
    (.seq (Wallet.Locks.spendLocked buyer)
    (.seq (insufficient buyer)
    (.seq (Wallet.Locks.insertCurrency buyer)
    (.seq (Wallet.Locks.spendLocked seller)
    (.seq (insufficient seller)
    (.seq (Wallet.Locks.insertCurrency seller)
    (.branch (Wallet.Locks.unlockCurrency buyer) .skip)))))))

/-- A match (`OrderBook.cpp:237-270`): the users are looked up and the sale is processed. -/
def settleMatch : Locking Mutex :=
  .seq UserStore.Locks.getUser (.seq UserStore.Locks.getUser
    (.choose fun buyer => .choose fun seller => processSale buyer seller))

/-- `matchAsksToBids` (`OrderBook.cpp:217-276`). -/
def matchAsksToBids : Locking Mutex :=
  .guard .orders (.seq getOrders (.seq (.loop settleMatch) (.seq insertSales removeMatchedOrders)))

end OrderBook.Locks

namespace Server.Locks

open OrderBook.Locks UserStore.Locks Wallet.Locks

/-- `startMatchingProduct` (`ServerMain.cpp:395-403`). -/
def startMatchingProduct : Locking Mutex := .guard .matching .skip

/-- `REGISTER` (`ServerMain.cpp:130-148`). -/
def handleRegister : Locking Mutex := .branch .skip (.seq userExists (.branch .skip addUser))

/-- `LOGIN` (`ServerMain.cpp:149-172`). -/
def handleLogin : Locking Mutex := .branch .skip (.seq userExists (.branch .skip getUser))

/-- `ASK` and `BID` (`ServerMain.cpp:173-203`). -/
def handleOrder : Locking Mutex :=
  .branch .skip (.attempt (.branch .raise (.seq getUser (.seq (.choose fulfillOrder)
    (.branch (.branch .raise .skip) (.seq insertOrder startMatchingProduct))))))

/-- `ORDERS` (`ServerMain.cpp:204-226`). -/
def handleOrders : Locking Mutex := .branch .skip getOrdersForUser

/-- `CANCEL` (`ServerMain.cpp:227-258`). -/
def handleCancel : Locking Mutex :=
  .branch .skip (.attempt (.branch .raise (.seq getOrdersForUser
    (.branch .skip (.seq getUser (.seq (.choose cancelOrder) removeOrderById))))))

/-- `WALLET` (`ServerMain.cpp:259-265`). -/
def handleWallet : Locking Mutex := .branch .skip (.seq getUser (.choose toString))

/-- `DEPOSIT` and `WITHDRAW` (`ServerMain.cpp:266-292`). -/
def handleFunds : Locking Mutex :=
  .branch .skip (.attempt (.branch .raise (.seq getUser
    (.branch (.choose removeCurrency) (.choose insertCurrency)))))

/-- `MARKET` (`ServerMain.cpp:293-305`). -/
def handleMarket : Locking Mutex := .seq getKnownProducts (.loop getOrders)

/-- `STATS` (`ServerMain.cpp:306-334`). -/
def handleStats : Locking Mutex := .branch .skip getOrders

/-- One round of `handleClient` (`ServerMain.cpp:97-343`): the socket may fail before or after. -/
def handleMessage : Locking Mutex :=
  .seq (.branch .raise .skip)
    (.seq (.branch handleRegister (.branch handleLogin (.branch handleOrder (.branch handleOrders
      (.branch handleCancel (.branch handleWallet (.branch handleFunds (.branch handleMarket
        (.branch handleStats .skip))))))))) (.branch .raise .skip))

/-- `handleClient` (`ServerMain.cpp:87-348`). -/
def handleClient : Locking Mutex := .attempt (.loop handleMessage)

/-- `startMatching` (`ServerMain.cpp:350-393`). -/
def startMatching : Locking Mutex :=
  .seq getKnownProducts (.seq (.guard .matching .skip)
    (.loop (.guard .matching (.loop (.wait .matching)))))

/-- The task that `startMatching` launches (`ServerMain.cpp:383-391`); an exception goes into the
future. -/
def matchingTask : Locking Mutex := .attempt matchAsksToBids

/-- `init` and `run` (`ServerMain.cpp:39-85`): the acceptor may fail to bind; after `load` the main
thread takes no mutex. -/
def init : Locking Mutex := .attempt (.branch .raise load)

/-- The wait for the futures. -/
def waitAll : List Nat → Locking Mutex
  | [] => .skip
  | n :: futures => .seq (.guard (.future n) .skip) (waitAll futures)

/-- `cleanup` up to `std::exit` (`ServerMain.cpp:12-36`). -/
def cleanup (futures : List Nat) : Locking Mutex :=
  .seq getSales (.seq getAllOrders (.seq save (waitAll futures)))

/-- A thread of the server before its first operation. -/
inductive Started : Holder Mutex → Prop
  | main {ops : List (LockOp Mutex)} {thrown : Bool} (path : Path init ops thrown) : Started ⟨[], ops⟩
  | client {ops : List (LockOp Mutex)} {thrown : Bool} (path : Path handleClient ops thrown) :
    Started ⟨[], ops⟩
  | engine {ops : List (LockOp Mutex)} {thrown : Bool} (path : Path startMatching ops thrown) :
    Started ⟨[], ops⟩
  | task {n : Nat} {ops : List (LockOp Mutex)} {thrown : Bool} (path : Path matchingTask ops thrown) :
    Started ⟨[.future n], ops ++ [.release (.future n)]⟩

end Server.Locks

end MiniATS
