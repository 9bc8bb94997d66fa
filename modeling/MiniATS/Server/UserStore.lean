import MiniATS.Server.Wallet

/-!
# `User` and `UserStore`

Registered users by name (`User.cpp`, `UserStore.cpp:11-37`). `getUser` hands out references
into the map; the model reads and writes the wallet of a key instead, which is the same since
no user is ever removed while the server runs.
-/

namespace MiniATS

/-- `class User`. -/
structure User (R : Type) where
  username : Str
  password : Str
  wallet : Wallet R

/-- `class UserStore`. The map is private and every method that adds a user files it under its
own name, which `named` records. -/
structure UserStore (R : Type) where
  users : KeyedMap Str (User R)
  named : ∀ username user, users.lookup username = some user → user.username = username

namespace UserStore

variable {R : Type}

/-- The store of a server that found no users file. -/
def empty : UserStore R := ⟨∅, by simp⟩

/-- `userExists` (`UserStore.cpp:11-14`). -/
def userExists (store : UserStore R) (username : Str) : Bool := (store.users.lookup username).isSome

/-- The store with the value of a key replaced. -/
def put (store : UserStore R) (username : Str) (user : User R) (same : user.username = username) :
    UserStore R where
  users := store.users.insert username user
  named := by
    intro key value found
    rw [KeyedMap.lookup_insert_eq] at found
    split at found
    · obtain rfl := Option.some.inj found
      exact same.trans (Eq.symm ‹_›)
    · exact store.named key value found

/-- `users.emplace(username, User(username, password))`: an existing key keeps its value. -/
def emplace [Zero R] (store : UserStore R) (username password : Str) : UserStore R :=
  match store.users.lookup username with
  | some _ => store
  | none => store.put username ⟨username, password, Wallet.empty⟩ rfl

variable [Zero R]

/-- `addUser` (`UserStore.cpp:16-19`). -/
def addUser (store : UserStore R) (username password : Str) : UserStore R :=
  store.emplace username password

/-- What `getUser` throws. -/
def userNotFound (username : Str) : Exn := .runtimeError (str "User not found: " ++ username)

/-- `getUser` (`UserStore.cpp:26-37`): the store, in which the user `default` is created when
it is asked for, or the exception for a name that is not there. -/
def getUser (store : UserStore R) (username : Str) : Except Exn (UserStore R) :=
  match store.users.lookup username with
  | some _ => .ok store
  | none =>
    if username = defaultUser then .ok (store.emplace username (str "default"))
    else .error (userNotFound username)

/-- The wallet that `getUser(username).getWallet()` refers to. -/
def wallet (store : UserStore R) (username : Str) : Wallet R :=
  match store.users.lookup username with
  | some user => user.wallet
  | none => Wallet.empty

omit [Zero R] in
/-- The store after that wallet has changed. -/
def setWallet (store : UserStore R) (username : Str) (w : Wallet R) : UserStore R :=
  match found : store.users.lookup username with
  | some user => store.put username { user with wallet := w } (store.named username user found)
  | none => store

section Methods

variable [Add R] [Sub R] [Mul R] [LT R] [LE R] [DecidableLT R] [DecidableLE R]

/-- `getWallet().insertCurrency(type, amount)` of a user. -/
def insertCurrency (store : UserStore R) (username type : Str) (amount : R) :
    Except Exn (UserStore R) :=
  match (store.wallet username).insertCurrency type amount with
  | .error e => .error e
  | .ok w => .ok (store.setWallet username w)

/-- `getWallet().removeCurrency(type, amount)` of a user. -/
def removeCurrency (store : UserStore R) (username type : Str) (amount : R) :
    Except Exn (Bool × UserStore R) :=
  match (store.wallet username).removeCurrency type amount with
  | .error e => .error e
  | .ok (removed, w) => .ok (removed, store.setWallet username w)

/-- `getWallet().spendLocked(type, amount)` of a user. -/
def spendLocked (store : UserStore R) (username type : Str) (amount : R) : Bool × UserStore R :=
  let r := (store.wallet username).spendLocked type amount
  (r.1, store.setWallet username r.2)

/-- `getWallet().unlockCurrency(type, amount)` of a user. -/
def unlockCurrency (store : UserStore R) (username type : Str) (amount : R) : Bool × UserStore R :=
  let r := (store.wallet username).unlockCurrency type amount
  (r.1, store.setWallet username r.2)

/-- `getWallet().fulfillOrder(order)` of a user. -/
def fulfillOrder (store : UserStore R) (username : Str) (order : OrderBookEntry R) :
    Except Exn (Bool × UserStore R) :=
  match (store.wallet username).fulfillOrder order with
  | .error e => .error e
  | .ok (fulfilled, w) => .ok (fulfilled, store.setWallet username w)

/-- `getWallet().cancelOrder(order)` of a user. -/
def cancelOrder (store : UserStore R) (username : Str) (order : OrderBookEntry R) :
    Except Exn (Bool × UserStore R) :=
  match (store.wallet username).cancelOrder order with
  | .error e => .error e
  | .ok (unlocked, w) => .ok (unlocked, store.setWallet username w)

end Methods

/-- `getUser(username).getUsername()`: the name the user object carries. -/
def getUsername (store : UserStore R) (username : Str) : Str :=
  match store.users.lookup username with
  | some user => user.username
  | none => username

/-- `getUser(username).validatePassword(password)` (`User.cpp:14-16`). -/
def validatePassword (store : UserStore R) (username password : Str) : Bool :=
  match store.users.lookup username with
  | some user => user.password = password
  | none => false

/-- The available balance of a user. -/
def available (store : UserStore R) (username type : Str) : R := (store.wallet username).available type

/-- The locked balance of a user. -/
def locked (store : UserStore R) (username type : Str) : R := (store.wallet username).lockedIn type

end UserStore

end MiniATS
