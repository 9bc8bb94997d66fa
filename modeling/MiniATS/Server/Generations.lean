import MiniATS.Server.Storage
import MiniATS.Server.Threads

/-!
# The server over its restarts

A process starts on the files that the one before it has left: the constructor of `OrderBook` reads
`orders.csv` (`OrderBook.cpp:13-17`) and `init` loads `users.json` (`ServerMain.cpp:50`). `cleanup` adds
to `sales.csv` and writes the other two anew, one after the other (`ServerMain.cpp:16-20`). A process
may end at any moment after `load`, and what `cleanup` has not come to by then stays as it was.

The handler is there before the users are (`ServerMain.cpp:42-50`), and a file is truncated before it
is written. Neither a signal in that gap nor a file written in part is in the model.
-/

namespace MiniATS

open CSVHandler

variable {R Text : Type}

/-- `sales.csv`, `orders.csv` and `users.json`; `none` stands for a file that cannot be opened. -/
structure Disk (Text : Type) where
  sales : Str
  orders : Option Str
  users : Option Text

/-- A store of these users, if each is filed under the own name. -/
def UserStore.ofUsers (users : KeyedMap Str (User R)) : Option (UserStore R) :=
  if named : ∀ username user, users.lookup username = some user → user.username = username then
    some ⟨users, named⟩
  else none

namespace Disk

/-- The users that a process has after `load`. -/
def accounts (json : JsonText R Text) (disk : Disk Text) : KeyedMap Str (User R) :=
  UserStore.load json ∅ disk.users

/-- A process that has just been started on these files, with its users loaded; `none` when the
constructor throws, or when `users.json` files a user under another name, which `save` never does. -/
def boot (env : Env R) (json : JsonText R Text) (disk : Disk Text) : Option (Threads R) :=
  match OrderBook.make env (str "orders.csv") disk.orders 1 with
  | .error _ => none
  | .ok (book, nextId) => (UserStore.ofUsers (disk.accounts json)).map (Threads.start book nextId)

/-- The files when the process ends: `cleanup` has written, as a whole, what it has read. -/
def after (env : Env R) (json : JsonText R Text) (disk : Disk Text) : Shutdown R → Disk Text
  | .running => disk
  | .savedSales sales => { disk with sales := entriesToCSV env disk.sales sales true }
  | .savedOrders sales orders =>
    ⟨entriesToCSV env disk.sales sales true,
      some (entriesToCSV env (disk.orders.getD []) orders false), disk.users⟩
  | .saved exports | .stopped exports =>
    ⟨entriesToCSV env disk.sales exports.sales true,
      some (entriesToCSV env (disk.orders.getD []) exports.orders false),
      some (exports.users.save json)⟩

variable [Zero R] [Add R] [Sub R] [Mul R] [Div R] [LT R] [LE R] [DecidableLT R] [DecidableLE R] [BEq R]

/-- Where a process started on these files is after some steps of its threads. -/
def process (env : Env R) (json : JsonText R Text) (disk : Disk Text) (life : List (Action R)) :
    Option (Threads R) :=
  (disk.boot env json).bind fun s => Machine.exec (Threads.next env) s life

/-- The files after a process that takes these steps and ends there. -/
def live (env : Env R) (json : JsonText R Text) (disk : Disk Text) (life : List (Action R)) :
    Option (Disk Text) :=
  (disk.process env json life).map fun s => disk.after env json s.shutdown

end Disk

end MiniATS
