import MiniATS.Misc.Machine
import MiniATS.Server.ServerMain

/-!
# Serial runs

A serial run is a sequence of whole client messages, by any sessions, and whole matching
passes, on any products and with any outcome of `std::sort`. `now` is what the clock shows
when the event starts.
-/

namespace MiniATS

/-- The server and the username of every session, empty before `REGISTER` or `LOGIN`. -/
structure System (R : Type) where
  server : Server R
  sessions : Nat → Str

/-- One step of a serial run. -/
inductive Event (R : Type)
  | message (sid : Nat) (now : Int) (data : Str)
  | pass (std : StdSort (EntryPtr R)) (now : Int) (product : Str)

/-- A line of text from a session, when the clock shows zero. -/
def Event.line {R : Type} (sid : Nat) (text : String) : Event R := .message sid 0 (str text)

namespace System

variable {R : Type}

/-- A server just started: the book and `nextId` as the constructor leaves them, a user store,
nothing pending and nobody logged in. -/
def start (book : OrderBook R) (nextId : Nat) (store : UserStore R) : System R :=
  ⟨⟨book, store, nextId, []⟩, fun _ => []⟩

/-- A server started without an orders file and without a users file. -/
def fresh : System R := start ⟨str "orders.csv", [], ∅, ∅⟩ 1 .empty

theorem fresh_book (env : Env R) :
    OrderBook.make env (str "orders.csv") none 1 = .ok (⟨str "orders.csv", [], ∅, ∅⟩, 1) := rfl

variable [Zero R] [Add R] [Sub R] [Mul R] [Div R] [LT R] [LE R] [DecidableLT R] [DecidableLE R] [BEq R]

/-- The order that a message places, when it is an `ASK` or a `BID` that is accepted. -/
def placedBy (env : Env R) (s : System R) (sid : Nat) (now : Int) (data : Str) :
    Option (OrderBookEntry R) :=
  let tokens := Server.tokenise data
  if Server.commandOf tokens = str "ASK" ∨ Server.commandOf tokens = str "BID" then
    (s.server.admitOrder env now (s.sessions sid) (Server.commandOf tokens) tokens).2.getRight?
  else none

/-- What the sender of a message sees. -/
def replyTo (env : Env R) (s : System R) (sid : Nat) (now : Int) (data : Str) : Reply :=
  (s.server.handleMessage env now (s.sessions sid) data).2.2

/-- The pass an event starts from this state. -/
def passOf (env : Env R) (s : System R) (std : StdSort (EntryPtr R)) (now : Int) (product : Str) :
    OrderBook.PassEnd R :=
  (s.server.matchProduct env std now product).2

def step (env : Env R) (s : System R) : Event R → System R
  | .message sid now data =>
    let r := s.server.handleMessage env now (s.sessions sid) data
    ⟨r.1, Function.update s.sessions sid r.2.1⟩
  | .pass std now product => ⟨(s.server.matchProduct env std now product).1, s.sessions⟩

def run (env : Env R) (s : System R) (events : List (Event R)) : System R :=
  events.foldl (step env) s

theorem run_eq (env : Env R) (s : System R) (events : List (Event R)) :
    run env s events = events.foldl (step env) s := rfl

@[simp] theorem run_nil (env : Env R) (s : System R) : run env s [] = s := rfl

@[simp] theorem run_cons (env : Env R) (s : System R) (e : Event R) (events : List (Event R)) :
    run env s (e :: events) = run env (step env s e) events := rfl

end System

end MiniATS
