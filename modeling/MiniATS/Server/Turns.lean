import MiniATS.Server.Serial
import MiniATS.Server.Threads

/-!
# Turns

The server when its threads take turns: a client connects, a message is handled from its first byte
to its reply, or the engine takes the front product from the queue and the pass over it runs. These
are the interleaved runs in which nothing is interrupted. `Turn.events` are the events of the serial
run that a turn stands for.
-/

namespace MiniATS

/-- One turn. -/
inductive Turn (R : Type)
  | connect
  | message (sid : Nat) (now : Int) (data : Str)
  | pass (std : StdSort (EntryPtr R)) (now : Int)

namespace Threads

variable {R : Type}

/-- A server whose engine has put the known products into the queue. -/
def ready (book : OrderBook R) (nextId : Nat) (store : UserStore R) : Threads R :=
  { start book nextId store with
    server := ⟨book, store, nextId, book.getKnownProducts⟩
    engine := .waiting }

/-- The events of a serial run that a turn stands for. -/
def events (s : Threads R) : Turn R → List (Event R)
  | .connect => []
  | .message sid now data => [.message sid now data]
  | .pass std now => (s.server.pendingProducts.head?.map (fun product => Event.pass std now product)).toList

variable [Zero R] [Add R] [Sub R] [Mul R] [Div R] [LT R] [LE R] [DecidableLT R] [DecidableLE R] [BEq R]

/-- A turn; `none` when the client is not waiting for an answer to anything, or the queue is empty. -/
def turn (env : Env R) (s : Threads R) : Turn R → Option (Threads R)
  | .connect => some { s with sessions := s.sessions ++ [.connected] }
  | .message sid now data =>
    match s.sessions[sid]? with
    | none => none
    | some c =>
      match c.phase with
      | .idle =>
        let r := s.server.handleMessage env now c.username data
        some (s.put sid (r.1, { c with username := r.2.1, message := data }.answer r.2.2))
      | _ => none
  | .pass std now =>
    match s.server.pendingProducts with
    | [] => none
    | product :: products =>
      let s := s.withPending products
      some { s with server := (s.server.matchProduct env std now product).1 }

end Threads

end MiniATS
