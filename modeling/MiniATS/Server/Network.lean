import MiniATS.Client.ClientMain
import MiniATS.Server.Threads

/-!
# The server and its clients

Every session of the server is one end of a connection. A connection delivers the bytes of
either side in order, and a `read_some` returns any non-empty part of what has been written
and not been read, up to the size of the buffer. What the server makes of it is `Threads.next`:
one `read_some` is one message (`ServerMain.cpp:98-107`).

The session of a client that has ended waits for ever; that its thread ends is left out.
-/

namespace MiniATS

open Str

/-- The size of both buffers (`ServerMain.cpp:95`, `ClientMain.cpp:25`). -/
def bufferSize : Nat := 512

/-- `welcome` (`ServerMain.cpp:92`). -/
def welcome : Str := str "Welcome to MiniATS Server\n"

/-- What the server writes for a reply (`ServerMain.cpp:341-342`). -/
def Reply.bytes : Reply → Str
  | .text line => line ++ [10]
  | .silent | .closed => []

/-- A connection: the client, the bytes under way, and what each `read_some` of the server has
returned. -/
structure Link where
  client : ClientMain
  toServer : Str
  toClient : Str
  reads : List Str

/-- The server's threads, with the connection of every session. -/
structure Network (R : Type) where
  threads : Threads R
  links : List Link

namespace Network

variable {R : Type}

/-- A server just started. -/
def start (threads : Threads R) : Network R := ⟨threads, []⟩

/-- One step of a client, of a connection or of a thread of the server. -/
inductive Action (R : Type)
  | connect
  | typeLine (sid : Nat) (userInput : Str)
  | readResponse (sid length : Nat)
  | readRequest (sid : Nat) (now : Int) (length : Nat)
  | advance (sid : Nat)
  | engine
  | task (n : Nat) (std : StdSort (EntryPtr R)) (now : Int)
  | cleanup

/-- What a session has written to its client between two states. -/
def answers (before after : Threads R) (sid : Nat) : Str :=
  let log := fun s : Threads R => (s.sessions[sid]?.map Session.log).getD []
  ((log after).drop (log before).length).flatMap (fun entry => entry.2.bytes)

variable [Zero R] [Add R] [Sub R] [Mul R] [Div R] [LT R] [LE R] [DecidableLT R] [DecidableLE R] [BEq R]

/-- A step of the server alone. -/
def inside (env : Env R) (s : Network R) (a : MiniATS.Action R) : Option (Network R) :=
  (Threads.next env s.threads a).map fun threads => ⟨threads, s.links⟩

/-- A step of a session, after which its connection is `link` but for what it has answered. -/
def answering (env : Env R) (s : Network R) (sid : Nat) (a : MiniATS.Action R) (link : Link) :
    Option (Network R) :=
  (Threads.next env s.threads a).map fun threads =>
    ⟨threads, s.links.set sid
      { link with toClient := link.toClient ++ answers s.threads threads sid }⟩

/-- One step; `none` when it cannot be taken. -/
def next (env : Env R) (s : Network R) : Action R → Option (Network R)
  | .connect =>
    (Threads.next env s.threads .connect).map fun threads =>
      ⟨threads, s.links ++ [⟨.connected, [], welcome, []⟩]⟩
  | .typeLine sid userInput =>
    match s.links[sid]? with
    | none => none
    | some link =>
      -- what `std::getline` reads has no line end
      if 10 ∈ userInput then none
      else (link.client.typeLine userInput).map fun r =>
        { s with links := s.links.set sid
                  { link with client := r.1, toServer := link.toServer ++ r.2 } }
  | .readResponse sid length =>
    match s.links[sid]? with
    | none => none
    | some link =>
      if 0 < length ∧ length ≤ bufferSize ∧ length ≤ link.toClient.length then
        link.client.read.map fun client =>
          { s with links := s.links.set sid
                    { link with client, toClient := link.toClient.drop length } }
      else if length = 0 ∧ link.toClient = [] then
        match s.threads.sessions[sid]? with
        | some ⟨_, _, .ended, _⟩ =>
          link.client.readEnd.map fun client =>
            { s with links := s.links.set sid { link with client } }
        | _ => none
      else none
  | .readRequest sid now length =>
    match s.links[sid]? with
    | none => none
    | some link =>
      if 0 < length ∧ length ≤ bufferSize ∧ length ≤ link.toServer.length then
        s.answering env sid (.message sid now (link.toServer.take length))
          { link with toServer := link.toServer.drop length
                      reads := link.reads ++ [link.toServer.take length] }
      else none
  | .advance sid =>
    match s.links[sid]? with
    | none => none
    | some link => s.answering env sid (.advance sid) link
  | .engine => s.inside env .engine
  | .task n std now => s.inside env (.task n std now)
  | .cleanup => s.inside env .cleanup

end Network

end MiniATS
