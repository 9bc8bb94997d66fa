import MiniATS.Cxx.Str

/-!
# `ClientMain`

The client program (`ClientMain.cpp:11-83`): it reads the server's greeting, then sends every
line that is typed, without a line end, and reads once from the socket after each.
-/

namespace MiniATS

/-- Where the client stands between two calls. -/
inductive ClientMain.Phase
  | greeted
  | prompting
  | responding
  | ended
  deriving DecidableEq

/-- The client; `sent` is what each `asio::write` has written. -/
structure ClientMain where
  phase : ClientMain.Phase
  sent : List Str

namespace ClientMain

/-- A client that has just connected. -/
def connected : ClientMain := ⟨.greeted, []⟩

/-- What the loop does with a typed line (`ClientMain.cpp:40-64`), and what it writes. -/
def typeLine (client : ClientMain) (userInput : Str) : Option (ClientMain × Str) :=
  if client.phase = .prompting then
    if userInput = str "EXIT" ∨ userInput = str "exit" then
      some ({ client with phase := .ended }, [])
    else if userInput = str "HELP" ∨ userInput = str "help" then some (client, [])
    else if 0 < userInput.length then
      some (⟨.responding, client.sent ++ [userInput]⟩, userInput)
    else some (client, [])
  else none

/-- A `read_some` that returns bytes (`ClientMain.cpp:28-32` and `66-75`). -/
def read (client : ClientMain) : Option ClientMain :=
  if client.phase = .greeted ∨ client.phase = .responding then
    some { client with phase := .prompting }
  else none

/-- A `read_some` after the server has closed the connection (`ClientMain.cpp:68-70`). -/
def readEnd (client : ClientMain) : Option ClientMain :=
  if client.phase = .responding then some { client with phase := .ended } else none

end ClientMain

end MiniATS
