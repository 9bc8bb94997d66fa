import MiniATS.Cxx.Env
import MiniATS.Misc.KeyedMap
import MiniATS.Server.OrderBookEntry
import Mathlib.Data.List.Sort

/-!
# `CSVHandler`

Splitting a line into tokens and reading and writing order files (`CSVHandler.cpp`). A file
is its content; `none` stands for a file that cannot be opened.
-/

namespace MiniATS

namespace CSVHandler

open Str

/-- The loop of `extractTokens` (`CSVHandler.cpp:14-24`). Every round but the last consumes a
separator, so `fuel` above the length of the line is never used up. -/
def extractTokensLoop (csvLine : Str) (separator : UInt8) :
    Nat → Int → List Str → Except Exn (List Str)
  | 0, _, tokens => .ok tokens
  | fuel + 1, start, tokens =>
    let end' := toInt (findFirstOf csvLine separator (toSizeT start))
    if toSizeT start = csvLine.length ∨ start = end' then .ok tokens
    else if 0 ≤ end' then
      match substr csvLine (toSizeT start) (toSizeT (end' - start)) with
      | .error e => .error e
      | .ok token => extractTokensLoop csvLine separator fuel (end' + 1) (tokens ++ [token])
    else
      match substr csvLine (toSizeT start) (csvLine.length - toSizeT start) with
      | .error e => .error e
      | .ok token => .ok (tokens ++ [token])

/-- `extractTokens` (`CSVHandler.cpp:8-26`). -/
def extractTokens (csvLine : Str) (separator : UInt8) : Except Exn (List Str) :=
  extractTokensLoop csvLine separator (csvLine.length + 2)
    (toInt (findFirstNotOf csvLine separator 0)) []

/-- The two tokens around `'/'` that `Wallet::fulfillOrder`, `Wallet::cancelOrder` and
`OrderBook::processSale` ask of a product, or the exception each of them throws otherwise. -/
def pairTokens (what product : Str) : Except Exn (Str × Str) :=
  match extractTokens product 47 with
  | .error e => .error e
  | .ok [base, quote'] => .ok (base, quote')
  | .ok _ => .error (.invalidArgument what)

variable {R : Type}

/-- `parseLine` on tokens (`CSVHandler.cpp:39-52`). -/
def parseLine (env : Env R) (tokens : List Str) (nextId : Nat) :
    Except Exn (OrderBookEntry R × Nat) :=
  match tokens with
  | [timestamp, product, typeStr, priceStr, amountStr] =>
    match OrderBookEntry.determineOrderType typeStr with
    | .error e => .error e
    | .ok orderType =>
      match env.stod priceStr, env.stod amountStr with
      | some price, some amount =>
        .ok (OrderBookEntry.make price amount timestamp product orderType defaultUser nextId)
      | _, _ => .error (.invalidArgument (str "stod"))
  | _ => .error .exception

/-- The reading loop of `readCSV` (`CSVHandler.cpp:61-70`): a line that does not parse is
skipped. -/
def readLines (env : Env R) : List Str → KeyedMap Str (List (OrderBookEntry R)) → Nat →
    Except Exn (KeyedMap Str (List (OrderBookEntry R)) × Nat)
  | [], entries, nextId => .ok (entries, nextId)
  | line :: lines, entries, nextId =>
    match extractTokens line 44 with
    | .error e => .error e
    | .ok tokens =>
      match parseLine env tokens nextId with
      | .error _ => readLines env lines entries nextId
      | .ok (entry, nextId') =>
        readLines env lines (entries.insert entry.product (entries.get entry.product [] ++ [entry]))
          nextId'

/-- `std::list::sort` with `compareByTimestamp`, which is stable. -/
def sortByTimestamp (orders : List (OrderBookEntry R)) : List (OrderBookEntry R) :=
  orders.insertionSort (fun a b => OrderBookEntry.compareByTimestamp b a = false)

/-- The sorting loop of `readCSV` (`CSVHandler.cpp:73-75`). -/
def sortLists (entries : KeyedMap Str (List (OrderBookEntry R))) :
    KeyedMap Str (List (OrderBookEntry R)) :=
  entries.keys.foldl (fun m product => m.insert product (sortByTimestamp (m.get product []))) entries

/-- `readCSV` (`CSVHandler.cpp:54-77`). -/
def readCSV (env : Env R) (file : Option Str) (nextId : Nat) :
    Except Exn (KeyedMap Str (List (OrderBookEntry R)) × Nat) :=
  match readLines env (getlines 10 (file.getD [])) ∅ nextId with
  | .error e => .error e
  | .ok (entries, nextId') => .ok (sortLists entries, nextId')

/-- One line of `entriesToCSV` (`CSVHandler.cpp:86-90`). -/
def entryToLine (env : Env R) (entry : OrderBookEntry R) : Str :=
  entry.timestamp ++ [44] ++ entry.product ++ [44] ++
    OrderBookEntry.orderTypeToString entry.orderType ++ [44] ++ env.ostream entry.price ++ [44] ++
    env.ostream entry.amount ++ [10]

/-- `entriesToCSV` (`CSVHandler.cpp:79-93`): the content of the file afterwards. -/
def entriesToCSV (env : Env R) (file : Str) (entries : List (OrderBookEntry R)) (append : Bool) :
    Str :=
  (if append then file else []) ++ entries.flatMap (entryToLine env)

end CSVHandler

end MiniATS
