import MiniATS.Server.ServerMain

/-!
# `ServerMain::cleanup`

What the shutdown handler writes of the open orders (`ServerMain.cpp:17`), and the book of a server
that is started on it.
-/

namespace MiniATS

namespace OrderBook

variable {R : Type}

/-- What the orders file holds after the open orders were written to it. -/
def ordersFile (env : Env R) (file : Str) (book : OrderBook R) : Str :=
  CSVHandler.entriesToCSV env file book.getAllOrders false

/-- The constructor of a new server on the orders file of this one: the book and `nextId`, which
starts from one again. -/
def restart (env : Env R) (file : Str) (book : OrderBook R) : Except Exn (OrderBook R × Nat) :=
  make env book.filename (some (book.ordersFile env file)) 1

end OrderBook

end MiniATS
