import MiniATS.Misc.KeyedMap
import MiniATS.Misc.Machine
import MiniATS.Misc.Resumption
import MiniATS.Misc.Segments
import MiniATS.Misc.StdSort
import MiniATS.Misc.ListFacts
import MiniATS.Misc.Crossing
import MiniATS.Misc.Clearing
import MiniATS.Misc.StableSort
import MiniATS.Misc.Ledger
import MiniATS.Misc.Locks
import MiniATS.Misc.Binary64
import MiniATS.Cxx.Str
import MiniATS.Cxx.Number
import MiniATS.Cxx.Double
import MiniATS.Cxx.Time
import MiniATS.Cxx.Env
import MiniATS.Cxx.Json
import MiniATS.Server.OrderBookEntry
import MiniATS.Server.CSVHandler
import MiniATS.Server.Wallet
import MiniATS.Server.UserStore
import MiniATS.Server.OrderBook
import MiniATS.Server.Storage
import MiniATS.Server.Matching
import MiniATS.Server.ServerMain
import MiniATS.Server.Cleanup
import MiniATS.Server.Generations
import MiniATS.Server.Serial
import MiniATS.Server.Threads
import MiniATS.Server.Turns
import MiniATS.Server.PassCalls
import MiniATS.Server.Locks
import MiniATS.Client.ClientMain
import MiniATS.Server.Network
import MiniATS.Proofs.WalletLedger
import MiniATS.Proofs.BookIndex
import MiniATS.Proofs.UserOrders
import MiniATS.Proofs.PassLists
import MiniATS.Proofs.PassSpares
import MiniATS.Proofs.PassUncrosses
import MiniATS.Proofs.Meetings
import MiniATS.Proofs.Exchange
import MiniATS.Proofs.Accounts
import MiniATS.Proofs.StoreChanges
import MiniATS.Proofs.Reservation
import MiniATS.Proofs.PassCrossing
import MiniATS.Proofs.Settlement
import MiniATS.Proofs.PassAccounting
import MiniATS.Proofs.Pass
import MiniATS.Proofs.ServerSteps
import MiniATS.Proofs.Balances
import MiniATS.Proofs.PassBalance
import MiniATS.Proofs.Sane
import MiniATS.Proofs.PassEffect
import MiniATS.Proofs.Lines
import MiniATS.Proofs.LoadedBook
import MiniATS.Proofs.SerialBook
import MiniATS.Proofs.Commands
import MiniATS.Proofs.Refusals
import MiniATS.Proofs.SerialSound
import MiniATS.Proofs.ThreadSteps
import MiniATS.Proofs.ThreadBook
import MiniATS.Proofs.Work
import MiniATS.Proofs.Queue
import MiniATS.Proofs.Figures
import MiniATS.Proofs.PassCalls
import MiniATS.Proofs.ReturnedPass
import MiniATS.Proofs.QueueService
import MiniATS.Proofs.Tokens
import MiniATS.Proofs.Json
import MiniATS.Proofs.Storage
import MiniATS.Proofs.ReadEntries
import MiniATS.Proofs.Decimal
import MiniATS.Proofs.Numeral
import MiniATS.Proofs.WrittenFile
import MiniATS.Proofs.RewrittenFile
import MiniATS.Proofs.ThreadFunds
import MiniATS.Properties.ReservedFunds
import MiniATS.Properties.Conservation
import MiniATS.Properties.StrandedFunds
import MiniATS.Properties.Settlement
import MiniATS.Properties.ArrivalOrder
import MiniATS.Properties.AllOrNothing
import MiniATS.Properties.Restart
import MiniATS.Properties.UserIndex
import MiniATS.Properties.WholeCommands
import MiniATS.Properties.ProductOrder
import MiniATS.Properties.Passwords
import MiniATS.Properties.Shutdown
import MiniATS.Properties.Reports
import MiniATS.Properties.NoOrderForgotten
import MiniATS.Properties.NonnegativeBalances
import MiniATS.Properties.Segmentation
import MiniATS.Properties.MarketClearing
import MiniATS.Properties.Fills
import MiniATS.Properties.PassTrades
import MiniATS.Properties.Lifetimes
import MiniATS.Properties.SalesLedger
import MiniATS.Properties.Isolation
import MiniATS.Properties.Priority
import MiniATS.Properties.StableLists
import MiniATS.Properties.OrderLines
import MiniATS.Properties.OnePair
import MiniATS.Properties.OwnAnswers
import MiniATS.Properties.SavedBook
import MiniATS.Properties.SavedUsers
import MiniATS.Properties.StoredFields
import MiniATS.Properties.StorableOrders
import MiniATS.Properties.ReleasedOnce
import MiniATS.Properties.TokenLoop
import MiniATS.Properties.MistypedNumbers
import MiniATS.Properties.ClosingOut
import MiniATS.Properties.ComesToRest
import MiniATS.Properties.Uninterrupted
import MiniATS.Properties.Answers
import MiniATS.Properties.Deadlock
import MiniATS.Proofs.Generations
import MiniATS.Properties.SurvivingAccounts
import MiniATS.Properties.LockedForGood
import MiniATS.Properties.SalesFile
import MiniATS.Properties.QuietRestarts
import MiniATS.Properties.BalanceSheets
import MiniATS.Properties.ConcurrentMoney
