import MiniATS.Proofs.ReturnedPass
import MiniATS.Proofs.RewrittenFile
import MiniATS.Properties.SalesFile
import MiniATS.Properties.StoredFields

/-!
# Restarts of a server that nobody uses

The engine of a new process matches every product of the file, so a restart is not idle by itself. But
when the file was written by `entriesToCSV`, its orders have something left and do not cross, then over
any number of processes in which no client sends a message, however far each of them comes, the files
say what they said: `sales.csv` does not change, `orders.csv` has the same lines, and the accounts are
the same (`ServerMain.cpp:12-64`, `:350-403`, `CSVHandler.cpp:54-93`).
-/

namespace MiniATS

open Str CSVHandler OrderBook OrderBookEntry

variable {Text : Type} {env : Env ℚ} {json : JsonText ℚ Text}

/-- Not a message of a client. -/
def Action.isQuiet {R : Type} : Action R → Bool
  | .message _ _ _ => false
  | _ => true

namespace Threads

/-- What a process keeps while no message is sent, from a state in which no pass finds anything to
do. -/
structure Unused (s t : Threads ℚ) : Prop where
  idle : ∀ c ∈ t.sessions, c.phase = .idle
  orders : ∀ p, t.server.orderBook.orders p = s.server.orderBook.orders p
  sales : t.server.orderBook.finalizedSales = []
  users : t.server.userStore = s.server.userStore

/-- No order crosses another one, and all have something left. -/
structure Rests (s : Threads ℚ) : Prop where
  uncrossed : ∀ p, Uncrossed (s.server.orderBook.orders p)
  positive : ∀ p, ∀ o ∈ s.server.orderBook.orders p, ¬ o.amount ≤ 0

theorem Unused.step {s t t' : Threads ℚ} {a : Action ℚ} (rests : s.Rests) (unused : Unused s t)
    (quiet : a.isQuiet) (taken : Taken env t a t') : Unused s t' := by
  cases taken with
  | connect =>
    refine ⟨fun c member => ?_, unused.orders, unused.sales, unused.users⟩
    rcases List.mem_append.mp member with earlier | new
    · exact unused.idle c earlier
    · rw [List.mem_singleton.mp new]
      rfl
  | message => cases quiet
  | advance found sessions moved =>
    -- a session without a message has no next step
    unfold Session.advance at moved
    rw [unused.idle _ (mem_sessions sessions)] at moved
    cases moved
  | @task n std now product before after found tasks =>
    have same := unused.orders product
    have idle := idlePass std (same ▸ rests.uncrossed product) (same ▸ rests.positive product)
      (Server.getCurrentTimestamp env now) t.server.userStore t.server.nextId
    exact ⟨unused.idle, fun p => (idle.orders p).trans (unused.orders p),
      idle.finalizedSales.trans unused.sales, idle.userStore.trans unused.users⟩
  | _ => exact ⟨unused.idle, unused.orders, unused.sales, unused.users⟩

/-- The book that is read from the rewritten file rests as well. -/
theorem Rests.of_stored {s t : Threads ℚ} (rests : s.Rests)
    (same : ∀ p, (t.server.orderBook.orders p).map stored = (s.server.orderBook.orders p).map stored) :
    t.Rests := by
  have was : ∀ p, ∀ o ∈ t.server.orderBook.orders p, ∃ o' ∈ s.server.orderBook.orders p,
      o'.orderType = o.orderType ∧ o'.price = o.price ∧ o'.amount = o.amount := by
    intro p o member
    obtain ⟨o', inList, eq⟩ := List.mem_map.mp (same p ▸ List.mem_map_of_mem member)
    simp only [stored, Prod.mk.injEq] at eq
    exact ⟨o', inList, eq.2.2.1, eq.2.2.2.1, eq.2.2.2.2⟩
  constructor
  · intro p ask isAsk bid isBid typeAsk typeBid crosses
    obtain ⟨ask', inAsks, type, price, amount⟩ := was p ask isAsk
    obtain ⟨bid', inBids, type', price', amount'⟩ := was p bid isBid
    apply rests.uncrossed p ask' inAsks bid' inBids (type.trans typeAsk) (type'.trans typeBid)
    unfold Crosses
    rw [amount, amount', price, price']
    exact crosses
  · intro p o member
    obtain ⟨o', inList, -, -, amount⟩ := was p o member
    rw [← amount]
    exact rests.positive p o' inList

/-- Whatever a process in which no message is sent exports is what it started with. -/
theorem exported_unused {file : Option Str} {book : OrderBook ℚ} {nextId : Nat} {store : UserStore ℚ}
    {s : Threads ℚ} {life : List (Action ℚ)}
    (made : OrderBook.make env (str "orders.csv") file 1 = .ok (book, nextId))
    (rests : (start book nextId store).Rests) (quiet : ∀ a ∈ life, Action.isQuiet a)
    (ran : Machine.exec (next env) (start book nextId store) life = some s) :
    s.shutdown.All (fun sales => sales = [])
      (fun orders => ∀ p, orders.filter (fun o => o.product = p) = book.orders p)
      (fun users => users = store) := by
  have loaded := make_loaded made
  refine (exported_run _ _ _ (Unused (start book nextId store))
    (fun unused may taken => unused.step rests may taken) (fun {t} unused => ?_)
    ⟨fun _ member => absurd member List.not_mem_nil, fun _ => rfl, make_finalizedSales made, rfl⟩
    rfl (Machine.along_of_mem (fun a member _ => quiet a member) _) ran).2
  refine ⟨unused.sales, fun p => ?_, unused.users⟩
  have kept : ∀ p, t.server.orderBook.orders p = book.orders p := unused.orders
  rw [← kept]
  apply KeyedMap.filter_flat
  intro p o member
  exact loaded.indexed.filed p o (kept p ▸ member)

end Threads

namespace Disk

/-- The orders file was written from these entries, and the process `s`, just started on the files,
has nothing to match and users that can be stored. -/
structure Rested (env : Env ℚ) (json : JsonText ℚ Text) (entries : List (OrderBookEntry ℚ))
    (s : Threads ℚ) (disk : Disk Text) : Prop where
  written : disk.orders = some (entriesToCSV env [] entries false)
  legible : Legible env entries
  booted : disk.boot env json = some s
  rests : s.Rests
  storable : s.server.userStore.Storable json

/-- The files say the same. -/
structure Alike (json : JsonText ℚ Text) (disk disk' : Disk Text) : Prop where
  sales : disk'.sales = disk.sales
  orders : (getlines 10 (disk'.orders.getD [])).Perm (getlines 10 (disk.orders.getD []))
  accounts : ∀ name, Option.Rel User.Same ((disk.accounts json).lookup name)
    ((disk'.accounts json).lookup name)

theorem Alike.trans {disk disk' disk'' : Disk Text} (first : Alike json disk disk')
    (second : Alike json disk' disk'') : Alike json disk disk'' where
  sales := second.sales.trans first.sales
  orders := second.orders.trans first.orders
  accounts := fun name => User.rel_trans (first.accounts name) (second.accounts name)

variable {value : ℚ → ℚ} {entries : List (OrderBookEntry ℚ)} {s : Threads ℚ} {disk disk' : Disk Text}

/-- The process has the orders that the file was written from. -/
theorem Rested.lists (settles : env.Settles value) (rested : Rested env json entries s disk) (p : Str) :
    (s.server.orderBook.orders p).map stored =
      (sortByTimestamp (entries.filter fun o => o.product = p)).map (storedValue value ∘ stored) := by
  obtain ⟨book, nextId, store, made, -, rfl⟩ := boot_eq_some.mp rested.booted
  obtain ⟨book', nextId', made', lists⟩ :=
    make_written settles.toPrints (str "orders.csv") [] rested.legible
  rw [rested.written, made'] at made
  obtain ⟨rfl, -⟩ := Prod.mk.inj (Except.ok.inj made)
  exact lists p

/-- The orders file after such a process is written from the same orders, and the next process has them. -/
theorem Rested.orders_after (settles : env.Settles value) (rested : Rested env json entries s disk)
    {shutdown : Shutdown ℚ} {ofSales : List (OrderBookEntry ℚ) → Prop} {ofUsers : UserStore ℚ → Prop}
    (all : shutdown.All ofSales
      (fun orders => ∀ p, orders.filter (fun o => o.product = p) = s.server.orderBook.orders p) ofUsers) :
    ∃ entries' book' nextId',
      (disk.after env json shutdown).orders = some (entriesToCSV env [] entries' false) ∧
      Legible env entries' ∧ (entries'.map (entryFields env)).Perm (entries.map (entryFields env)) ∧
      OrderBook.make env (str "orders.csv") (disk.after env json shutdown).orders 1 =
        .ok (book', nextId') ∧
      ∀ p, (book'.orders p).map stored = (s.server.orderBook.orders p).map stored := by
  have lists := rested.lists settles
  obtain ⟨book, nextId, store, made, -, rfl⟩ := boot_eq_some.mp rested.booted
  rcases after_orders env json disk all with kept | ⟨orders, exported, file⟩
  · exact ⟨entries, book, nextId, kept.trans rested.written, rested.legible, .refl _, kept ▸ made,
      fun _ => rfl⟩
  · have fields := entryFields_perm settles lists exported
    obtain ⟨book', nextId', made', -, same⟩ := make_rewritten settles (make_loaded made).chronological lists
      rested.legible exported (str "orders.csv") []
    exact ⟨orders, book', nextId', file, rested.legible.of_fields fields, fields, file ▸ made', same⟩

/-- The users file after such a process has the same accounts. -/
theorem Rested.users_after (lossless : json.Lossless) (rested : Rested env json entries s disk)
    {shutdown : Shutdown ℚ} {ofSales ofOrders : List (OrderBookEntry ℚ) → Prop}
    (all : shutdown.All ofSales ofOrders (fun users => users = s.server.userStore)) :
    ∃ store' : UserStore ℚ,
      store'.users = (disk.after env json shutdown).accounts json ∧ store'.Storable json ∧
      ∀ name, Option.Rel User.Same ((disk.accounts json).lookup name) (store'.users.lookup name) := by
  have storable := rested.storable
  obtain ⟨book, nextId, store, -, users, rfl⟩ := boot_eq_some.mp rested.booted
  rw [← users]
  unfold accounts
  rcases after_users env json disk all with kept | ⟨exports, -, rfl, written⟩
  · rw [kept]
    exact ⟨store, users, storable, fun name => User.rel_refl _⟩
  · rw [written]
    exact UserStore.exists_loaded lossless storable

/-- One process in which no message is sent. -/
theorem Rested.live (settles : env.Settles value) (lossless : json.Lossless)
    (rested : Rested env json entries s disk) {life : List (Action ℚ)} (quiet : ∀ a ∈ life, Action.isQuiet a)
    (lived : disk.live env json life = some disk') :
    Alike json disk disk' ∧ ∃ entries' s', Rested env json entries' s' disk' ∧
      ∀ p, (s'.server.orderBook.orders p).map stored = (s.server.orderBook.orders p).map stored := by
  obtain ⟨s₁, s₂, booted, ran, rfl⟩ := live_eq_some.mp lived
  obtain rfl := Option.some.inj (rested.booted.symm.trans booted)
  obtain ⟨book, nextId, store, made, -, rfl⟩ := boot_eq_some.mp booted
  -- whatever is written is what the process started with
  have all := Threads.exported_unused made rested.rests quiet ran
  have sales : (disk.after env json s₂.shutdown).sales = disk.sales := by
    rw [after_sales]
    cases read : s₂.shutdown.sales with
    | none => exact List.append_nil _
    | some sales =>
      rw [all.sales sales read]
      exact List.append_nil _
  obtain ⟨entries', book', nextId', written, legible, fields, made', same⟩ := rested.orders_after settles all
  obtain ⟨store', accounts, storable, related⟩ := rested.users_after lossless all
  refine ⟨⟨sales, ?_, ?_⟩, entries', Threads.start book' nextId' store', ⟨written, legible, ?_, ?_, storable⟩,
    same⟩
  · rw [written, rested.written]
    exact getlines_perm fields [] []
  · intro name
    rw [← accounts]
    exact related name
  · exact boot_eq_some.mpr ⟨book', nextId', store', made', accounts, rfl⟩
  · exact rested.rests.of_stored same

/-- Over any chain of processes in which no message is sent, the files say what they said, and the
process that is started on them has the same orders. -/
theorem quiet_restarts (settles : env.Settles value) (lossless : json.Lossless)
    (rested : Rested env json entries s disk) (lives : List (List (Action ℚ)))
    (quiet : ∀ life ∈ lives, ∀ a ∈ life, Action.isQuiet a)
    (ran : Machine.exec (Disk.live env json) disk lives = some disk') :
    Alike json disk disk' ∧ ∃ entries' s', Rested env json entries' s' disk' ∧
      ∀ p, (s'.server.orderBook.orders p).map stored = (s.server.orderBook.orders p).map stored := by
  refine Machine.exec_invariant
    (fun d => Alike json disk d ∧ ∃ entries' s', Rested env json entries' s' d ∧
      ∀ p, (s'.server.orderBook.orders p).map stored = (s.server.orderBook.orders p).map stored)
    (fun d life d' holds may lived => ?_)
    ⟨⟨rfl, .refl _, fun _ => User.rel_refl _⟩, entries, s, rested, fun _ => rfl⟩
    (Machine.along_of_mem (fun life member _ => quiet life member) _) ran
  obtain ⟨alike, entries', s', rested', same⟩ := holds
  obtain ⟨alike', entries'', s'', rested'', same'⟩ := rested'.live settles lossless may lived
  exact ⟨alike.trans alike', entries'', s'', rested'', fun p => (same' p).trans (same p)⟩

/-- The shipped bid and an ask above it, as a server writes them. -/
def shippedOrders : List (OrderBookEntry ℚ) :=
  [shippedBid, { shippedBid with orderType := .ask, price := 22 / 1000 }]

def shippedDisk : Disk (Option (Json ℚ)) :=
  ⟨[], some (entriesToCSV exactEnv [] shippedOrders false), none⟩

/-- The first process matches the orders and is shut down, the second is ended before it has written
the users. -/
def unusedTwice : List (List (Action ℚ)) :=
  [[.connect, .engine, .engine, .engine, .engine, .task 0 (StdSort.insertion _) 0, .cleanup, .cleanup,
      .cleanup, .cleanup], [.engine, .cleanup, .cleanup]]

theorem quiet_restarts_shipped : ∃ disk',
    Machine.exec (Disk.live exactEnv BookRun.exactFiles) shippedDisk unusedTwice = some disk' ∧
      Alike BookRun.exactFiles shippedDisk disk' := by
  obtain ⟨s, booted, found⟩ := (Option.any_eq_true _ _).mp
    (show (shippedDisk.boot exactEnv BookRun.exactFiles).any (fun s =>
      (Machine.exec (Disk.live exactEnv BookRun.exactFiles) shippedDisk unusedTwice).isSome &&
        (decide (∀ ask ∈ s.server.orderBook.getAllOrders, ∀ bid ∈ s.server.orderBook.getAllOrders,
          ask.orderType = .ask → bid.orderType = .bid → ¬ ask.price ≤ bid.price) &&
        (decide (∀ o ∈ s.server.orderBook.getAllOrders, ¬ o.amount ≤ 0) &&
        decide (s.server.userStore.Storable BookRun.exactFiles)))) by decide +kernel)
  simp only [Bool.and_eq_true, decide_eq_true_eq] at found
  obtain ⟨lives, apart, positive, storable⟩ := found
  obtain ⟨disk', ran⟩ := Option.isSome_iff_exists.mp lives
  have inBook : ∀ p, ∀ o ∈ s.server.orderBook.orders p, o ∈ s.server.orderBook.getAllOrders :=
    fun p o member => mem_getAllOrders.mpr ⟨p, member⟩
  have rested : Rested exactEnv BookRun.exactFiles shippedOrders s shippedDisk := by
    refine ⟨rfl, fun o member => ⟨?_, ?_⟩, booted, ⟨?_, ?_⟩, storable⟩
    · exact (show ∀ o ∈ shippedOrders, o.Storable by decide +kernel) o member
    · exact narrow_of_length
        ((show ∀ o ∈ shippedOrders, (entryToLine exactEnv o).length < 2 ^ 31 by decide +kernel) o member)
    · intro p ask isAsk bid isBid typeAsk typeBid crosses
      exact apart ask (inBook p ask isAsk) bid (inBook p bid isBid) typeAsk typeBid crosses.2.2
    · exact fun p o member => positive o (inBook p o member)
  exact ⟨disk', ran, (quiet_restarts exactEnv_settles (documents_lossless _ _ _) rested unusedTwice
    (by decide) ran).1⟩

end Disk

end MiniATS
