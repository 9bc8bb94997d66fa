import MiniATS.Properties.Lifetimes

/-!
# The sales that are recorded

A pass hands its sales to the book when it returns (`OrderBook.cpp:273`), and nothing else writes
`finalizedSales`: over any interleaving these are the trades of the passes that have returned, in
the order the passes ran. Sales take their ids from the counter of the orders, and no id is ever
given twice.
-/

namespace MiniATS

open OrderBook

namespace OrderBook

section Rounds

variable {R : Type} [Zero R] [Add R] [Sub R] [Mul R] [LT R] [LE R] [DecidableLT R] [DecidableLE R]
  [BEq R]

/-- A stretch of a pass numbers the sales it makes. -/
structure SalesNumbered (st st' : PassState R) (new : List (OrderBookEntry R)) : Prop where
  sales : st'.sales = st.sales ++ new
  ordered : (new.map (fun o => o.id)).Pairwise (· < ·)
  within : ∀ sale ∈ new, st.nextId ≤ sale.id ∧ sale.id < st'.nextId ∧ sale.orderType = .sale ∧
    sale.username = defaultUser
  later : st.nextId ≤ st'.nextId

omit [Zero R] [Add R] [Sub R] [Mul R] [LT R] [LE R] [DecidableLT R] [DecidableLE R] [BEq R] in
theorem SalesNumbered.none' {st st' : PassState R} (sales : st'.sales = st.sales)
    (later : st.nextId ≤ st'.nextId) : SalesNumbered st st' [] :=
  ⟨by rw [sales, List.append_nil], List.Pairwise.nil, fun _ member => absurd member List.not_mem_nil,
    later⟩

omit [Zero R] [Add R] [Sub R] [Mul R] [LT R] [LE R] [DecidableLT R] [DecidableLE R] [BEq R] in
theorem SalesNumbered.trans {st st' st'' : PassState R} {new new' : List (OrderBookEntry R)}
    (first : SalesNumbered st st' new) (second : SalesNumbered st' st'' new') :
    SalesNumbered st st'' (new ++ new') where
  sales := by rw [second.sales, first.sales, List.append_assoc]
  ordered := by
    rw [List.map_append, List.pairwise_append]
    refine ⟨first.ordered, second.ordered, ?_⟩
    intro i inFirst j inSecond
    obtain ⟨sale, member, rfl⟩ := List.mem_map.mp inFirst
    obtain ⟨sale', member', rfl⟩ := List.mem_map.mp inSecond
    have before := (first.within sale member).2.1
    have after := (second.within sale' member').1
    omega
  within := by
    intro sale member
    rcases List.mem_append.mp member with inFirst | inSecond
    · obtain ⟨least, most, type, user⟩ := first.within sale inFirst
      exact ⟨least, most.trans_le second.later, type, user⟩
    · obtain ⟨least, most, type, user⟩ := second.within sale inSecond
      exact ⟨first.later.trans least, most, type, user⟩
  later := first.later.trans second.later

theorem bidRound_numbered (product currentTimestamp : Str) (ask bid : EntryPtr R) (st : PassState R) :
    ∃ new, SalesNumbered st (bidRound product currentTimestamp ask bid st).st new := by
  -- the state in which the sale has been constructed, and its number
  have begun : SalesNumbered st (beginSale st product currentTimestamp bid ask).1 [] ∧
      ∀ sale, (beginSale st product currentTimestamp bid ask).2 = .ok sale →
        sale.id = st.nextId ∧ sale.orderType = .sale ∧ sale.username = defaultUser ∧
          (beginSale st product currentTimestamp bid ask).1.nextId = st.nextId + 1 := by
    unfold beginSale
    split
    · exact ⟨.none' rfl le_rfl, by simp⟩
    · split
      · exact ⟨.none' rfl le_rfl, by simp⟩
      · refine ⟨.none' rfl (Nat.le_succ _), fun sale made => ?_⟩
        rw [← Except.ok.inj made]
        exact ⟨rfl, rfl, rfl, rfl⟩
  apply bidRound_state (motive := fun st' => ∃ new, SalesNumbered st st' new)
  · exact ⟨[], .none' rfl le_rfl⟩
  · exact ⟨[], begun.1⟩
  · intro sale amount made
    obtain ⟨id, type, user, next⟩ := begun.2 sale made
    refine ⟨[sale.withAmount amount], ?_, List.pairwise_singleton _ _, ?_, begun.1.later⟩
    · have kept := begun.1.sales
      rw [List.append_nil] at kept
      unfold settle
      rw [kept]
    · intro sale' member
      rw [List.mem_singleton.mp member]
      refine ⟨id.ge, ?_, type, user⟩
      rw [OrderBookEntry.withAmount_id, id]
      exact (Nat.lt_succ_self _).trans_eq next.symm

/-- The sales of a pass that returns take ids that had not been given. -/
theorem sales_numbered (std : StdSort (EntryPtr R)) (book : OrderBook R) (product currentTimestamp : Str)
    (userStore : UserStore R) (nextId : Nat) :
    let ended := book.matchAsksToBids std product currentTimestamp userStore nextId
    (∃ e, ended.result = .error e ∧ ended.book.finalizedSales = book.finalizedSales) ∨
    ∃ sales, ended.result = .ok sales ∧ ended.book.finalizedSales = book.finalizedSales ++ sales ∧
      SalesNumbered ⟨userStore, nextId, [], []⟩ ⟨ended.userStore, ended.nextId, sales, []⟩ sales := by
  unfold matchAsksToBids
  cases found : book.orderMap.lookup product with
  | none => exact Or.inr ⟨[], rfl, rfl, .none' rfl le_rfl⟩
  | some orderList =>
    have loops := askLoop_state product currentTimestamp
      (fun st st' : PassState R => ∃ new, SalesNumbered st st' new) (fun st => ⟨[], .none' rfl le_rfl⟩)
      (fun ⟨new, first⟩ ⟨new', second⟩ => ⟨new ++ new', first.trans second⟩)
      (bidRound_numbered product currentTimestamp) (sortedAsks std orderList) (sortedBids std orderList)
      ⟨userStore, nextId, [], []⟩
    obtain ⟨new, numbered⟩ := loops
    have sales := numbered.sales
    rw [List.nil_append] at sales
    unfold passLoop
    dsimp only
    split
    · rename_i e failed
      exact Or.inl ⟨e, rfl, rfl⟩
    · refine Or.inr ⟨_, rfl, ?_, ?_⟩
      · rw [removeMatchedOrders_finalizedSales]
        rfl
      · rw [sales]
        exact ⟨rfl, numbered.ordered, numbered.within, numbered.later⟩

end Rounds

/-- A pass that returns sells what it trades. -/
theorem trades_sold {std : StdSort (EntryPtr ℚ)} {book : OrderBook ℚ} {product currentTimestamp : Str}
    {userStore : UserStore ℚ} {nextId : Nat} {sales : List (OrderBookEntry ℚ)}
    (returned : (book.matchAsksToBids std product currentTimestamp userStore nextId).result = .ok sales) :
    (book.matchAsksToBids std product currentTimestamp userStore nextId).trades.map
        (fun trade => (product, trade.1.ask.entry.price, trade.1.amount)) =
      sales.map (fun sale => (sale.product, sale.price, sale.amount)) := by
  have terms := congrArg (List.map fun t : Trade ℚ => (product, t.ask.entry.price, t.amount))
    (trades_of_returned returned)
  rw [List.map_map, List.map_map] at terms
  rw [sales_of_returned returned]
  exact terms

end OrderBook

namespace Threads

/-- What the passes that have returned sold, by product, price and amount. -/
def sold (env : Env ℚ) (past : List (Threads ℚ × Action ℚ)) : List (Str × ℚ × ℚ) :=
  past.flatMap fun t => match t.1.pass env t.2 with
    | none => []
    | some (product, ended) => match ended.result with
      | .error _ => []
      | .ok _ => ended.trades.map fun trade => (product, trade.1.ask.entry.price, trade.1.amount)

/-- The sales of the book are those of the passes, and no id is given twice. -/
structure Recorded (loaded : OrderBook ℚ) (env : Env ℚ) (past : List (Threads ℚ × Action ℚ))
    (s : Threads ℚ) : Prop where
  sales : s.server.orderBook.saleTerms = sold env past
  default' : ∀ sale ∈ s.server.orderBook.finalizedSales, sale.orderType = .sale ∧
    sale.username = defaultUser
  distinct : ((placed loaded past ++ s.server.orderBook.finalizedSales).map (fun o => o.id)).Nodup

/-- The same with what keeps the ids apart. -/
structure Ledgered (loaded : OrderBook ℚ) (env : Env ℚ) (past : List (Threads ℚ × Action ℚ))
    (s : Threads ℚ) : Prop extends Recorded loaded env past s where
  booked : Booked loaded env past s
  numbered : ∀ sale ∈ s.server.orderBook.finalizedSales, sale.id < s.server.nextId
  aloft : ∀ o ∈ s.inflight, ∀ sale ∈ s.server.orderBook.finalizedSales, sale.id ≠ o.id

section Steps

variable {loaded : OrderBook ℚ} {env : Env ℚ} {past : List (Threads ℚ × Action ℚ)}
  {s s' : Threads ℚ} {a : Action ℚ}

theorem make_finalizedSales {filename : Str} {file : Option Str} {book : OrderBook ℚ} {first nextId : Nat}
    (made : OrderBook.make env filename file first = .ok (book, nextId)) : book.finalizedSales = [] := by
  unfold OrderBook.make at made
  split at made
  · cases made
  · obtain ⟨rfl, -⟩ := Prod.mk.inj (Except.ok.inj made)
    rfl

theorem removeOrderById_finalizedSales (book : OrderBook ℚ) (u : Str) (id : Nat) :
    (book.removeOrderById u id).2.finalizedSales = book.finalizedSales := by
  unfold removeOrderById
  repeat (first | rfl | split)

/-- Only a pass that returns adds sales, and they are the trades it made. -/
theorem sales_step (taken : Taken env s a s') :
    (s'.server.orderBook.finalizedSales = s.server.orderBook.finalizedSales ∧ sold env [(s, a)] = []) ∨
    ∃ sales, s'.server.orderBook.finalizedSales = s.server.orderBook.finalizedSales ++ sales ∧
      sold env [(s, a)] = sales.map (fun sale => (sale.product, sale.price, sale.amount)) ∧
      SalesNumbered ⟨s.server.userStore, s.server.nextId, [], []⟩
        ⟨s'.server.userStore, s'.server.nextId, sales, []⟩ sales ∧
      s'.inflight = s.inflight ∧ s.placedBy a = none := by
  cases taken with
  | @message sid now data c before after found sessions idle =>
    exact Or.inl ⟨by rw [(Session.receive_book env now s.server c data).book], rfl⟩
  | @advance sid c c' srv before after found sessions moved =>
    refine Or.inl ⟨?_, rfl⟩
    cases Session.advanced_book (Session.advanced_of_advance moved) with
    | kept book pending nextId flew lands => rw [book]
    | inserted phase server session => rw [server]; rfl
    | started phase server lands => rw [server, Server.startMatchingProduct_orderBook]
    | removed phase server lands => rw [server]; exact removeOrderById_finalizedSales _ _ _
  | @task n std now product before after found tasks =>
    simp only [sold, List.flatMap_cons, List.flatMap_nil, List.append_nil, Threads.pass, found,
      Option.map_some]
    rcases sales_numbered std s.server.orderBook product (Server.getCurrentTimestamp env now)
      s.server.userStore s.server.nextId with ⟨e, failed, same⟩ | ⟨sales, returned, more, numbered⟩
    · have ends : (s.server.matchProduct env std now product).2.result = .error e := failed
      rw [ends]
      exact Or.inl ⟨same, rfl⟩
    · have ends : (s.server.matchProduct env std now product).2.result = .ok sales := returned
      rw [ends]
      exact Or.inr ⟨sales, more, trades_sold returned, numbered, rfl, rfl⟩
  | _ => exact Or.inl ⟨rfl, rfl⟩

theorem sold_append (past : List (Threads ℚ × Action ℚ)) (t : Threads ℚ × Action ℚ) :
    sold env (past ++ [t]) = sold env past ++ sold env [t] := List.flatMap_append

theorem Ledgered.step (ledgered : Ledgered loaded env past s) (taken : Taken env s a s') :
    Ledgered loaded env (past ++ [(s, a)]) s' := by
  have booked := ledgered.booked.step taken
  obtain ⟨later, flights⟩ := flights_step taken
  have ids := ledgered.distinct
  rw [List.map_append, List.nodup_append] at ids
  obtain ⟨placedOnce, soldOnce, apart⟩ := ids
  rcases sales_step taken with ⟨same, nothing⟩ | ⟨sales, more, terms, numbered, aloft, places⟩
  · refine ⟨⟨?_, same ▸ ledgered.default', ?_⟩, booked, ?_, ?_⟩
    · rw [sold_append, nothing, List.append_nil, ← ledgered.sales, saleTerms, same]
      rfl
    · rw [List.map_append, List.nodup_append, same]
      refine ⟨booked.distinct, soldOnce, ?_⟩
      intro i inPlaced j inSold
      rw [placed_append, List.map_append] at inPlaced
      rcases List.mem_append.mp inPlaced with before | new
      · exact apart i before j inSold
      · -- an order that is inserted was in flight
        obtain ⟨o, member, rfl⟩ := List.mem_map.mp new
        obtain ⟨sale, inSales, rfl⟩ := List.mem_map.mp inSold
        exact (ledgered.aloft o (placedBy_inflight (Option.mem_toList.mp member)) sale inSales).symm
    · rw [same]
      exact fun sale member => (ledgered.numbered sale member).trans_le later
    · rw [same]
      intro o member sale inSales
      rcases flights o member with old | new
      · exact ledgered.aloft o old sale inSales
      · exact ((ledgered.numbered sale inSales).trans_le new).ne
  · have samePlaced : placed loaded (past ++ [(s, a)]) = placed loaded past := by
      rw [placed_append, places, Option.toList_none, List.append_nil]
    have fresh : ∀ sale ∈ sales, s.server.nextId ≤ sale.id := fun sale member =>
      (numbered.within sale member).1
    refine ⟨⟨?_, ?_, ?_⟩, booked, ?_, ?_⟩
    · rw [sold_append, terms, ← ledgered.sales, saleTerms, more, List.map_append]
      rfl
    · rw [more]
      intro sale member
      rcases List.mem_append.mp member with before | new
      · exact ledgered.default' sale before
      · exact (numbered.within sale new).2.2
    · rw [samePlaced, more, List.map_append, List.map_append, ← List.append_assoc,
        ← List.map_append, List.nodup_append]
      refine ⟨ledgered.distinct, numbered.ordered.imp Nat.ne_of_lt, ?_⟩
      intro i before j new same
      obtain ⟨o, member, rfl⟩ := List.mem_map.mp before
      obtain ⟨sale, inSales, rfl⟩ := List.mem_map.mp new
      have known : o.id < s.server.nextId := by
        rcases List.mem_append.mp member with inPlaced | inSold
        · exact ledgered.booked.numbered o inPlaced
        · exact ledgered.numbered o inSold
      exact absurd same ((known.trans_le (fresh sale inSales)).ne)
    · rw [more]
      intro sale member
      rcases List.mem_append.mp member with before | new
      · exact (ledgered.numbered sale before).trans_le later
      · exact (numbered.within sale new).2.1
    · rw [aloft, more]
      intro o flying sale member
      rcases List.mem_append.mp member with before | new
      · exact ledgered.aloft o flying sale before
      · exact ((ledgered.booked.filed.numbered o flying).trans_le (fresh sale new)).ne'

theorem Ledgered.start (env : Env ℚ) {filename : Str} {file : Option Str} {book : OrderBook ℚ}
    {nextId : Nat} (made : OrderBook.make env filename file 1 = .ok (book, nextId))
    (store : UserStore ℚ) : Ledgered book env [] (Threads.start book nextId store) := by
  have none' : book.finalizedSales = [] := make_finalizedSales made
  have booked := Booked.start env (make_loaded made) store
  refine ⟨⟨?_, ?_, ?_⟩, booked, ?_, fun _ member => absurd member List.not_mem_nil⟩
  · simp [Threads.start, saleTerms, none', sold]
  · simp [Threads.start, none']
  · simpa [Threads.start, none'] using booked.distinct
  · simp [Threads.start, none']

theorem ledgered_run {filename : Str} {file : Option Str} {nextId : Nat}
    (made : OrderBook.make env filename file 1 = .ok (loaded, nextId)) (store : UserStore ℚ)
    {actions : List (Action ℚ)}
    (ran : Machine.exec (next env) (Threads.start loaded nextId store) actions = some s) :
    Ledgered loaded env (Machine.trace (next env) (Threads.start loaded nextId store) actions) s :=
  Machine.exec_invariant_trace (Ledgered loaded env)
    (fun _ _ _ _ ledgered _ step => ledgered.step (taken_of_next step)) (.start env made store)
    (Machine.along_of_mem (fun _ _ _ => trivial) _) ran

end Steps

/-- In every state of every run the sales of the book are the trades of the passes that have
returned, and all orders and sales there ever were have ids of their own. -/
theorem sales_recorded (env : Env ℚ) {filename : Str} {file : Option Str} {book : OrderBook ℚ}
    {nextId : Nat} (made : OrderBook.make env filename file 1 = .ok (book, nextId))
    (store : UserStore ℚ) (actions : List (Action ℚ)) {s : Threads ℚ}
    (ran : Machine.exec (next env) (start book nextId store) actions = some s) :
    Recorded book env (Machine.trace (next env) (start book nextId store) actions) s :=
  (ledgered_run made store ran).toRecorded

theorem sales_recorded_launched : ∃ s ∈ crossedFile, ∃ s' book,
    Machine.exec (next exactEnv) s bidWhileLaunched = some s' ∧
      s'.server.orderBook.saleTerms = [(str "BTC/USD", 4, 1)] ∧
      Recorded book exactEnv (Machine.trace (next exactEnv) s bidWhileLaunched) s' := by
  obtain ⟨s, is, found⟩ := (Option.any_eq_true _ _).mp
    (show crossedFile.any (fun s => (Machine.exec (next exactEnv) s bidWhileLaunched).any (fun s' =>
      s'.server.orderBook.saleTerms = [(str "BTC/USD", 4, 1)])) by decide +kernel)
  obtain ⟨s', ran, sales⟩ := (Option.any_eq_true _ _).mp found
  obtain ⟨book, nextId, made, rfl⟩ := mem_crossedFile is
  exact ⟨_, is, s', book, ran, of_decide_eq_true sales,
    sales_recorded exactEnv made .empty bidWhileLaunched ran⟩

end Threads

end MiniATS
