import MiniATS.Proofs.Decimal
import MiniATS.Properties.MistypedNumbers
import MiniATS.Properties.WholeCommands

/-!
# Getting out of the market

`ORDERS` prints the id of every open order of the user, and `CANCEL` takes an id as it is printed. In
every state of a serial run a user gets back what the open orders reserve by cancelling them one by one,
in any order. Only an order whose id does not fit a signed `int` stays: `std::stoi` throws on it.
-/

namespace MiniATS

open Str OrderBookEntry OrderBook

/-- The message that cancels an order, with the id as `ORDERS` prints it. -/
def cancelLine (id : Nat) : Str := str "CANCEL " ++ ofNat id

/-- What the server answers to it. -/
def cancelAnswer (id : Nat) : Reply :=
  .text (if id < 2 ^ 31 then str "OK Order cancelled." else str "ERR Invalid order ID")

theorem tokenise_cancelLine (id : Nat) : Server.tokenise (cancelLine id) = [str "CANCEL", ofNat id] := by
  obtain ⟨before, x, whole, digit⟩ := digits_concat id
  have kept : stripLineEnds (cancelLine id) = cancelLine id := by
    unfold stripLineEnds cancelLine
    rw [whole, ← List.append_assoc, List.reverse_append, List.reverse_singleton, List.singleton_append,
      List.dropWhile_cons_of_neg, List.reverse_cons, List.reverse_reverse]
    simp [ne_of_isDigit digit (y := 10) rfl, ne_of_isDigit digit (y := 13) rfl]
  have cut : cancelLine id = str "CANCEL" ++ 32 :: ofNat id := rfl
  have last : getlines 32 (ofNat id) = [ofNat id] := by
    rw [whole, getlines_concat before (ne_of_isDigit digit rfl), ← whole,
      List.splitOn_eq_singleton (free_of_digits (digits_ofNat id) rfl)]
  unfold Server.tokenise
  rw [kept, cut, getlines_append_cons, last]
  rfl

/-- What an order reserves is determined by the order. -/
theorem OrderBookEntry.Reserves.unique {o : OrderBookEntry ℚ} {c c' : Str} {x x' : ℚ}
    (reserves : o.Reserves c x) (reserves' : o.Reserves c' x') : c = c' ∧ x = x' := by
  obtain ⟨base, quote', tokens, side⟩ := reserves
  obtain ⟨base', quote'', tokens', side'⟩ := reserves'
  obtain ⟨rfl, rfl⟩ : base = base' ∧ quote' = quote'' := by
    rw [tokens] at tokens'
    simpa using tokens'
  rcases side with ⟨ask, rfl, rfl⟩ | ⟨bid, rfl, rfl⟩ <;>
    rcases side' with ⟨ask', rfl, rfl⟩ | ⟨bid', rfl, rfl⟩
  · exact ⟨rfl, rfl⟩
  · rw [ask] at bid'
    cases bid'
  · rw [bid] at ask'
    cases ask'
  · exact ⟨rfl, rfl⟩

namespace Server

variable {srv : Server ℚ} {u : Str} {o : OrderBookEntry ℚ}

/-- `CANCEL` finds an order of the user by the id that is printed. -/
theorem findOwnOrder_cancelLine (indexed : srv.orderBook.Indexed) (loggedIn : u ≠ []) (user : u ≠ defaultUser)
    (listed : o ∈ srv.orderBook.getOrdersForUser u) :
    srv.findOwnOrder u (tokenise (cancelLine o.id)) =
      if o.id < 2 ^ 31 then .inr o else .inl (.text (str "ERR Invalid order ID")) := by
  unfold findOwnOrder
  rw [if_neg loggedIn, tokenise_cancelLine]
  dsimp only
  rw [stoi_ofNat]
  by_cases small : o.id < 2 ^ 31
  · simp only [if_pos small]
    have id : toSizeT (o.id : Int) = o.id := CSVHandler.toSizeT_natCast (by omega)
    cases found : (srv.orderBook.getOrdersForUser u).find? (fun o' => toSizeT o.id == o'.id) with
    | none => exact absurd (List.find?_eq_none.mp found o listed) (by simp [id])
    | some o' =>
      have same : o.id = o'.id := by simpa [id] using List.find?_some found
      have inBook := (mem_getOrdersForUser indexed.toMirrored user).mp listed
      have inBook' := (mem_getOrdersForUser indexed.toMirrored user).mp (List.mem_of_find?_eq_some found)
      rw [eq_of_id indexed.distinct inBook.1 inBook'.1 same]
  · simp only [if_neg small]

end Server

namespace System

variable {env : Env ℚ} {s s' s'' : System ℚ} {u : Str} {orders orders' : List (OrderBookEntry ℚ)}

/-- From `s` to `s'` these open orders of the user have been taken out of the book, and what they
reserved has become available. -/
structure Released (s s' : System ℚ) (u : Str) (orders : List (OrderBookEntry ℚ)) : Prop where
  book : s.server.orderBook.getAllOrders.Perm (orders ++ s'.server.orderBook.getAllOrders)
  own : s'.server.orderBook.getOrdersForUser u =
    (s.server.orderBook.getOrdersForUser u).filter (fun e => e.id ∉ orders.map (fun o => o.id))
  others : ∀ v, v ≠ u → s'.server.orderBook.getOrdersForUser v = s.server.orderBook.getOrdersForUser v
  sales : s'.server.orderBook.finalizedSales = s.server.orderBook.finalizedSales
  available : ∀ v c, s'.server.userStore.available v c = s.server.userStore.available v c + claims orders v c
  locked : ∀ v c, s'.server.userStore.locked v c = s.server.userStore.locked v c - claims orders v c
  users : ∀ v, s'.server.userStore.passwordOf v = s.server.userStore.passwordOf v
  sessions : s'.sessions = s.sessions

namespace Released

theorem refl (s : System ℚ) (u : Str) : Released s s u [] where
  book := .refl _
  own := by simp
  others := fun _ _ => rfl
  sales := rfl
  available := fun v c => by simp
  locked := fun v c => by simp
  users := fun _ => rfl
  sessions := rfl

theorem trans (first : Released s s' u orders) (second : Released s' s'' u orders') :
    Released s s'' u (orders ++ orders') where
  book := by
    rw [List.append_assoc]
    exact first.book.trans (second.book.append_left orders)
  own := by
    rw [second.own, first.own, List.filter_filter]
    apply List.filter_congr
    intro e _
    simp only [List.map_append, List.mem_append, not_or, Bool.decide_and]
    exact Bool.and_comm _ _
  others := fun v other => (second.others v other).trans (first.others v other)
  sales := second.sales.trans first.sales
  available := fun v c => by
    rw [second.available, first.available, claims_append, Pi.add_apply, Pi.add_apply, add_assoc]
  locked := fun v c => by
    rw [second.locked, first.locked, claims_append, Pi.add_apply, Pi.add_apply, sub_sub]
  users := fun v => (second.users v).trans (first.users v)
  sessions := second.sessions.trans first.sessions

end Released

/-- The orders among these that `CANCEL` can name. -/
def named (orders : List (OrderBookEntry ℚ)) : List (OrderBookEntry ℚ) :=
  orders.filter (fun o => o.id < 2 ^ 31)

theorem named_singleton (o : OrderBookEntry ℚ) : named [o] = if o.id < 2 ^ 31 then [o] else [] := by
  unfold named
  rw [List.filter_cons, List.filter_nil]
  simp only [decide_eq_true_eq]

theorem named_cons (o : OrderBookEntry ℚ) (orders : List (OrderBookEntry ℚ)) :
    named (o :: orders) = named [o] ++ named orders := by
  unfold named
  rw [← List.filter_append]
  rfl

/-- The message of the session that cancels an order. -/
def cancelOf (sid : Nat) (clock : Nat → Int) (o : OrderBookEntry ℚ) : Event ℚ :=
  .message sid (clock o.id) (cancelLine o.id)

/-- The replies of a run, in order. -/
def answers (env : Env ℚ) (s : System ℚ) : List (Event ℚ) → List Reply
  | [] => []
  | .message sid now data :: events =>
    replyTo env s sid now data :: answers env (step env s (.message sid now data)) events
  | .pass std now product :: events => answers env (step env s (.pass std now product)) events

section Cancel

variable {sid : Nat} {o : OrderBookEntry ℚ}

theorem message_cancelLine (env : Env ℚ) (s : System ℚ) (sid : Nat) (now : Int) (id : Nat) :
    let r := s.server.handleCancel (s.sessions sid) (Server.tokenise (cancelLine id))
    replyTo env s sid now (cancelLine id) = r.2 ∧
      step env s (.message sid now (cancelLine id)) = ⟨r.1, s.sessions⟩ := by
  have is : Server.commandOf (Server.tokenise (cancelLine id)) = str "CANCEL" := by
    rw [tokenise_cancelLine]
    rfl
  dsimp only [replyTo, step]
  rw [Server.handleMessage_cancel is, Function.update_eq_self]
  exact ⟨rfl, rfl⟩

/-- The answer to the cancelling of an open order of the session's user. -/
theorem cancel_answer (secured : Secured s) (loggedIn : s.sessions sid ≠ [])
    (listed : o ∈ s.server.orderBook.getOrdersForUser (s.sessions sid)) :
    (s.server.handleCancel (s.sessions sid) (Server.tokenise (cancelLine o.id))).2 = cancelAnswer o.id := by
  obtain ⟨user, known⟩ := (secured.sessions sid).known loggedIn
  unfold Server.handleCancel cancelAnswer
  rw [Server.findOwnOrder_cancelLine secured.sane.indexed loggedIn user listed]
  by_cases small : o.id < 2 ^ 31
  · obtain ⟨inBook, owner⟩ := (mem_getOrdersForUser secured.sane.indexed.toMirrored user).mp listed
    rw [← owner] at user known ⊢
    obtain ⟨c, token⟩ := Option.isSome_iff_exists.mp (secured.sane.admitted o inBook user).token
    obtain ⟨store, ran, -⟩ := Server.cancelFunds_of_token known token
    obtain ⟨book', removed, -⟩ := removeOrderById_of_mem secured.sane.indexed inBook user
    simp only [if_pos small, ran, Server.removeOrderById, removed]
  · simp only [if_neg small]

variable (env) in
/-- Cancelling an open order of the session's user releases it, when `CANCEL` can name it. -/
theorem cancel_released (secured : Secured s) (loggedIn : s.sessions sid ≠ [])
    (listed : o ∈ s.server.orderBook.getOrdersForUser (s.sessions sid)) (clock : Nat → Int) :
    Released s (step env s (cancelOf sid clock o)) (s.sessions sid) (named [o]) := by
  obtain ⟨user, known⟩ := (secured.sessions sid).known loggedIn
  obtain ⟨err, ok⟩ := handleCancel_whole secured sid (Server.tokenise (cancelLine o.id))
  have answer := cancel_answer secured loggedIn listed
  unfold cancelOf
  rw [(message_cancelLine env s sid (clock o.id) o.id).2]
  unfold cancelAnswer at answer
  rw [named_singleton]
  by_cases small : o.id < 2 ^ 31
  · rw [if_pos small] at answer
    obtain ⟨o', c, x, gone⟩ := ok (by rw [answer]; rfl)
    have same : o'.id = o.id := by
      obtain ⟨first, idStr, id, tokens, read, is⟩ := gone.parsed
      rw [tokenise_cancelLine] at tokens
      cases tokens
      rw [stoi_ofNat, if_pos small] at read
      cases read
      rw [is]
      exact CSVHandler.toSizeT_natCast (by omega)
    have mirrored := secured.sane.indexed.toMirrored
    have inBook := (mem_getOrdersForUser mirrored user).mp listed
    obtain rfl := eq_of_id secured.sane.indexed.distinct
      ((mem_getOrdersForUser mirrored user).mp gone.listed).1 inBook.1 same
    obtain ⟨d, token⟩ := Option.isSome_iff_exists.mp
      (secured.sane.admitted o' inBook.1 (by rw [inBook.2]; exact user)).token
    obtain ⟨rfl, rfl⟩ := gone.reserves.unique (reserves_of_token token)
    have moves : ∀ v e, claims [o'] v e = if v = s.sessions sid ∧ e = c then o'.need else 0 := by
      intro v e
      rw [claims_cons, claims_nil, add_zero, claim_apply, inBook.2, token]
      simp only [Option.some.injEq, eq_comm]
    rw [if_pos small]
    refine ⟨gone.book.perm, ?_, fun v other => ?_, gone.book.sales, fun v e => ?_, fun v e => ?_,
      gone.users, rfl⟩
    · simpa using gone.orders (s.sessions sid)
    · exact (gone.orders v).trans (if_neg other)
    · rw [moves]
      exact gone.available v e
    · rw [moves]
      exact gone.locked v e
  · rw [if_neg small] at answer
    rw [err (by rw [answer]; rfl), if_neg small]
    exact .refl s _

variable (env) in
theorem cancels_released (secured : Secured s) (loggedIn : s.sessions sid ≠ [])
    (listed : ∀ o ∈ orders, o ∈ s.server.orderBook.getOrdersForUser (s.sessions sid))
    (apart : (orders.map (fun o => o.id)).Nodup) (clock : Nat → Int) :
    answers env s (orders.map (cancelOf sid clock)) = orders.map (fun o => cancelAnswer o.id) ∧
      Released s (run env s (orders.map (cancelOf sid clock))) (s.sessions sid) (named orders) := by
  induction orders generalizing s with
  | nil => exact ⟨rfl, .refl s _⟩
  | cons o orders ih =>
    have released := cancel_released env secured loggedIn (listed o List.mem_cons_self) clock
    obtain ⟨new, apart⟩ := List.nodup_cons.mp apart
    have later : ∀ o' ∈ orders, o' ∈ (step env s (cancelOf sid clock o)).server.orderBook.getOrdersForUser
        ((step env s (cancelOf sid clock o)).sessions sid) := by
      intro o' member
      rw [released.sessions, released.own]
      refine List.mem_filter.mpr ⟨listed o' (List.mem_cons_of_mem _ member), ?_⟩
      have other : o'.id ≠ o.id := fun same => new (List.mem_map.mpr ⟨o', member, same⟩)
      have stays : o'.id ∉ (named [o]).map (fun o => o.id) := by
        intro here
        obtain ⟨o'', inNamed, same⟩ := List.mem_map.mp here
        obtain rfl := List.mem_singleton.mp (List.mem_of_mem_filter inNamed)
        exact other same.symm
      exact decide_eq_true stays
    obtain ⟨replies, rest⟩ := ih (secured.step (cancelOf sid clock o))
      (by rw [released.sessions]; exact loggedIn) later apart
    rw [released.sessions] at rest
    refine ⟨?_, ?_⟩
    · have first : replyTo env s sid (clock o.id) (cancelLine o.id) = cancelAnswer o.id :=
        (message_cancelLine env s sid (clock o.id) o.id).1.trans
          (cancel_answer secured loggedIn (listed o List.mem_cons_self))
      rw [List.map_cons, List.map_cons, ← replies, ← first]
      rfl
    · rw [named_cons]
      exact released.trans rest

/-- When nothing of the user's is left, all that the user's orders reserved has been released. -/
theorem reserved_of_released (released : Released s s' u orders) (secured' : Secured s') (user : u ≠ defaultUser)
    (none' : s'.server.orderBook.getOrdersForUser u = []) (c : Str) :
    claims orders u c = s.server.orderBook.reserved u c := by
  have rest : ∀ o ∈ s'.server.orderBook.getAllOrders, o.username ≠ u := by
    intro o inBook owner
    have listed := (mem_getOrdersForUser secured'.sane.indexed.toMirrored user).mpr ⟨inBook, owner⟩
    rw [none'] at listed
    exact absurd listed List.not_mem_nil
  rw [reserved_eq_claims, claims_perm released.book, claims_append, Pi.add_apply, Pi.add_apply,
    claims_of_ne rest, add_zero]

end Cancel

/-- In every state of a serial run a session that cancels some of its user's open orders, each once and in
any order, is answered `OK` for each whose id fits a signed `int`; these leave the book, what they reserved
becomes available, and nothing else changes. When they are all of them, the user has no open order left
and gets back all that was reserved. -/
theorem cancels_close_out (env : Env ℚ) {filename : Str} {file : Option Str} {book : OrderBook ℚ}
    {nextId : Nat} (made : OrderBook.make env filename file 1 = .ok (book, nextId))
    (store : UserStore ℚ) (balances : ∀ u c, 0 ≤ store.available u c ∧ 0 ≤ store.locked u c)
    (events : List (Event ℚ)) (sid : Nat) (clock : Nat → Int) (orders : List (OrderBookEntry ℚ)) :
    let s := run env (start book nextId store) events
    let u := s.sessions sid
    let s' := run env s (orders.map (cancelOf sid clock))
    u ≠ [] → (∀ o ∈ orders, o ∈ s.server.orderBook.getOrdersForUser u) →
      (orders.map (fun o => o.id)).Nodup →
    answers env s (orders.map (cancelOf sid clock)) = orders.map (fun o => cancelAnswer o.id) ∧
      Released s s' u (named orders) ∧
      ((∀ o ∈ s.server.orderBook.getOrdersForUser u, o.id < 2 ^ 31 ∧ o ∈ orders) →
        s'.server.orderBook.getOrdersForUser u = [] ∧ ∀ c,
          s'.server.userStore.available u c =
              s.server.userStore.available u c + s.server.orderBook.reserved u c ∧
            s'.server.userStore.locked u c =
              s.server.userStore.locked u c - s.server.orderBook.reserved u c) := by
  have secured : Secured (run env (start book nextId store) events) :=
    (Secured.start (make_loaded made) fun u _ c => (balances u c).2).run events
  generalize run env (start book nextId store) events = s at secured
  intro s u s' loggedIn listed apart
  obtain ⟨replies, released⟩ := cancels_released env secured loggedIn listed apart clock
  refine ⟨replies, released, fun all => ?_⟩
  have none' : s'.server.orderBook.getOrdersForUser u = [] := by
    rw [released.own]
    refine List.filter_eq_nil_iff.mpr fun o member => ?_
    have inNamed : o ∈ named orders := List.mem_filter.mpr ⟨(all o member).2, decide_eq_true (all o member).1⟩
    simp only [decide_eq_true_eq, not_not]
    exact List.mem_map.mpr ⟨o, inNamed, rfl⟩
  have user := ((secured.sessions sid).known loggedIn).1
  refine ⟨none', fun c => ?_⟩
  have whole := reserved_of_released released (secured.run _) user none' c
  exact ⟨by rw [released.available, whole], by rw [released.locked, whole]⟩

/-- Alice offers two of three bitcoins in two orders. -/
def twoAsks : List (Event ℚ) :=
  [.line 0 "REGISTER alice pw", .line 0 "DEPOSIT btc 3", .line 0 "ASK btc/usd 1 4", .line 0 "ASK btc/usd 1 5"]

/-- She takes both back, the later one first. -/
theorem cancels_close_out_alice :
    let s := run exactEnv fresh twoAsks
    let orders := (s.server.orderBook.getOrdersForUser (str "alice")).reverse
    let s' := run exactEnv s (orders.map (cancelOf 0 fun _ => 0))
    s'.server.orderBook.getOrdersForUser (str "alice") = [] ∧
      s'.server.userStore.available (str "alice") (str "BTC") = 3 := by
  intro s orders s'
  obtain ⟨-, -, closed⟩ := cancels_close_out exactEnv (fresh_book exactEnv) .empty
    (fun _ _ => ⟨le_rfl, le_rfl⟩) twoAsks 0 (fun _ => 0) orders (by decide +kernel) (by decide +kernel)
    (by decide +kernel)
  obtain ⟨none', released⟩ := closed (by decide +kernel)
  exact ⟨none', (released (str "BTC")).1.trans (by decide +kernel)⟩

end System

end MiniATS
