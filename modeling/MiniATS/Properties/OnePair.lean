import MiniATS.Proofs.Lines
import MiniATS.Proofs.Reservation
import MiniATS.Proofs.Tokens
import MiniATS.Properties.NoOrderForgotten
import MiniATS.Server.Network

/-!
# One pair, one book

The book keeps a list for every product string, while `fulfillOrder` and `processSale` look at its
two tokens only. `extractTokens` passes over the `'/'` in front of the first token and over what is
behind the second one, so a pair has one list exactly as far as its orders agree in both.
-/

namespace MiniATS

open Str CSVHandler OrderBook

variable {R : Type}

/-- The `'/'` in front of the first token of a product. -/
def inFront (product : Str) : Str := product.takeWhile (· == 47)

/-- What is behind the second token of a product. -/
def behind (product : Str) : Str :=
  (((product.dropWhile (· == 47)).dropWhile (· != 47)).drop 1).dropWhile (· != 47)

section Spelling

theorem dropWhile_token {token rest : Str} (free : (47 : UInt8) ∉ token)
    (ends : rest = [] ∨ ∃ more, rest = 47 :: more) : (token ++ rest).dropWhile (· != 47) = rest := by
  have pass : ∀ c ∈ token, (c != 47) = true := by
    intro c member
    rw [bne_iff_ne]
    rintro rfl
    exact free member
  rw [List.dropWhile_append_of_pos pass]
  rcases ends with rfl | ⟨more, rfl⟩
  · rfl
  · exact List.dropWhile_cons_of_neg (by decide)

/-- A product with two tokens is made of them and of what is around them. -/
theorem product_eq {product base quote' : Str} (pair : fields 47 product = [base, quote']) :
    product = inFront product ++ (base ++ 47 :: quote' ++ behind product) := by
  obtain ⟨proper, lead, rest, whole, ends⟩ := (fields_eq_iff (by simp)).mp pair
  obtain ⟨⟨filled, free⟩, proper'⟩ := proper_cons.mp proper
  obtain ⟨⟨-, free'⟩, -⟩ := proper_cons.mp proper'
  rw [intercalate_cons (by simp), List.intercalate_singleton, List.append_assoc] at whole
  obtain ⟨c, token, rfl⟩ := List.exists_cons_of_ne_nil filled
  have apart : c ≠ 47 := fun eq => free (eq ▸ List.mem_cons_self)
  have front : inFront product = List.replicate lead 47 := by
    unfold inFront
    rw [whole, List.takeWhile_append_of_pos (by simp), List.cons_append, List.cons_append,
      List.takeWhile_cons_of_neg (by simpa using apart), List.append_nil]
  have after : behind product = rest := by
    have first : (c :: token ++ 47 :: (quote' ++ rest)).dropWhile (· != 47) = 47 :: (quote' ++ rest) :=
      dropWhile_token free (Or.inr ⟨_, rfl⟩)
    unfold behind
    rw [whole, List.dropWhile_append_of_pos (by simp), List.cons_append, List.cons_append,
      List.dropWhile_cons_of_neg (by simpa using apart), ← List.cons_append, ← List.cons_append,
      List.append_assoc, List.cons_append (a := 47), first, List.drop_one, List.tail_cons]
    apply dropWhile_token free'
    rcases ends with rfl | rfl | ⟨more, rfl⟩
    · exact Or.inl rfl
    · exact Or.inr ⟨_, rfl⟩
    · exact Or.inr ⟨_, rfl⟩
  rw [front, after]
  exact whole

/-- Two products with the same two tokens are equal when they agree around the tokens. -/
theorem product_eq_iff {product product' base quote' : Str} (pair : fields 47 product = [base, quote'])
    (pair' : fields 47 product' = [base, quote']) :
    product = product' ↔ inFront product = inFront product' ∧ behind product = behind product' := by
  constructor
  · rintro rfl
    exact ⟨rfl, rfl⟩
  · rintro ⟨front, after⟩
    rw [product_eq pair, product_eq pair', front, after]

end Spelling

namespace OrderBookEntry

/-- The products of two orders have the same tokens. -/
def SamePair (o o' : OrderBookEntry R) : Prop := extractTokens o.product 47 = extractTokens o'.product 47

/-- The products of two orders agree around their tokens. -/
def SpelledAlike (o o' : OrderBookEntry R) : Prop :=
  inFront o.product = inFront o'.product ∧ behind o.product = behind o'.product

end OrderBookEntry

namespace Threads

section Accepting

variable [Zero R] [Add R] [Sub R] [Mul R] [Div R] [LT R] [LE R] [DecidableLT R] [DecidableLE R]
  [BEq R]

/-- The order that a step accepts: an `ASK` or a `BID` for which `fulfillOrder` returns true. -/
def acceptedBy (env : Env R) (t : Threads R × Action R) : Option (OrderBookEntry R) :=
  match t.2 with
  | .message sid now data =>
    t.1.sessions[sid]?.bind fun c =>
      let tokens := Server.tokenise data
      if Server.commandOf tokens = str "ASK" ∨ Server.commandOf tokens = str "BID" then
        (t.1.server.admitOrder env now c.username (Server.commandOf tokens) tokens).2.getRight?
      else none
  | _ => none

/-- The orders accepted in a run. -/
def accepted (env : Env R) (past : List (Threads R × Action R)) : List (OrderBookEntry R) :=
  past.filterMap (acceptedBy env)

/-- An order of the book that has been accepted in the run. -/
def Accepted (env : Env R) (past : List (Threads R × Action R)) (o : OrderBookEntry R) : Prop :=
  ∃ o' ∈ accepted env past, SameOrder o' o

/-- Accepted orders on the same tokens have the same product, and when all passes have been run and
have returned, no two of them cross. -/
structure OnePairOneBook (env : Env R) (past : List (Threads R × Action R)) (s : Threads R) : Prop where
  products : ∀ o ∈ accepted env past, ∀ o' ∈ accepted env past, o.SamePair o' → o.product = o'.product
  uncrossed : s.Enqueued → (∀ p, s.Quiet p) →
    (∀ t ∈ past, ∀ p ended, t.1.pass env t.2 = some (p, ended) → ∃ sales, ended.result = .ok sales) →
    ∀ ask ∈ s.server.orderBook.getAllOrders, ∀ bid ∈ s.server.orderBook.getAllOrders,
      Accepted env past ask → Accepted env past bid → ask.orderType = .ask → bid.orderType = .bid →
      ask.SamePair bid → ¬ Crosses ask bid

variable {env : Env R} {past : List (Threads R × Action R)} {s : Threads R} {o o' : OrderBookEntry R}

omit [Div R] [BEq R] in
theorem fulfillOrder_pair {w : Wallet R}
    {r : Bool × Wallet R} (fulfilled : w.fulfillOrder o = .ok r) :
    ∃ base quote', extractTokens o.product 47 = .ok [base, quote'] := by
  unfold Wallet.fulfillOrder at fulfilled
  cases pair : pairTokens Wallet.invalidProduct o.product with
  | error e =>
    rw [pair] at fulfilled
    cases fulfilled
  | ok tokens => exact ⟨_, _, OrderBookEntry.extractTokens_of_pairTokens pair⟩

omit [Div R] [BEq R] in
theorem reserveFunds_pair {srv : Server R} {u command : Str}
    (reserved : (srv.reserveFunds u command o).2 = .inr o') :
    ∃ base quote', extractTokens o.product 47 = .ok [base, quote'] := by
  unfold Server.reserveFunds at reserved
  split at reserved
  · cases reserved
  · split at reserved
    · cases reserved
    · cases reserved
    · rename_i fulfilled
      unfold UserStore.fulfillOrder at fulfilled
      split at fulfilled
      · cases fulfilled
      · exact fulfillOrder_pair ‹_›

omit [Div R] [BEq R] in
/-- The product of an accepted order has two tokens. -/
theorem admitOrder_pair {srv : Server R} {now : Int} {u command : Str} {tokens : List Str}
    (admitted : (srv.admitOrder env now u command tokens).2 = .inr o) :
    ∃ base quote', extractTokens o.product 47 = .ok [base, quote'] := by
  unfold Server.admitOrder at admitted
  split at admitted
  · cases admitted
  · split at admitted
    · split at admitted
      · obtain rfl := (Server.reserveFunds_book _ _ _ _).2.2 o admitted
        exact reserveFunds_pair admitted
      · cases admitted
    · cases admitted

omit [Div R] [BEq R] in
/-- The tokens of the product of an accepted order, which is no longer than its message. -/
theorem accepted_fields (received : ∀ t ∈ past, ∀ sid now data, t.2 = .message sid now data →
    data.length ≤ bufferSize) (member : o ∈ accepted env past) :
    extractTokens o.product 47 = .ok (fields 47 o.product) ∧
      ∃ base quote', fields 47 o.product = [base, quote'] := by
  obtain ⟨⟨t, a⟩, taken, accepts⟩ := List.mem_filterMap.mp member
  cases a with
  | message sid now data =>
    obtain ⟨c, -, admitted⟩ := Option.bind_eq_some_iff.mp accepts
    dsimp only at admitted
    split at admitted
    · have admitted := Sum.getRight?_eq_some_iff.mp admitted
      obtain ⟨first, token, amountStr, priceStr, tokens, -, -, product, -⟩ :=
        Server.admitOrder_terms admitted
      have listed : token ∈ getlines 32 (stripLineEnds data) := by
        rw [show getlines 32 (stripLineEnds data) = Server.tokenise data from rfl, tokens]
        simp
      have shorter : o.product.length ≤ data.length := by
        rw [product, toUpper, List.length_map]
        apply (infix_of_mem_getlines listed).length_le.trans
        rw [stripLineEnds, List.length_reverse]
        exact (List.length_dropWhile_le _ _).trans (by rw [List.length_reverse])
      have small := received _ taken sid now data rfl
      have short : o.product.length < 2 ^ 31 := by
        unfold bufferSize at small
        omega
      obtain ⟨base, quote', pair⟩ := admitOrder_pair admitted
      have all := extractTokens_eq (@narrow_of_length 47 _ short)
      exact ⟨all, base, quote', Except.ok.inj (all.symm.trans pair)⟩
    · cases admitted
  | _ => cases accepts

omit [Div R] [BEq R] in
/-- Accepted orders on one pair have one product exactly as far as they agree around the tokens. -/
theorem product_eq_of_samePair (received : ∀ t ∈ past, ∀ sid now data, t.2 = .message sid now data →
    data.length ≤ bufferSize) (first : o ∈ accepted env past) (second : o' ∈ accepted env past)
    (pair : o.SamePair o') : o.product = o'.product ↔ o.SpelledAlike o' := by
  obtain ⟨read, base, quote', eq⟩ := accepted_fields received first
  obtain ⟨read', -⟩ := accepted_fields received second
  apply product_eq_iff eq
  have same := Except.ok.inj (read.symm.trans (pair.trans read'))
  rw [← same, eq]

/-- A run keeps one book for every pair exactly when accepted orders on the same tokens agree around
them. -/
theorem one_pair_iff [AmountOrder R] (env : Env R) {filename : Str} {file : Option Str}
    {book : OrderBook R} {nextId : Nat}
    (made : OrderBook.make env filename file 1 = .ok (book, nextId)) (store : UserStore R)
    (actions : List (Action R))
    (received : ∀ sid now data, Action.message sid now data ∈ actions → data.length ≤ bufferSize)
    (ran : Machine.exec (next env) (start book nextId store) actions = some s) :
    OnePairOneBook env (Machine.trace (next env) (start book nextId store) actions) s ↔
      ∀ o ∈ accepted env (Machine.trace (next env) (start book nextId store) actions),
        ∀ o' ∈ accepted env (Machine.trace (next env) (start book nextId store) actions),
          o.SamePair o' → o.SpelledAlike o' := by
  have received' : ∀ t ∈ Machine.trace (next env) (start book nextId store) actions,
      ∀ sid now data, t.2 = .message sid now data → data.length ≤ bufferSize :=
    fun t taken sid now data is => received sid now data (is ▸ Machine.mem_trace taken)
  constructor
  · intro one o first o' second pair
    exact (product_eq_of_samePair received' first second pair).mp (one.products o first o' second pair)
  · intro alike
    have products : ∀ o ∈ accepted env (Machine.trace (next env) (start book nextId store) actions),
        ∀ o' ∈ accepted env (Machine.trace (next env) (start book nextId store) actions),
          o.SamePair o' → o.product = o'.product := fun o first o' second pair =>
      (product_eq_of_samePair received' first second pair).mpr (alike o first o' second pair)
    refine ⟨products, fun enqueued quiet returned ask inBook bid inBook' => ?_⟩
    rintro ⟨a, first, x, rfl⟩ ⟨b, second, y, rfl⟩ isAsk isBid pair
    have same : a.product = b.product := products a first b second pair
    obtain ⟨filed, every⟩ := awake_or_settled env made store actions ran
    have settled := (every a.product).resolve_left ((quiet a.product).not_awake enqueued)
    have uncrossed := settled.uncrossed fun t taken ended is => returned t taken _ ended is
    obtain ⟨p, inList⟩ := mem_getAllOrders.mp inBook
    obtain ⟨q, inList'⟩ := mem_getAllOrders.mp inBook'
    obtain rfl : a.product = p := filed.mirrored.filed p (a.withAmount x) inList
    obtain rfl : b.product = q := filed.mirrored.filed q (b.withAmount y) inList'
    exact uncrossed _ inList _ (same ▸ inList') isAsk isBid

end Accepting

/-- Alice asks and Bob bids for the product `pair`, and both passes are run. -/
def askAndBid (asked bidden : String) : List (Action ℚ) :=
  [.engine, .engine, .connect, .connect, .message 0 0 (str "REGISTER alice pw"), .advance 0,
    .message 1 0 (str "REGISTER bob pw"), .advance 1, .message 0 0 (str "DEPOSIT btc 1"),
    .message 1 0 (str "DEPOSIT usd 9"), .message 0 0 (str ("ASK " ++ asked ++ " 1 4")), .advance 0, .advance 0,
    .engine, .engine, .task 0 (StdSort.insertion _) 0,
    .message 1 0 (str ("BID " ++ bidden ++ " 1 6")), .advance 1, .advance 1, .engine, .engine,
    .task 0 (StdSort.insertion _) 0]

theorem one_pair_asked : ∃ s, Machine.exec (next exactEnv) fresh (askAndBid "/btc/usd" "/btc/usd") = some s ∧
    OnePairOneBook exactEnv (Machine.trace (next exactEnv) fresh (askAndBid "/btc/usd" "/btc/usd")) s := by
  obtain ⟨s, ran, -⟩ := (Option.any_eq_true _ _).mp
    (show (Machine.exec (next exactEnv) fresh (askAndBid "/btc/usd" "/btc/usd")).any (fun _ => true) = true by
      decide +kernel)
  refine ⟨s, ran, (one_pair_iff exactEnv (System.fresh_book exactEnv) .empty _ ?_ ran).mpr ?_⟩
  · intro sid now data sent
    simp only [askAndBid, List.mem_cons, List.not_mem_nil, Action.message.injEq, reduceCtorEq, false_or,
      or_false] at sent
    rcases sent with ⟨-, -, rfl⟩ | ⟨-, -, rfl⟩ | ⟨-, -, rfl⟩ | ⟨-, -, rfl⟩ | ⟨-, -, rfl⟩ | ⟨-, -, rfl⟩
    all_goals decide +kernel
  · have alike : ∀ o ∈ accepted exactEnv (Machine.trace (next exactEnv) fresh (askAndBid "/btc/usd" "/btc/usd")),
        o.product = str "/BTC/USD" := by
      decide +kernel
    intro o first o' second _
    unfold OrderBookEntry.SpelledAlike
    rw [alike o first, alike o' second]
    exact ⟨rfl, rfl⟩

/-- The ask for `BTC/USD` and the bid for `/BTC/USD` have the same tokens, and both passes leave them. -/
theorem two_spellings : ∃ s, Machine.exec (next exactEnv) fresh (askAndBid "btc/usd" "/btc/usd") = some s ∧
    (s.server.orderBook.orders (str "BTC/USD")).map (fun o => (o.orderType, o.price, o.amount)) = [(.ask, 4, 1)] ∧
    (s.server.orderBook.orders (str "/BTC/USD")).map (fun o => (o.orderType, o.price, o.amount)) = [(.bid, 6, 1)] ∧
    s.server.pendingProducts = [] ∧ s.tasks = [] ∧
    ¬ OnePairOneBook exactEnv (Machine.trace (next exactEnv) fresh (askAndBid "btc/usd" "/btc/usd")) s := by
  obtain ⟨s, ran, found⟩ := (Option.any_eq_true _ _).mp
    (show (Machine.exec (next exactEnv) fresh (askAndBid "btc/usd" "/btc/usd")).any (fun s =>
      decide ((s.server.orderBook.orders (str "BTC/USD")).map (fun o => (o.orderType, o.price, o.amount)) =
        [(.ask, 4, 1)]) &&
      decide ((s.server.orderBook.orders (str "/BTC/USD")).map (fun o => (o.orderType, o.price, o.amount)) =
        [(.bid, 6, 1)]) &&
      decide (s.server.pendingProducts = []) && decide (s.tasks = [])) = true by decide +kernel)
  simp only [Bool.and_eq_true, decide_eq_true_eq] at found
  obtain ⟨⟨⟨asks, bids⟩, pending⟩, tasks⟩ := found
  refine ⟨s, ran, asks, bids, pending, tasks, fun one => ?_⟩
  have accepts : (accepted exactEnv (Machine.trace (next exactEnv) fresh (askAndBid "btc/usd" "/btc/usd"))).map
      (fun o => o.product) = [str "BTC/USD", str "/BTC/USD"] := by
    decide +kernel
  obtain ⟨o, first, is⟩ := List.mem_map.mp (show str "BTC/USD" ∈ _ from accepts ▸ List.mem_cons_self)
  obtain ⟨o', second, is'⟩ := List.mem_map.mp
    (show str "/BTC/USD" ∈ _ from accepts ▸ List.mem_cons_of_mem _ List.mem_cons_self)
  have pair : o.SamePair o' := by
    unfold OrderBookEntry.SamePair
    rw [is, is']
    decide +kernel
  have same := one.products o first o' second pair
  rw [is, is'] at same
  exact absurd same (by decide +kernel)

end Threads

end MiniATS
