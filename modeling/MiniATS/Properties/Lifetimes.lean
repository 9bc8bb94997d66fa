import MiniATS.Properties.NoOrderForgotten
import MiniATS.Properties.PassTrades

/-!
# What becomes of an order

An order enters the book when it is loaded or when a client's thread inserts it, loses amounts to
the trades of the passes, and leaves the book when nothing is left of it or when its owner cancels
it. Over any interleaving the accounts agree: the ids of all orders there ever were are distinct,
every trade is between two of them, and what an order had when it was placed is what the trades of
all passes so far took from it, also of those that ended by an exception, and what it has left.
-/

namespace MiniATS

open OrderBook

namespace Threads

/-- The order that a step inserts. -/
def placedBy (s : Threads ℚ) : Action ℚ → Option (OrderBookEntry ℚ)
  | .advance sid => (s.sessions[sid]?).bind Session.inflight
  | _ => none

/-- The trades of the pass that a step runs. -/
def tradesOf (env : Env ℚ) (s : Threads ℚ) (a : Action ℚ) : List (Trade ℚ) :=
  match s.pass env a with
  | none => []
  | some (_, ended) => ended.trades.map Prod.fst

/-- The orders of the loaded book and those inserted since. -/
def placed (book : OrderBook ℚ) (past : List (Threads ℚ × Action ℚ)) : List (OrderBookEntry ℚ) :=
  book.getAllOrders ++ past.filterMap (fun t => t.1.placedBy t.2)

/-- The trades of all passes. -/
def trades (env : Env ℚ) (past : List (Threads ℚ × Action ℚ)) : List (Trade ℚ) :=
  past.flatMap (fun t => t.1.tradesOf env t.2)

/-- A `CANCEL` of an order by the user it belongs to has come to `removeOrderById`. -/
def Cancelled (past : List (Threads ℚ × Action ℚ)) (o : OrderBookEntry ℚ) : Prop :=
  ∃ s sid c, (s, Action.advance sid) ∈ past ∧ s.sessions[sid]? = some c ∧
    c.phase = .removing o.id ∧ c.username = o.username

/-- The accounts of all orders there ever were agree with the book. -/
structure Accounted (loaded : OrderBook ℚ) (env : Env ℚ) (past : List (Threads ℚ × Action ℚ))
    (s : Threads ℚ) : Prop where
  distinct : ((placed loaded past).map (fun o => o.id)).Nodup
  between : ∀ t ∈ trades env past, Between (placed loaded past) t
  standing : ∀ o' ∈ s.server.orderBook.getAllOrders, ∃ o ∈ placed loaded past,
    LeftBy (trades env past) o o'
  fate : ∀ o ∈ placed loaded past, ∃ o', LeftBy (trades env past) o o' ∧
    (o' ∈ s.server.orderBook.getAllOrders ∨ o'.amount ≤ 0 ∨ Cancelled past o)

/-- The accounts together with what keeps the ids apart. -/
structure Booked (loaded : OrderBook ℚ) (env : Env ℚ) (past : List (Threads ℚ × Action ℚ))
    (s : Threads ℚ) : Prop extends Accounted loaded env past s where
  filed : s.Filed
  numbered : ∀ o ∈ placed loaded past, o.id < s.server.nextId
  apart : ∀ o ∈ s.inflight, ∀ o' ∈ placed loaded past, o'.id ≠ o.id

section Steps

variable {loaded : OrderBook ℚ} {env : Env ℚ} {past : List (Threads ℚ × Action ℚ)}
  {s s' : Threads ℚ} {a : Action ℚ}

theorem placed_append (past : List (Threads ℚ × Action ℚ)) (s : Threads ℚ) (a : Action ℚ) :
    placed loaded (past ++ [(s, a)]) = placed loaded past ++ (s.placedBy a).toList := by
  unfold placed
  rw [List.filterMap_append, List.append_assoc]
  cases placed : s.placedBy a <;> simp [placed]

theorem trades_append (past : List (Threads ℚ × Action ℚ)) (s : Threads ℚ) (a : Action ℚ) :
    trades env (past ++ [(s, a)]) = trades env past ++ s.tradesOf env a := by
  simp [trades]

theorem Cancelled.mono {o : OrderBookEntry ℚ} (cancelled : Cancelled past o) (t : Threads ℚ × Action ℚ) :
    Cancelled (past ++ [t]) o := by
  obtain ⟨s, sid, c, member, rest⟩ := cancelled
  exact ⟨s, sid, c, List.mem_append_left _ member, rest⟩

theorem Cancelled.username_id {o o' : OrderBookEntry ℚ} (cancelled : Cancelled past o)
    (id : o'.id = o.id) (username : o'.username = o.username) : Cancelled past o' := by
  obtain ⟨s, sid, c, member, found, phase, user⟩ := cancelled
  exact ⟨s, sid, c, member, found, phase.trans (by rw [id]), user.trans username.symm⟩

/-- The counter only goes up, and an order that comes into flight has an id that had not been given. -/
theorem flights_step (taken : Taken env s a s') : s.server.nextId ≤ s'.server.nextId ∧
    ∀ o ∈ s'.inflight, o ∈ s.inflight ∨ s.server.nextId ≤ o.id := by
  have one : ∀ {srv : Server ℚ} {before after : List (Session ℚ)} {c c' : Session ℚ},
      s.sessions = before ++ c :: after → (∀ o ∈ c'.inflight, s.server.nextId ≤ o.id) →
      ∀ o ∈ Threads.inflight { s with server := srv, sessions := before ++ c' :: after },
        o ∈ s.inflight ∨ s.server.nextId ≤ o.id := by
    intro srv before after c c' sessions new o member
    have perm := inflight_perm (s := { s with server := srv, sessions := before ++ c' :: after }) rfl
    rcases List.mem_append.mp (perm.mem_iff.mp member) with own | others
    · exact Or.inr (new o (Option.mem_toList.mp own))
    · exact Or.inl ((inflight_perm sessions).mem_iff.mpr (List.mem_append_right _ others))
  cases taken with
  | connect =>
    refine ⟨le_rfl, fun o member => Or.inl ?_⟩
    simpa [Threads.inflight, Session.connected, Session.inflight] using member
  | @message sid now data c before after found sessions idle =>
    rcases (Session.receive_book env now s.server c data).ids with ⟨none', later⟩ | ⟨o, flies, id, next⟩
    · exact ⟨later, one sessions fun o own => by rw [none'] at own; cases own⟩
    · refine ⟨next ▸ Nat.le_succ _, one sessions fun o' own => ?_⟩
      rw [flies] at own
      obtain rfl := Option.some.inj own
      exact id.ge
  | @advance sid c c' srv before after found sessions moved =>
    have landed : c'.inflight = none → ∀ o ∈ c'.inflight, s.server.nextId ≤ o.id := by
      intro none' o own
      rw [none'] at own
      cases own
    cases Session.advanced_book (Session.advanced_of_advance moved) with
    | kept book pending nextId flew lands => exact ⟨nextId.ge, one sessions (landed lands)⟩
    | inserted phase server session =>
      exact ⟨server ▸ le_rfl, one sessions (landed (by rw [session]; rfl))⟩
    | started phase server lands =>
      refine ⟨?_, one sessions (landed lands)⟩
      rw [server]
      exact (Server.startMatchingProduct_nextId _ _).ge
    | removed phase server lands => exact ⟨server ▸ le_rfl, one sessions (landed lands)⟩
  | task found tasks => exact ⟨matchAsksToBids_nextId _ _ _ _ _ _, fun _ => Or.inl⟩
  | _ => exact ⟨le_rfl, fun _ => Or.inl⟩

/-- A step that places and trades nothing. -/
theorem Booked.quiet (booked : Booked loaded env past s) (taken : Taken env s a s')
    (places : s.placedBy a = none) (passes : s.tradesOf env a = [])
    (fewer : s'.server.orderBook.getAllOrders ⊆ s.server.orderBook.getAllOrders)
    (gone : ∀ o ∈ s.server.orderBook.getAllOrders, o ∈ s'.server.orderBook.getAllOrders ∨
      Cancelled (past ++ [(s, a)]) o) :
    Booked loaded env (past ++ [(s, a)]) s' := by
  obtain ⟨later, flights⟩ := flights_step taken
  have samePlaced : placed loaded (past ++ [(s, a)]) = placed loaded past := by
    rw [placed_append, places, Option.toList_none, List.append_nil]
  have sameTrades : trades env (past ++ [(s, a)]) = trades env past := by
    rw [trades_append, passes, List.append_nil]
  refine ⟨⟨?_, ?_, ?_, ?_⟩, booked.filed.step taken, ?_, ?_⟩
  · rw [samePlaced]
    exact booked.distinct
  · rw [samePlaced, sameTrades]
    exact booked.between
  · rw [samePlaced, sameTrades]
    exact fun o' member => booked.standing o' (fewer member)
  · rw [samePlaced, sameTrades]
    intro o member
    obtain ⟨o', left, stands | empty | cancelled⟩ := booked.fate o member
    · refine ⟨o', left, ?_⟩
      rcases gone o' stands with stays | cancelled
      · exact Or.inl stays
      · exact Or.inr (Or.inr (cancelled.username_id left.shrunk.id.symm left.shrunk.username.symm))
    · exact ⟨o', left, Or.inr (Or.inl empty)⟩
    · exact ⟨o', left, Or.inr (Or.inr (cancelled.mono _))⟩
  · rw [samePlaced]
    exact fun o member => (booked.numbered o member).trans_le later
  · rw [samePlaced]
    intro o member o' member'
    rcases flights o member with old | new
    · exact booked.apart o old o' member'
    · exact (booked.numbered o' member' |>.trans_le new).ne

/-- The order that had not been traded is not touched by the trades so far. -/
theorem Booked.untraded (booked : Booked loaded env past s) {o : OrderBookEntry ℚ}
    (fresh : ∀ o' ∈ placed loaded past, o'.id ≠ o.id) : filledBy (trades env past) o = 0 := by
  apply filledBy_of_others
  · intro t member
    obtain ⟨bid, inPlaced, -, -, -, -, -, -, ⟨x, same⟩, -⟩ := (booked.between t member).parties
    rw [same]
    exact fresh bid inPlaced
  · intro t member
    obtain ⟨-, -, ask, inPlaced, -, -, -, -, -, ⟨x, same⟩⟩ := (booked.between t member).parties
    rw [same]
    exact fresh ask inPlaced

/-- A step that inserts an order. -/
theorem Booked.insert (booked : Booked loaded env past s) (taken : Taken env s a s') {o : OrderBookEntry ℚ}
    (places : s.placedBy a = some o) (passes : s.tradesOf env a = [])
    (book : s'.server.orderBook.getAllOrders.Perm (o :: s.server.orderBook.getAllOrders))
    (later : s'.server.nextId = s.server.nextId) (flights : s.inflight.Perm (o :: s'.inflight)) :
    Booked loaded env (past ++ [(s, a)]) s' := by
  have more : placed loaded (past ++ [(s, a)]) = placed loaded past ++ [o] := by
    rw [placed_append, places]
    rfl
  have sameTrades : trades env (past ++ [(s, a)]) = trades env past := by
    rw [trades_append, passes, List.append_nil]
  have flew : o ∈ s.inflight := flights.mem_iff.mpr List.mem_cons_self
  have fresh := booked.apart o flew
  have own : LeftBy (trades env past) o o := .refl_of_zero (booked.untraded fresh)
  refine ⟨⟨?_, ?_, ?_, ?_⟩, booked.filed.step taken, ?_, ?_⟩
  · rw [more, List.map_append, List.nodup_append]
    refine ⟨booked.distinct, List.nodup_singleton _, ?_⟩
    rintro i member j last same
    obtain ⟨o', inPlaced, rfl⟩ := List.mem_map.mp member
    obtain rfl := List.mem_singleton.mp last
    exact fresh o' inPlaced same
  · rw [more, sameTrades]
    intro t member
    exact (booked.between t member).of_same fun o' inPlaced =>
      ⟨o', List.mem_append_left _ inPlaced, o'.amount, rfl⟩
  · rw [more, sameTrades]
    intro o' member
    rcases List.mem_cons.mp (book.mem_iff.mp member) with rfl | before
    · exact ⟨o', by simp, own⟩
    · obtain ⟨o'', inPlaced, left⟩ := booked.standing o' before
      exact ⟨o'', List.mem_append_left _ inPlaced, left⟩
  · rw [more, sameTrades]
    intro o' member
    rcases List.mem_append.mp member with before | last
    · obtain ⟨o'', left, stands | empty | cancelled⟩ := booked.fate o' before
      · exact ⟨o'', left, Or.inl (book.mem_iff.mpr (List.mem_cons_of_mem _ stands))⟩
      · exact ⟨o'', left, Or.inr (Or.inl empty)⟩
      · exact ⟨o'', left, Or.inr (Or.inr (cancelled.mono _))⟩
    · obtain rfl := List.mem_singleton.mp last
      exact ⟨o', own, Or.inl (book.mem_iff.mpr List.mem_cons_self)⟩
  · rw [more, later]
    intro o' member
    rcases List.mem_append.mp member with before | last
    · exact booked.numbered o' before
    · obtain rfl := List.mem_singleton.mp last
      exact booked.filed.numbered o' flew
  · rw [more]
    intro o' member o'' member'
    have old : o' ∈ s.inflight := flights.mem_iff.mpr (List.mem_cons_of_mem _ member)
    rcases List.mem_append.mp member' with before | last
    · exact booked.apart o' old o'' before
    · obtain rfl := List.mem_singleton.mp last
      have apart := (flights.map (fun o => o.id)).nodup_iff.mp booked.filed.distinct
      rw [List.map_cons, List.nodup_cons] at apart
      exact fun same => apart.1 (List.mem_map.mpr ⟨o', member, same.symm⟩)

/-- A step that runs a pass. -/
theorem Booked.pass (booked : Booked loaded env past s) (taken : Taken env s a s') (std : StdSort (EntryPtr ℚ))
    (now : Int) (product : Str) (places : s.placedBy a = none)
    (passes : s.tradesOf env a = passTrades env std now s.server product)
    (server : s'.server = (s.server.matchProduct env std now product).1) (flights : s'.inflight = s.inflight) :
    Booked loaded env (past ++ [(s, a)]) s' := by
  have mirrored := booked.filed.mirrored
  have samePlaced : placed loaded (past ++ [(s, a)]) = placed loaded past := by
    rw [placed_append, places, Option.toList_none, List.append_nil]
  refine ⟨⟨?_, ?_, ?_, ?_⟩, booked.filed.step taken, ?_, ?_⟩
  · rw [samePlaced]
    exact booked.distinct
  · rw [samePlaced, trades_append, passes]
    intro t member
    rcases List.mem_append.mp member with before | new
    · exact booked.between t before
    · apply (passTrades_between mirrored t new).of_same
      intro o inProduct
      obtain ⟨o', inPlaced, left⟩ := booked.standing o (mem_getAllOrders.mpr ⟨product, inProduct⟩)
      obtain ⟨x, same, -⟩ := left.shrunk
      exact ⟨o', inPlaced, x, same⟩
  · rw [samePlaced, trades_append, passes, server]
    intro o'' member
    obtain ⟨o', inBook, later⟩ := matchProduct_comes mirrored o'' member
    obtain ⟨o, inPlaced, earlier⟩ := booked.standing o' inBook
    exact ⟨o, inPlaced, earlier.trans later⟩
  · rw [samePlaced, trades_append, passes, server]
    intro o member
    by_cases stands : ∃ o' ∈ s.server.orderBook.getAllOrders, o'.id = o.id
    · obtain ⟨o', inBook, same⟩ := stands
      obtain ⟨was, inPlaced, earlier⟩ := booked.standing o' inBook
      obtain rfl : was = o :=
        List.inj_on_of_nodup_map booked.distinct inPlaced member (earlier.shrunk.id.symm.trans same)
      obtain ⟨o'', later, remains⟩ := matchProduct_leaves env std now product
        mirrored o' inBook
      exact ⟨o'', earlier.trans later, remains.imp_right Or.inl⟩
    · obtain ⟨o', left, remains⟩ := booked.fate o member
      have id : o'.id = o.id := left.shrunk.id
      have untouched : LeftBy (passTrades env std now s.server product) o' o' :=
        .refl_of_zero (filledBy_passTrades_absent mirrored fun o'' inProduct same =>
          stands ⟨o'', mem_getAllOrders.mpr ⟨product, inProduct⟩, same.trans id⟩)
      refine ⟨o', left.trans untouched, Or.inr ?_⟩
      rcases remains with inBook | empty | cancelled
      · exact absurd ⟨o', inBook, id⟩ stands
      · exact Or.inl empty
      · exact Or.inr (cancelled.mono _)
  · rw [samePlaced, server]
    exact fun o member => (booked.numbered o member).trans_le (matchAsksToBids_nextId _ _ _ _ _ _)
  · rw [samePlaced, flights]
    exact booked.apart

/-- An order that a removal takes out is the user's with the id. -/
theorem stays_or_removed {book : OrderBook ℚ} (mirrored : book.Mirrored) (u : Str) (id : Nat)
    {o : OrderBookEntry ℚ} (member : o ∈ book.getAllOrders) :
    o ∈ (book.removeOrderById u id).2.getAllOrders ∨ o.id = id ∧ o.username = u := by
  by_cases listed : id ∈ book.userOrders.get u []
  · obtain ⟨o', inBook, rfl, rfl⟩ := mirrored.refers u id listed
    obtain ⟨book', removed, perm, -⟩ := removeOrderById_of_listed mirrored inBook listed
    rw [removed]
    rcases List.mem_cons.mp (perm.mem_iff.mp member) with rfl | stays
    · exact Or.inr ⟨rfl, rfl⟩
    · exact Or.inl stays
  · rw [removeOrderById_of_not_listed listed]
    exact Or.inl member

theorem Booked.step (booked : Booked loaded env past s) (taken : Taken env s a s') :
    Booked loaded env (past ++ [(s, a)]) s' := by
  -- a step that leaves the book as it is
  have kept : s.placedBy a = none → s.tradesOf env a = [] →
      s'.server.orderBook = s.server.orderBook → Booked loaded env (past ++ [(s, a)]) s' :=
    fun places passes book => booked.quiet taken places passes (fun o member => book ▸ member)
      (fun o member => Or.inl (book.symm ▸ member))
  cases id taken with
  | @message sid now data c before after found sessions idle =>
    exact kept rfl rfl (Session.receive_book env now s.server c data).book
  | @advance sid c c' srv before after found sessions moved =>
    have places : s.placedBy (.advance sid) = c.inflight := by
      simp only [placedBy, found]
      rfl
    cases Session.advanced_book (Session.advanced_of_advance moved) with
    | kept book pending nextId flew lands => exact kept (places.trans flew) rfl book
    | @inserted o phase server session =>
      have flew : c.inflight = some o := by
        unfold Session.inflight
        rw [phase]
      have old := inflight_perm sessions
      have new := inflight_perm (s := { s with server := srv, sessions := before ++ c' :: after }) rfl
      rw [flew] at old
      rw [show c'.inflight = none by rw [session]; rfl] at new
      subst server
      exact booked.insert taken (places.trans flew) rfl (insertOrder_perm _ o) rfl
        (old.trans (new.symm.cons o))
    | started phase server lands =>
      refine kept (places.trans (Session.inflight_of_phase (by simp [phase]))) rfl ?_
      rw [server]
      exact Server.startMatchingProduct_orderBook _ _
    | @removed id phase server lands =>
      subst server
      refine booked.quiet taken (places.trans (Session.inflight_of_phase (by simp [phase]))) rfl
        (removeOrderById_subset booked.filed.mirrored _ id) ?_
      intro o member
      apply (stays_or_removed booked.filed.mirrored c.username id member).imp_right
      rintro ⟨rfl, user⟩
      exact ⟨s, sid, c, by simp, found, phase, user.symm⟩
  | @task n std now product before after found tasks =>
    refine booked.pass taken std now product rfl ?_ rfl rfl
    simp only [tradesOf, Threads.pass, found, Option.map_some]
    rfl
  | _ => exact kept rfl rfl rfl

theorem placedBy_inflight {o : OrderBookEntry ℚ} (places : s.placedBy a = some o) : o ∈ s.inflight := by
  cases a with
  | advance sid =>
    obtain ⟨c, found, flies⟩ := Option.bind_eq_some_iff.mp places
    exact List.mem_filterMap.mpr ⟨c, List.mem_of_getElem? found, flies⟩
  | _ => cases places

theorem Booked.start {book : OrderBook ℚ} {nextId : Nat} (env : Env ℚ) (loaded : Loaded book nextId)
    (store : UserStore ℚ) : Booked book env [] (Threads.start book nextId store) := by
  have filed := Filed.start loaded store
  have every : placed book ([] : List (Threads ℚ × Action ℚ)) = book.getAllOrders := List.append_nil _
  refine ⟨⟨?_, fun _ member => absurd member List.not_mem_nil, ?_, ?_⟩, filed, ?_,
    fun _ member => absurd member List.not_mem_nil⟩
  · rw [every]
    exact filed.mirrored.distinct
  · rw [every]
    exact fun o member => ⟨o, member, .refl_of_zero (filledBy_nil o)⟩
  · rw [every]
    exact fun o member => ⟨o, .refl_of_zero (filledBy_nil o), Or.inl member⟩
  · rw [every]
    exact filed.booked

end Steps

/-- In every state of every run the accounts of all orders agree with the book. -/
theorem orders_accounted (env : Env ℚ) {filename : Str} {file : Option Str} {book : OrderBook ℚ}
    {nextId : Nat} (made : OrderBook.make env filename file 1 = .ok (book, nextId))
    (store : UserStore ℚ) (actions : List (Action ℚ)) {s : Threads ℚ}
    (ran : Machine.exec (next env) (start book nextId store) actions = some s) :
    Accounted book env (Machine.trace (next env) (start book nextId store) actions) s := by
  exact (Machine.exec_invariant_trace (Booked book env)
    (fun _ _ _ _ booked _ step => booked.step (taken_of_next step)) (.start env (make_loaded made) store)
    (Machine.along_of_mem (fun _ _ _ => trivial) _) ran).toAccounted

theorem orders_accounted_launched : ∃ s ∈ crossedFile, ∃ s' book,
    Machine.exec (next exactEnv) s bidWhileLaunched = some s' ∧
      (placed book (Machine.trace (next exactEnv) s bidWhileLaunched)).map (fun o => o.id) = [1, 2, 3] ∧
      (trades exactEnv (Machine.trace (next exactEnv) s bidWhileLaunched)).map
        (fun t => (t.bid.entry.id, t.ask.entry.id, t.amount)) = [(2, 1, 1)] ∧
      Accounted book exactEnv (Machine.trace (next exactEnv) s bidWhileLaunched) s' := by
  obtain ⟨s, is, found⟩ := (Option.any_eq_true _ _).mp
    (show crossedFile.any (fun s => (Machine.exec (next exactEnv) s bidWhileLaunched).isSome &&
      (placed s.server.orderBook (Machine.trace (next exactEnv) s bidWhileLaunched)).map
        (fun o => o.id) = [1, 2, 3] &&
      (trades exactEnv (Machine.trace (next exactEnv) s bidWhileLaunched)).map
        (fun t => (t.bid.entry.id, t.ask.entry.id, t.amount)) = [(2, 1, 1)]) by
      decide +kernel)
  simp only [Bool.and_eq_true, decide_eq_true_eq] at found
  obtain ⟨⟨runs, ids⟩, matched⟩ := found
  obtain ⟨s', ran⟩ := Option.isSome_iff_exists.mp runs
  obtain ⟨book, nextId, made, rfl⟩ := mem_crossedFile is
  exact ⟨_, is, s', book, ran, ids, matched, orders_accounted exactEnv made .empty bidWhileLaunched ran⟩

end Threads

end MiniATS
