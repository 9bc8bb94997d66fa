import Mathlib.Data.List.GetD
import MiniATS.Proofs.WrittenFile
import MiniATS.Properties.OnePair

/-!
# Accepted orders in the orders file

A product comes from a token of a message and has two tokens around `'/'`; commas and line breaks
in it are neither refused nor escaped. And `std::stod` throws at some numbers that `operator<<` has
printed. The written book reads back with as many entries of every product and type exactly when no
open order has a comma or a line break in its product, and every amount and price of the open orders
can be read back.
-/

namespace MiniATS

open Str CSVHandler OrderBookEntry OrderBook

namespace Str

section Timestamps

/-- A text without commas and line breaks. -/
def Unbroken (s : Str) : Prop := ∀ c ∈ s, c ≠ 44 ∧ c ≠ 10

private theorem Unbroken.append {s t : Str} (left : Unbroken s) (right : Unbroken t) : Unbroken (s ++ t) :=
  fun c member => (List.mem_append.mp member).elim (left c) (right c)

private theorem unbroken_mark {c : UInt8} (comma : c ≠ 44) (newline : c ≠ 10) : Unbroken [c] := by
  intro b member
  obtain rfl := List.mem_singleton.mp member
  exact ⟨comma, newline⟩

private theorem unbroken_ofNat (n : Nat) : Unbroken (ofNat n) := by
  refine fun c member => ⟨?_, ?_⟩
  all_goals
    rintro rfl
    exact absurd (digits_ofNat n _ member) (by decide)

private theorem unbroken_twoDigits (n : Nat) : Unbroken (twoDigits n) := by
  unfold twoDigits
  split
  · exact Unbroken.append (s := [48]) (unbroken_mark (by decide) (by decide)) (unbroken_ofNat n)
  · exact unbroken_ofNat n

private theorem unbroken_getD {names : List String} (all : ∀ name ∈ names, Unbroken (str name)) (n : Nat) :
    Unbroken (str (names.getD n "")) := by
  rcases Nat.lt_or_ge n names.length with within | past
  · rw [List.getD_eq_getElem _ _ within]
    exact all _ (List.getElem_mem _)
  · rw [List.getD_eq_default _ _ past]
    exact fun _ none' => nomatch none'

/-- The text of a time is one field. -/
theorem plain_ctime (utcOffset now : Int) : Plain (ctime utcOffset now).dropLast := by
  have weekdays : ∀ name ∈ weekdayNames, Unbroken (str name) := by unfold Unbroken; decide +kernel
  have months : ∀ name ∈ monthNames, Unbroken (str name) := by unfold Unbroken; decide +kernel
  have space : Unbroken [32] := unbroken_mark (by decide) (by decide)
  have colon : Unbroken [58] := unbroken_mark (by decide) (by decide)
  have optional : ∀ (p : Prop) [Decidable p] {mark : Str}, Unbroken mark → Unbroken (if p then mark else []) := by
    intro p _ mark unbroken
    split
    · exact unbroken
    · exact fun _ none' => nomatch none'
  have minus : Unbroken [45] := unbroken_mark (by decide) (by decide)
  unfold ctime
  dsimp only
  rw [List.dropLast_concat]
  obtain ⟨year, month, day⟩ := civilFromDays ((now + utcOffset) / 86400)
  refine ⟨by simp, ?_⟩
  suffices whole : Unbroken _ from ⟨fun comma => (whole 44 comma).1 rfl, fun broken => (whole 10 broken).2 rfl⟩
  exact ((unbroken_getD weekdays _).append space).append (unbroken_getD months _)
    |>.append space |>.append (optional (day < 10) space) |>.append (unbroken_ofNat _)
    |>.append space |>.append (unbroken_twoDigits _) |>.append colon |>.append (unbroken_twoDigits _)
    |>.append colon |>.append (unbroken_twoDigits _)
    |>.append space |>.append (optional (year < 0) minus) |>.append (unbroken_ofNat _)

end Timestamps

end Str

variable {R : Type}

section Threads

variable [Zero R] [Add R] [Sub R] [Mul R] [Div R] [LT R] [LE R] [DecidableLT R] [DecidableLE R]
  [BEq R]

/-- An order that a session has reserved funds for has been admitted. -/
theorem Session.receive_inflight {env : Env R} {now : Int} {srv : Server R} {c : Session R} {data : Str}
    {o : OrderBookEntry R} (inflight : (c.receive env now srv data).2.inflight = some o) :
    ∃ u command tokens, (srv.admitOrder env now u command tokens).2 = .inr o := by
  have never : ∀ (c' : Session R) (reply : Reply), (c'.answer reply).inflight = some o → False :=
    fun c' reply flies => by
      rw [Session.answer_inflight] at flies
      cases flies
  revert inflight
  refine Session.receive_cases (motive := fun r => r.2.inflight = some o → _) ?_ ?_ ?_ ?_ ?_ ?_ ?_ ?_ ?_
  · intro _ flies
    unfold Session.receiveRegister at flies
    split at flies
    · split at flies
      · exact (never _ _ flies).elim
      · split at flies
        · exact (never _ _ flies).elim
        · cases flies
    · exact (never _ _ flies).elim
  · intro _ flies
    unfold Session.receiveLogin at flies
    split at flies
    · split at flies
      · exact (never _ _ flies).elim
      · split at flies
        · cases flies
        · exact (never _ _ flies).elim
    · exact (never _ _ flies).elim
  · intro _ srv' reply _ flies
    exact (never _ _ flies).elim
  · intro _ srv' order admitted flies
    obtain rfl := Option.some.inj flies
    exact ⟨_, _, _, congrArg Prod.snd admitted⟩
  · intro _ order _ flies
    cases flies
  · intro _ flies
    exact (never _ _ flies).elim
  · intro _ flies
    cases flies
  · intro _ _ _ _ flies
    cases flies
  · intro reply _ _ flies
    exact (never _ _ flies).elim

namespace Threads

/-- Every order in flight and in the book has the property. -/
structure Every (holds : OrderBookEntry R → Prop) (s : Threads R) : Prop where
  flying : ∀ c ∈ s.sessions, ∀ o, c.inflight = some o → holds o
  booked : ∀ o ∈ s.server.orderBook.getAllOrders, holds o

variable {holds : OrderBookEntry R → Prop} {env : Env R} {s s' : Threads R} {a : Action R}

/-- A property of admitted orders that does not depend on the amount is one of all orders. -/
theorem Every.step (stable : ∀ o x, holds o → holds (o.withAmount x))
    (admitted : ∀ {srv : Server R} {now : Int} {u command : Str} {tokens : List Str}
      {o : OrderBookEntry R}, (srv.admitOrder env now u command tokens).2 = .inr o → holds o)
    (filed : s.Filed) (every : s.Every holds) (taken : Taken env s a s') : s'.Every holds := by
  have withSessions : ∀ {before after : List (Session R)} {c c' : Session R},
      s.sessions = before ++ c :: after → (∀ o, c'.inflight = some o → holds o) →
      ∀ d ∈ before ++ c' :: after, ∀ o, d.inflight = some o → holds o :=
    fun sessions new => forall_sessions (fun d member => every.flying d (sessions ▸ member)) new
  cases taken with
  | connect =>
    refine ⟨fun c member o flies => ?_, every.booked⟩
    rcases List.mem_append.mp member with earlier | new
    · exact every.flying c earlier o flies
    · rw [List.mem_singleton.mp new] at flies
      cases flies
  | @message sid now data c before after found sessions idle =>
    refine ⟨withSessions sessions fun o flies => ?_, ?_⟩
    · obtain ⟨u, command, tokens, accepted⟩ := Session.receive_inflight flies
      exact admitted accepted
    · rw [(Session.receive_book env now s.server c data).book]
      exact every.booked
  | @advance sid c c' srv before after found sessions moved =>
    cases Session.advanced_book (Session.advanced_of_advance moved) with
    | kept book pending nextId flew lands =>
      refine ⟨withSessions sessions fun o flies => ?_, ?_⟩
      · rw [lands] at flies
        cases flies
      · rw [book]
        exact every.booked
    | @inserted o phase server session =>
      have flew : c.inflight = some o := by
        unfold Session.inflight
        rw [phase]
      subst server session
      refine ⟨withSessions sessions fun o flies => ?_, fun o' member => ?_⟩
      · cases flies
      · rcases List.mem_cons.mp ((insertOrder_perm _ o).mem_iff.mp member) with rfl | inBook
        · exact every.flying c (mem_sessions sessions) _ flew
        · exact every.booked o' inBook
    | started phase server lands =>
      refine ⟨withSessions sessions fun o flies => ?_, ?_⟩
      · rw [lands] at flies
        cases flies
      · rw [server, Server.startMatchingProduct_orderBook]
        exact every.booked
    | @removed id phase server lands =>
      refine ⟨withSessions sessions fun o flies => ?_, fun o member => ?_⟩
      · rw [lands] at flies
        cases flies
      · rw [server] at member
        exact every.booked o (removeOrderById_subset filed.mirrored _ id member)
  | @task n std now product before after found tasks =>
    refine ⟨every.flying, fun o member => ?_⟩
    obtain ⟨p, inList⟩ := mem_getAllOrders.mp member
    obtain ⟨o', was, x, rfl⟩ := matchAsksToBids_cameFrom std _ product _ _ _ p o inList
    exact stable o' x (every.booked o' (mem_getAllOrders.mpr ⟨p, was⟩))
  | _ => exact ⟨every.flying, every.booked⟩

/-- The run lemma of `Every.step`. -/
theorem every_run (stable : ∀ o x, holds o → holds (o.withAmount x))
    (admitted : ∀ {srv : Server R} {now : Int} {u command : Str} {tokens : List Str}
      {o : OrderBookEntry R}, (srv.admitOrder env now u command tokens).2 = .inr o → holds o)
    (filed : s.Filed) (every : s.Every holds) {actions : List (Action R)}
    (ran : Machine.exec (next env) s actions = some s') : s'.Every holds :=
  (Machine.exec_keeps (fun s => s.Filed ∧ s.Every holds)
    (fun _ _ _ kept step => ⟨kept.1.step (taken_of_next step),
      kept.2.step stable admitted kept.1 (taken_of_next step)⟩)
    ⟨filed, every⟩ ran).2

end Threads

end Threads

section Reading

/-- A part of a line has its separators no later. -/
theorem CSVHandler.narrow_of_infix {separator : UInt8} {s t : Str} (part : s <:+: t)
    (narrow : Narrow separator t) : Narrow separator s := by
  obtain ⟨before, after, rfl⟩ := part
  intro i here
  have there : (before ++ s ++ after)[before.length + i]? = some separator := by
    rw [List.append_assoc, List.getElem?_append_right (by omega), Nat.add_sub_cancel_left,
      List.getElem?_append_left (List.getElem?_eq_some_iff.mp here).1]
    exact here
  have bound := narrow _ there
  omega

/-- The product and the timestamp of an entry that was read are one field each. -/
theorem CSVHandler.storable_of_readEntries {env : Env R} {content : Str} {first nextId : Nat}
    {entries : List (OrderBookEntry R)} (narrow : ∀ line ∈ getlines 10 content, Narrow 44 line)
    (read : readEntries env (getlines 10 content) first = .ok (entries, nextId)) :
    ∀ o ∈ entries, o.Storable := by
  obtain ⟨entries', read', pairs, -⟩ := readEntries_lines env (getlines 10 content) narrow first
  obtain ⟨rfl, rfl⟩ := Prod.mk.inj (Except.ok.inj (read.symm.trans read'))
  intro o member
  obtain ⟨line, listed, reads⟩ := ListFacts.forall₂_mem_right pairs member
  have broken := free_of_mem_getlines (List.mem_of_mem_filter listed)
  obtain ⟨priceText, amountText, lead, rest, rfl, proper, -⟩ := reads
  have plain : ∀ field ∈ [o.timestamp, o.product, orderTypeToString o.orderType, priceText, amountText],
      field.Plain := fun field member => by
    refine ⟨(proper field member).1, (proper field member).2, fun lineBreak => broken ?_⟩
    have within := (infix_intercalate [44] member).subset lineBreak
    exact List.mem_append_left _ (List.mem_append_right _ within)
  exact ⟨plain _ (by simp), plain _ (by simp)⟩

theorem OrderBook.make_storable {env : Env R} {filename : Str} {file : Option Str} {first nextId : Nat}
    {book : OrderBook R} (made : OrderBook.make env filename file first = .ok (book, nextId))
    (narrow : ∀ line ∈ getlines 10 (file.getD []), Narrow 44 line) :
    ∀ o ∈ book.getAllOrders, o.Storable := by
  unfold OrderBook.make at made
  split at made
  · cases made
  rename_i opened
  obtain ⟨rfl, -⟩ := Prod.mk.inj (Except.ok.inj made)
  obtain ⟨entries, read, lists⟩ := readCSV_get opened
  intro o member
  obtain ⟨p, inList⟩ := mem_getAllOrders.mp member
  rw [OrderBook.orders, lists p] at inList
  exact storable_of_readEntries narrow read o
    (List.mem_of_mem_filter ((sortByTimestamp_perm _).mem_iff.mp inList))

/-- `readCSV` of the file that `entriesToCSV` writes gives, for every product and type, as many
entries as there are, so none under a product that has none. -/
def ReadsBack (env : Env R) (old : Str) (entries : List (OrderBookEntry R)) (first : Nat) : Prop :=
  ∃ book nextId, readCSV env (some (entriesToCSV env old entries false)) first = .ok (book, nextId) ∧
    ∀ product type, (book.get product []).countP (fun o => o.orderType = type) =
      entries.countP (fun o => o.product = product ∧ o.orderType = type)

theorem countP_stored (product : Str) (type : OrderBookType) (entries : List (OrderBookEntry R)) :
    (sortByTimestamp (entries.filter fun o => o.product = product)).countP (fun o => o.orderType = type) =
      (entries.map stored).countP (fun x => x.2.1 = product ∧ x.2.2.1 = type) := by
  rw [(sortByTimestamp_perm _).countP_eq, List.countP_filter, List.countP_map]
  apply List.countP_congr
  intro o _
  simp only [stored, Function.comp_apply, Bool.and_eq_true, decide_eq_true_eq, Bool.decide_and]
  constructor
  · rintro ⟨typed, same⟩
    exact ⟨decide_eq_true same, decide_eq_true typed⟩
  · rintro ⟨same, typed⟩
    exact ⟨of_decide_eq_true typed, of_decide_eq_true same⟩

variable {env : Env R} {entries : List (OrderBookEntry R)}

/-- The entry can be stored: nothing in its product is taken for the end of a field, and its printed
numbers are read. -/
def OrderBookEntry.SurvivesFile (env : Env R) (o : OrderBookEntry R) : Prop :=
  44 ∉ o.product ∧ 10 ∉ o.product ∧ (env.stod (env.ostream o.price)).isSome ∧
    (env.stod (env.ostream o.amount)).isSome

instance (env : Env R) (o : OrderBookEntry R) : Decidable (o.SurvivesFile env) :=
  inferInstanceAs (Decidable (_ ∧ _))

theorem readBack_isSome (env : Env R) (o : OrderBookEntry R) : (o.readBack env).isSome ↔
    (env.stod (env.ostream o.price)).isSome ∧ (env.stod (env.ostream o.amount)).isSome := by
  unfold readBack
  cases env.stod (env.ostream o.price) with
  | none => simp
  | some price => simp

/-- Nothing is lost exactly when every entry is read back. -/
theorem countP_readBack_iff (env : Env R) (entries : List (OrderBookEntry R)) :
    (∀ product type, ((entries.filterMap (readBack env)).map stored).countP
        (fun x => x.2.1 = product ∧ x.2.2.1 = type) =
      entries.countP (fun o => o.product = product ∧ o.orderType = type)) ↔
    ∀ o ∈ entries, (o.readBack env).isSome := by
  have counts : ∀ product type, ((entries.filterMap (readBack env)).map stored).countP
      (fun x => x.2.1 = product ∧ x.2.2.1 = type) =
      (entries.filter fun o => (o.readBack env).isSome).countP
        (fun o => o.product = product ∧ o.orderType = type) := by
    intro product type
    induction entries with
    | nil => rfl
    | cons o entries ih =>
      cases back : o.readBack env with
      | none =>
        rw [List.filterMap_cons_none back, List.filter_cons_of_neg (by simp [back]), ih]
      | some o' =>
        rw [List.filterMap_cons_some back, List.filter_cons_of_pos (by simp [back]), List.map_cons,
          List.countP_cons, List.countP_cons, ih]
        obtain ⟨price, -, rest⟩ := Option.bind_eq_some_iff.mp back
        obtain ⟨amount, -, rfl⟩ := Option.map_eq_some_iff.mp rest
        rfl
  constructor
  · intro all o member
    have split := List.countP_eq_countP_filter_add entries
      (fun e => decide (e.product = o.product ∧ e.orderType = o.orderType)) (fun e => (e.readBack env).isSome)
    have none' := (all o.product o.orderType).symm.trans (counts o.product o.orderType)
    rw [split] at none'
    have zero := List.countP_eq_zero.mp (by omega : (entries.filter fun e => !(e.readBack env).isSome).countP
      (fun e => decide (e.product = o.product ∧ e.orderType = o.orderType)) = 0)
    by_contra unread
    exact zero o (List.mem_filter.mpr ⟨member, by simpa using unread⟩) (by simp)
  · intro all product type
    rw [counts, List.filter_eq_self.mpr all]

/-- A list of entries whose timestamps are one field and whose products are not empty reads back
exactly when the products are one field too and the numbers are read. -/
theorem reads_back_iff (plain : ∀ x, (env.ostream x).Plain) (old : Str) (first : Nat)
    (dated : ∀ o ∈ entries, o.timestamp.Plain) (filled : ∀ o ∈ entries, o.product ≠ [])
    (narrow : ∀ o ∈ entries, Narrow 44 (entryToLine env o)) :
    ReadsBack env old entries first ↔ ∀ o ∈ entries, o.SurvivesFile env := by
  have lists : (∀ o ∈ entries, 44 ∉ o.product ∧ 10 ∉ o.product) →
      (ReadsBack env old entries first ↔ ∀ o ∈ entries, (o.readBack env).isSome) := by
    intro clean
    obtain ⟨read, nextId, eq, -, same⟩ := readEntries_storable plain old entries
      (fun o member => ⟨dated o member, filled o member, clean o member⟩) narrow first
    obtain ⟨book, opened, lists⟩ := readCSV_of_readEntries eq
    rw [← countP_readBack_iff]
    constructor
    · rintro ⟨book', nextId', opened', counts⟩ product type
      obtain ⟨rfl, rfl⟩ := Prod.mk.inj (Except.ok.inj (opened.symm.trans opened'))
      rw [← counts, lists, countP_stored, same]
    · intro counts
      refine ⟨book, nextId, opened, fun product type => ?_⟩
      rw [lists, countP_stored, same, counts]
  constructor
  · intro back
    have clean : ∀ o ∈ entries, 44 ∉ o.product ∧ 10 ∉ o.product := by
      obtain ⟨book, nextId, opened, counts⟩ := back
      intro o member
      obtain ⟨read, eq, lists⟩ := readCSV_get opened
      have lines : ∀ line ∈ getlines 10 (entriesToCSV env old entries false), Narrow 44 line := by
        intro line listed
        rw [getlines_entriesToCSV] at listed
        obtain ⟨o', member', piece⟩ := List.mem_flatMap.mp listed
        have within := infix_intercalate [10] piece
        rw [List.intercalate_splitOn] at within
        have narrow' := narrow o' member'
        rw [entryToLine_eq] at narrow'
        exact narrow_of_infix (within.trans (List.prefix_append _ _).isInfix) narrow'
      -- some entry has been read under the product of the order
      have some' : 0 < (book.get o.product []).countP (fun e => e.orderType = o.orderType) := by
        rw [counts]
        exact List.countP_pos_iff.mpr ⟨o, member, by simp⟩
      obtain ⟨e, inList, -⟩ := List.countP_pos_iff.mp some'
      rw [lists] at inList
      obtain ⟨inRead, same⟩ := List.mem_filter.mp ((sortByTimestamp_perm _).mem_iff.mp inList)
      have storable := storable_of_readEntries lines eq e inRead
      rw [← of_decide_eq_true same]
      exact storable.2.2
    intro o member
    obtain ⟨comma, lineBreak⟩ := clean o member
    exact ⟨comma, lineBreak, (readBack_isSome env o).mp ((lists clean).mp back o member)⟩
  · intro survive
    exact (lists fun o member => ⟨(survive o member).1, (survive o member).2.1⟩).mpr fun o member =>
      (readBack_isSome env o).mpr (survive o member).2.2

end Reading

namespace Threads

variable [Zero R] [Add R] [Sub R] [Mul R] [Div R] [LT R] [LE R] [DecidableLT R] [DecidableLE R]
  [BEq R]

/-- In every state of every run the written book reads back with as many entries of every product
and type exactly when no open order has a comma or a line break in its product and `std::stod` reads
the printed price and amount of each. -/
theorem open_orders_storable_iff {env : Env R} (plain : ∀ x, (env.ostream x).Plain)
    {filename : Str} {file : Option Str} {book : OrderBook R} {nextId : Nat}
    (made : OrderBook.make env filename file 1 = .ok (book, nextId))
    (lines : ∀ line ∈ getlines 10 (file.getD []), Narrow 44 line) (store : UserStore R)
    (actions : List (Action R)) {s : Threads R}
    (ran : Machine.exec (next env) (start book nextId store) actions = some s)
    (narrow : ∀ o ∈ s.server.orderBook.getAllOrders, Narrow 44 (entryToLine env o)) (old : Str)
    (first : Nat) :
    ReadsBack env old s.server.orderBook.getAllOrders first ↔
      ∀ o ∈ s.server.orderBook.getAllOrders, o.SurvivesFile env := by
  have every : s.Every fun o => o.timestamp.Plain ∧ o.product ≠ [] := by
    refine every_run (fun o x holds => holds) (fun {srv now u command tokens o} admitted => ?_)
      (.start (make_loaded made) store) ⟨fun _ none' => absurd none' List.not_mem_nil, ?_⟩ ran
    · obtain ⟨base, quote', pair⟩ := admitOrder_pair admitted
      refine ⟨?_, fun empty => ?_⟩
      · rw [((srv.admitOrder_book env now u command tokens).2.2 o admitted).2.2.2.2]
        exact plain_ctime _ _
      · rw [empty] at pair
        cases pair
    · intro o member
      obtain ⟨dated, product⟩ := make_storable made lines o member
      exact ⟨dated, product.1⟩
  exact reads_back_iff plain old first (fun o member => (every.booked o member).1)
    (fun o member => (every.booked o member).2) narrow

/-- Alice deposits one unit of a currency and asks for a product. -/
def depositAndAsk (currency product : String) : List (Action ℚ) :=
  [.connect, .message 0 0 (str "REGISTER alice pw"), .advance 0,
    .message 0 0 (str ("DEPOSIT " ++ currency ++ " 1")), .message 0 0 (str ("ASK " ++ product ++ " 1 4")),
    .advance 0, .advance 0]

theorem open_orders_storable_asked : ∃ s,
    Machine.exec (next exactEnv) fresh (depositAndAsk "btc" "btc/usd") = some s ∧
    ReadsBack exactEnv [] s.server.orderBook.getAllOrders 1 := by
  obtain ⟨s, ran, found⟩ := (Option.any_eq_true _ _).mp
    (show (Machine.exec (next exactEnv) fresh (depositAndAsk "btc" "btc/usd")).any (fun s =>
      s.server.orderBook.getAllOrders.all (fun o => decide (o.SurvivesFile exactEnv) &&
        decide ((entryToLine exactEnv o).length < 2 ^ 31))) = true by decide +kernel)
  simp only [List.all_eq_true, Bool.and_eq_true, decide_eq_true_eq] at found
  exact ⟨s, ran, (open_orders_storable_iff exactEnv_prints.plain (System.fresh_book exactEnv)
    (fun _ none' => nomatch none') .empty _ ran
    (fun o member => narrow_of_length (found o member).2) [] 1).mpr fun o member => (found o member).1⟩

/-- An ask whose product has a line break and a comma is accepted. Its line is read back as two, and
the second one is an ask for `C`. -/
theorem order_under_other_product : ∃ s,
    Machine.exec (next exactEnv) fresh (depositAndAsk "a" "a/b\n0,c") = some s ∧
    s.server.orderBook.getAllOrders.map (fun o => (o.product, o.orderType)) =
      [(str "A/B\n0,C", .ask)] ∧
    (readCSV exactEnv (some (entriesToCSV exactEnv [] s.server.orderBook.getAllOrders false)) 1).toOption.map
      (fun r => r.1.flat.map fun o => (o.product, o.orderType)) = some [(str "C", .ask)] ∧
    ¬ ReadsBack exactEnv [] s.server.orderBook.getAllOrders 1 := by
  obtain ⟨s, ran, found⟩ := (Option.any_eq_true _ _).mp
    (show (Machine.exec (next exactEnv) fresh (depositAndAsk "a" "a/b\n0,c")).any (fun s =>
      decide (s.server.orderBook.getAllOrders.map (fun o => (o.product, o.orderType)) =
        [(str "A/B\n0,C", .ask)]) &&
      decide ((readCSV exactEnv (some (entriesToCSV exactEnv [] s.server.orderBook.getAllOrders false))
        1).toOption.map (fun r => r.1.flat.map fun o => (o.product, o.orderType)) =
          some [(str "C", .ask)])) = true by decide +kernel)
  simp only [Bool.and_eq_true, decide_eq_true_eq] at found
  obtain ⟨booked, read⟩ := found
  refine ⟨s, ran, booked, read, ?_⟩
  rintro ⟨book, nextId, opened, counts⟩
  rw [opened] at read
  have none' : s.server.orderBook.getAllOrders.countP (fun o => o.product = str "C" ∧ o.orderType = .ask) =
      0 := by
    have mapped := List.countP_map (p := fun x : Str × OrderBookType => x.1 = str "C" ∧ x.2 = .ask)
      (f := fun o : OrderBookEntry ℚ => (o.product, o.orderType)) (l := s.server.orderBook.getAllOrders)
    rw [booked] at mapped
    exact mapped.symm.trans (by decide +kernel)
  rw [← counts, List.countP_eq_zero] at none'
  obtain ⟨o, member, is⟩ := List.mem_map.mp
    (show (str "C", OrderBookType.ask) ∈ _ from (Option.some.inj read) ▸ List.mem_cons_self)
  obtain ⟨p, inList⟩ := KeyedMap.mem_flat.mp member
  obtain ⟨entries, -, lists⟩ := readCSV_get opened
  rw [lists p] at inList
  have filed := (List.mem_filter.mp ((sortByTimestamp_perm _).mem_iff.mp inList)).2
  obtain rfl : o.product = p := of_decide_eq_true filed
  obtain ⟨product, type⟩ := Prod.mk.inj is
  rw [← lists, product] at inList
  exact none' o inList (decide_eq_true type)

end Threads

end MiniATS
