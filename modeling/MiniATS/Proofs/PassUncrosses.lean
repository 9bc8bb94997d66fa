import MiniATS.Proofs.PassLists
import MiniATS.Cxx.Double
import MiniATS.Misc.Binary64
import Mathlib.Tactic.Linarith

/-!
# A returned pass leaves no crossing orders

The loops are followed as they are written, for any numbers whose comparisons have the few
properties of `AmountOrder`; exact rationals and `double` do. An amount that cannot be compared is
never changed.
-/

namespace MiniATS

/-- The number is in no relation to any number, as NaN is. -/
def Unordered {R : Type} [LT R] [BEq R] (x : R) : Prop :=
  ∀ y, ¬ x < y ∧ ¬ y < x ∧ (x == y) = false ∧ (y == x) = false

/-- What uncrossing relies on of the comparison and the difference of two amounts. -/
class AmountOrder (R : Type) [Zero R] [Sub R] [LT R] [LE R] [BEq R] : Prop where
  zero_le : (0 : R) ≤ 0
  not_le_of_pos : ∀ x : R, 0 < x → ¬ x ≤ 0
  pos_or_unordered : ∀ x : R, ¬ x ≤ 0 → 0 < x ∨ Unordered x
  compare : ∀ x y : R, 0 < x → 0 < y → (x == y) = true ∨ x < y ∨ y < x
  rest_pos : ∀ x y : R, 0 < y → y < x → 0 < x - y

instance : AmountOrder ℚ where
  zero_le := le_rfl
  not_le_of_pos := fun _ positive => not_le_of_gt positive
  pos_or_unordered := fun _ large => Or.inl (not_le.mp large)
  compare := fun x y _ _ => by
    rcases lt_trichotomy x y with less | same | more
    · exact Or.inr (Or.inl less)
    · exact Or.inl (by simp [same])
    · exact Or.inr (Or.inr more)
  rest_pos := fun _ _ _ less => sub_pos.mpr less

instance : AmountOrder Float where
  zero_le := Float.le_iff.mpr ⟨_, Float.key_zero, _, Float.key_zero, le_rfl⟩
  not_le_of_pos := fun x positive small => by
    obtain ⟨a, keyed, b, keyed', less⟩ := Float.lt_iff.mp positive
    obtain ⟨b', keyed₂, a', keyed₃, most⟩ := Float.le_iff.mp small
    obtain rfl := Option.some.inj (keyed.symm.trans keyed₃)
    obtain rfl := Option.some.inj (keyed'.symm.trans keyed₂)
    exact absurd less (not_lt.mpr most)
  pos_or_unordered := fun x large => by
    rcases keyed : x.key with _ | a
    · -- NaN
      refine Or.inr fun y => ⟨fun less => ?_, fun less => ?_, ?_, ?_⟩
      · obtain ⟨a, keyed', -⟩ := Float.lt_iff.mp less
        exact absurd (keyed.symm.trans keyed') nofun
      · obtain ⟨-, -, a, keyed', -⟩ := Float.lt_iff.mp less
        exact absurd (keyed.symm.trans keyed') nofun
      · refine Bool.eq_false_iff.mpr fun same => ?_
        obtain ⟨a, keyed', -⟩ := Float.beq_iff.mp same
        exact absurd (keyed.symm.trans keyed') nofun
      · refine Bool.eq_false_iff.mpr fun same => ?_
        obtain ⟨a, -, keyed'⟩ := Float.beq_iff.mp same
        exact absurd (keyed.symm.trans keyed') nofun
    · refine Or.inl (Float.lt_iff.mpr ⟨_, Float.key_zero, a, keyed, not_le.mp fun most => ?_⟩)
      exact large (Float.le_iff.mpr ⟨a, keyed, _, Float.key_zero, most⟩)
  compare := fun x y positive positive' => by
    obtain ⟨-, -, a, keyed, -⟩ := Float.lt_iff.mp positive
    obtain ⟨-, -, b, keyed', -⟩ := Float.lt_iff.mp positive'
    rcases lt_trichotomy a b with less | rfl | more
    · exact Or.inr (Or.inl (Float.lt_iff.mpr ⟨a, keyed, b, keyed', less⟩))
    · exact Or.inl (Float.beq_iff.mpr ⟨a, keyed, keyed'⟩)
    · exact Or.inr (Or.inr (Float.lt_iff.mpr ⟨b, keyed', a, keyed, more⟩))
  rest_pos := fun _ _ => Float.sub_pos

namespace OrderBook

variable {R : Type} [Zero R] [LT R] [LE R]

/-- A bid with a positive amount is priced at or above an ask with a positive amount. -/
def Crosses (ask bid : OrderBookEntry R) : Prop :=
  0 < ask.amount ∧ 0 < bid.amount ∧ ask.price ≤ bid.price

/-- No bid and no ask of the list cross. -/
def Uncrossed (l : List (OrderBookEntry R)) : Prop :=
  ∀ ask ∈ l, ∀ bid ∈ l, ask.orderType = .ask → bid.orderType = .bid → ¬ Crosses ask bid

omit [LE R] in
/-- The same node, with an amount that is positive only if it was. -/
def Dwindled (p q : EntryPtr R) : Prop := SameNode p q ∧ (0 < q.entry.amount → 0 < p.entry.amount)

omit [LE R] in
theorem Dwindled.refl (p : EntryPtr R) : Dwindled p p := ⟨SameNode.refl p, id⟩

omit [LE R] in
theorem Dwindled.trans {p q r : EntryPtr R} (first : Dwindled p q) (second : Dwindled q r) : Dwindled p r :=
  ⟨first.1.trans second.1, fun positive => first.2 (second.2 positive)⟩

omit [LE R] in
theorem forall₂_dwindled_refl (l : List (EntryPtr R)) : List.Forall₂ Dwindled l l :=
  List.forall₂_same.mpr fun p _ => Dwindled.refl p

/-- Orders that have dwindled cross only if they did. -/
theorem Crosses.of_dwindled {ask ask' bid bid' : EntryPtr R} (crosses : Crosses ask'.entry bid'.entry)
    (dwindledAsk : Dwindled ask ask') (dwindledBid : Dwindled bid bid') : Crosses ask.entry bid.entry := by
  obtain ⟨positiveAsk, positiveBid, prices⟩ := crosses
  refine ⟨dwindledAsk.2 positiveAsk, dwindledBid.2 positiveBid, ?_⟩
  obtain ⟨x, rfl⟩ := dwindledAsk.1
  obtain ⟨y, rfl⟩ := dwindledBid.1
  exact prices

variable [Add R] [Sub R] [Mul R] [DecidableLT R] [DecidableLE R] [BEq R] [AmountOrder R]

omit [Add R] [Mul R] [DecidableLT R] [DecidableLE R] in
theorem not_pos_of_le {x : R} (small : x ≤ 0) : ¬ 0 < x :=
  fun positive => AmountOrder.not_le_of_pos x positive small

section Loops

variable (product currentTimestamp : Str)

/-- What a round leaves when it goes on, and when it breaks. -/
theorem bidRound_uncrosses {ask : EntryPtr R} (open' : ¬ ask.entry.amount ≤ 0) (bid : EntryPtr R)
    (st : PassState R) :
    let r := bidRound product currentTimestamp ask bid st
    Dwindled ask r.ask ∧ Dwindled bid r.bid ∧
      (r.how = .next → ¬ r.ask.entry.amount ≤ 0 ∧ ¬ Crosses r.ask.entry r.bid.entry) ∧
      (r.how = .leave → ¬ 0 < r.ask.entry.amount) := by
  have zero : ¬ (0 : R) < 0 := not_pos_of_le AmountOrder.zero_le
  have settled : ∀ (x y : R) (r : PassState R × Except Exn Unit) (how : RoundEnd),
      (0 < x → 0 < ask.entry.amount) → (0 < y → 0 < bid.entry.amount) →
      (how = .next → ¬ x ≤ 0 ∧ ¬ 0 < y) → (how = .leave → ¬ 0 < x) →
      let q := Round.settled (ask.withAmount x) (bid.withAmount y) r how
      Dwindled ask q.ask ∧ Dwindled bid q.bid ∧
        (q.how = .next → ¬ q.ask.entry.amount ≤ 0 ∧ ¬ Crosses q.ask.entry q.bid.entry) ∧
        (q.how = .leave → ¬ 0 < q.ask.entry.amount) := by
    intro x y r how dwindledAsk dwindledBid goesOn breaks
    unfold Round.settled
    split
    · exact ⟨⟨⟨x, rfl⟩, dwindledAsk⟩, ⟨⟨y, rfl⟩, dwindledBid⟩, nofun, nofun⟩
    · exact ⟨⟨⟨x, rfl⟩, dwindledAsk⟩, ⟨⟨y, rfl⟩, dwindledBid⟩,
        fun next => ⟨(goesOn next).1, fun crosses => (goesOn next).2 crosses.2.1⟩, breaks⟩
  have kept : ∀ (st : PassState R), ¬ Crosses ask.entry bid.entry →
      let q : Round R := ⟨ask, bid, st, .next⟩
      Dwindled ask q.ask ∧ Dwindled bid q.bid ∧
        (q.how = .next → ¬ q.ask.entry.amount ≤ 0 ∧ ¬ Crosses q.ask.entry q.bid.entry) ∧
        (q.how = .leave → ¬ 0 < q.ask.entry.amount) :=
    fun _ apart => ⟨Dwindled.refl ask, Dwindled.refl bid, fun _ => ⟨open', apart⟩, nofun⟩
  unfold bidRound
  split
  · rename_i small
    exact kept st fun crosses => not_pos_of_le small crosses.2.1
  rename_i openBid
  split
  swap
  · rename_i prices
    exact kept st fun crosses => prices crosses.2.2
  dsimp only
  split
  · exact ⟨Dwindled.refl ask, Dwindled.refl bid, nofun, nofun⟩
  split
  · exact settled 0 0 _ _ (absurd · zero) (absurd · zero) nofun (fun _ => zero)
  rename_i differ
  split
  · -- the bid is larger than the ask, so it can be compared
    rename_i less
    refine settled 0 _ _ _ (absurd · zero) (fun _ => ?_) nofun (fun _ => zero)
    exact (AmountOrder.pos_or_unordered _ openBid).resolve_right fun never => (never _).2.1 less
  rename_i notLess
  split
  · rename_i less
    have positiveBid := (AmountOrder.pos_or_unordered _ openBid).resolve_right
      fun never => (never _).1 less
    have positiveAsk := (AmountOrder.pos_or_unordered _ open').resolve_right
      fun never => (never _).2.1 less
    have rest := AmountOrder.rest_pos _ _ positiveBid less
    exact settled _ 0 _ _ (fun _ => positiveAsk) (absurd · zero)
      (fun _ => ⟨AmountOrder.not_le_of_pos _ rest, zero⟩) nofun
  · rename_i notMore
    apply kept _
    intro crosses
    rcases AmountOrder.compare _ _ crosses.2.1 crosses.1 with same | less | more
    · exact differ same
    · exact notMore less
    · exact notLess more

theorem bidLoop_uncrosses {ask : EntryPtr R} (open' : ¬ ask.entry.amount ≤ 0)
    (bids : List (EntryPtr R)) (st : PassState R) :
    let r := bidLoop product currentTimestamp ask bids st
    List.Forall₂ Dwindled bids r.bids ∧ ∃ ask', r.asks = [ask'] ∧ Dwindled ask ask' ∧
      (r.result = .ok () → ∀ bid ∈ r.bids, ¬ Crosses ask'.entry bid.entry) := by
  induction bids generalizing ask st with
  | nil => exact ⟨.nil, ask, rfl, Dwindled.refl ask, fun _ _ member => nomatch member⟩
  | cons bid bids ih =>
    obtain ⟨dwindledAsk, dwindledBid, goesOn, breaks⟩ :=
      bidRound_uncrosses product currentTimestamp open' bid st
    unfold bidLoop
    dsimp only
    split
    · exact ⟨.cons dwindledBid (forall₂_dwindled_refl bids), _, rfl, dwindledAsk, nofun⟩
    · rename_i left
      exact ⟨.cons dwindledBid (forall₂_dwindled_refl bids), _, rfl, dwindledAsk,
        fun _ _ _ crosses => breaks left crosses.1⟩
    · rename_i next
      obtain ⟨openAsk, apart⟩ := goesOn next
      obtain ⟨rest, ask', isAsk, dwindledAsk', uncrossed⟩ := ih openAsk
        (bidRound product currentTimestamp ask bid st).st
      refine ⟨.cons dwindledBid rest, ask', isAsk, dwindledAsk.trans dwindledAsk', fun returned => ?_⟩
      intro bid' member
      rcases List.mem_cons.mp member with rfl | later
      · -- the ask only dwindles after this bid
        exact fun crosses => apart (crosses.of_dwindled dwindledAsk' (Dwindled.refl _))
      · exact uncrossed returned bid' later

theorem askLoop_uncrosses (asks bids : List (EntryPtr R)) (st : PassState R) :
    let r := askLoop product currentTimestamp asks bids st
    List.Forall₂ Dwindled bids r.bids ∧
      (r.result = .ok () → ∀ ask ∈ r.asks, ∀ bid ∈ r.bids, ¬ Crosses ask.entry bid.entry) := by
  induction asks generalizing bids st with
  | nil => exact ⟨forall₂_dwindled_refl bids, fun _ _ member => nomatch member⟩
  | cons ask asks ih =>
    unfold askLoop
    split
    · rename_i small
      obtain ⟨dwindledBids, uncrossed⟩ := ih bids st
      refine ⟨dwindledBids, fun returned ask' member bid inBids => ?_⟩
      rcases List.mem_cons.mp member with rfl | later
      · exact fun crosses => not_pos_of_le small crosses.1
      · exact uncrossed returned ask' later bid inBids
    · rename_i open'
      obtain ⟨dwindledBids, ask', isAsk, -, uncrossed⟩ :=
        bidLoop_uncrosses product currentTimestamp open' bids st
      dsimp only
      split
      · rename_i thrown
        exact ⟨dwindledBids, fun returned => nomatch thrown.symm.trans returned⟩
      · rename_i returned
        obtain ⟨dwindledBids', uncrossed'⟩ := ih (bidLoop product currentTimestamp ask bids st).bids
          (bidLoop product currentTimestamp ask bids st).st
        refine ⟨ListFacts.forall₂_trans dwindledBids dwindledBids' Dwindled.trans,
          fun returned' ask'' member bid inBids => ?_⟩
        rw [isAsk] at member
        rcases List.mem_cons.mp member with rfl | later
        · obtain ⟨bid₀, before, dwindledBid⟩ := ListFacts.forall₂_mem_right dwindledBids' inBids
          exact fun crosses => uncrossed returned bid₀ before
            (crosses.of_dwindled (Dwindled.refl _) dwindledBid)
        · exact uncrossed' returned' ask'' later bid inBids

end Loops

omit [Zero R] [LT R] [LE R] [Add R] [Sub R] [Mul R] [DecidableLT R] [DecidableLE R] [BEq R]
  [AmountOrder R] in
/-- An order of the list written back is the order of its pointer. -/
theorem mem_writeBack [LT R] [DecidableLT R] {std : StdSort (EntryPtr R)}
    {l : List (OrderBookEntry R)} {bids asks : List (EntryPtr R)}
    (sameBids : List.Forall₂ SameNode (sortedBids std l) bids)
    (sameAsks : List.Forall₂ SameNode (sortedAsks std l) asks) {o : OrderBookEntry R}
    (member : o ∈ writeBack l (bids ++ asks)) :
    (o.orderType = .bid → ∃ q ∈ bids, q.entry = o) ∧ (o.orderType = .ask → ∃ q ∈ asks, q.entry = o) := by
  have same := List.rel_append sameBids sameAsks
  obtain ⟨i, bound, isO⟩ := List.getElem_of_mem member
  have orders := writeBack_sameOrder same
  have bound' : i < l.length := orders.length_eq ▸ bound
  have wrote : SameOrder l[i] o := by
    rw [← isO]
    exact orders.get bound' bound
  have distinct : (((bids ++ asks).map (fun p => (p.pos, p.entry))).map Prod.fst).Nodup := by
    rw [List.map_map, Function.comp_def]
    refine (ListFacts.forall₂_map_eq (fun _ _ related => ?_) same) ▸ sorted_pos_nodup std l
    exact related.entry.1.symm
  -- the pointer of the node is where the node has been written from
  have found : ∀ q ∈ bids ++ asks, q.pos = i → q.entry = o := by
    intro q inPtrs position
    have read := ListFacts.getElem?_putAll_of_mem distinct (List.mem_map_of_mem inPtrs)
      (position ▸ bound')
    have stands : (writeBack l (bids ++ asks))[q.pos]? = some o := by
      rw [position, List.getElem?_eq_getElem bound, isO]
    exact Option.some.inj (read.symm.trans stands)
  have type : o.orderType = l[i].orderType := by
    obtain ⟨x, rfl⟩ := wrote
    rfl
  constructor
  · intro isBid
    obtain ⟨q, inBids, related⟩ := ListFacts.forall₂_mem_left sameBids
      (a := ⟨i, l[i]⟩) (mem_sortedBids.mpr ⟨List.getElem?_eq_getElem bound', type ▸ isBid⟩)
    exact ⟨q, inBids, found q (List.mem_append_left _ inBids) related.entry.1⟩
  · intro isAsk
    obtain ⟨q, inAsks, related⟩ := ListFacts.forall₂_mem_left sameAsks
      (a := ⟨i, l[i]⟩) (mem_sortedAsks.mpr ⟨List.getElem?_eq_getElem bound', type ▸ isAsk⟩)
    exact ⟨q, inAsks, found q (List.mem_append_right _ inAsks) related.entry.1⟩

/-- A pass that returns leaves the list of its product uncrossed. -/
theorem matchAsksToBids_uncrossed {std : StdSort (EntryPtr R)} {book : OrderBook R}
    {product currentTimestamp : Str} {userStore : UserStore R} {nextId : Nat}
    {sales : List (OrderBookEntry R)}
    (returned : (book.matchAsksToBids std product currentTimestamp userStore nextId).result = .ok sales) :
    Uncrossed
      ((book.matchAsksToBids std product currentTimestamp userStore nextId).book.orders product) := by
  unfold matchAsksToBids at returned ⊢
  cases found : book.orderMap.lookup product with
  | none =>
    have none' : (book.insertSales []).orders product = [] := orders_of_lookup_none found
    rw [none']
    exact fun _ member => nomatch member
  | some l =>
    obtain ⟨sameBids, sameAsks⟩ := askLoop_same product currentTimestamp (sortedAsks std l)
      (sortedBids std l) ⟨userStore, nextId, [], []⟩
    obtain ⟨-, uncrossed⟩ := askLoop_uncrosses product currentTimestamp (sortedAsks std l)
      (sortedBids std l) ⟨userStore, nextId, [], []⟩
    simp only [found] at returned ⊢
    cases outcome : (passLoop std l product currentTimestamp userStore nextId).result with
    | error e =>
      simp only [outcome] at returned
      cases returned
    | ok _ =>
      simp only [outcome] at returned ⊢
      rw [removeMatchedOrders_orders, if_pos rfl]
      intro ask isAsk bid isBid typeAsk typeBid
      have left : ∀ o ∈ ((({ book with orderMap := book.orderMap.insert product (writeBack l
          ((passLoop std l product currentTimestamp userStore nextId).bids ++
            (passLoop std l product currentTimestamp userStore nextId).asks)) } :
              OrderBook R).insertSales
          (passLoop std l product currentTimestamp userStore nextId).st.sales).orders product),
          o ∈ writeBack l ((passLoop std l product currentTimestamp userStore nextId).bids ++
            (passLoop std l product currentTimestamp userStore nextId).asks) := by
        intro o member
        rwa [orders_insert book rfl, if_pos rfl] at member
      obtain ⟨p, inAsks, rfl⟩ := (mem_writeBack sameBids sameAsks
        (left ask (List.mem_of_mem_filter isAsk))).2 typeAsk
      obtain ⟨q, inBids, rfl⟩ := (mem_writeBack sameBids sameAsks
        (left bid (List.mem_of_mem_filter isBid))).1 typeBid
      exact uncrossed outcome p inAsks q inBids

end OrderBook

end MiniATS
