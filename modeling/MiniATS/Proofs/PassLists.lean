import MiniATS.Proofs.BookIndex
import MiniATS.Server.Matching

/-!
# What a pass does to the lists

A pass writes amounts through its pointers and nothing else: every order it leaves in the
list of the product is one that was there, with another amount, and in the same place. Only
when it returns are the orders without a positive amount taken out. This holds whatever the
numbers are, so no arithmetic is used here.
-/

namespace MiniATS

namespace OrderBook

variable {R : Type}

/-- The same node of a list, with another amount. -/
def SameNode (p q : EntryPtr R) : Prop := ∃ x, q = p.withAmount x

/-- The same order, with another amount. -/
def SameOrder (o o' : OrderBookEntry R) : Prop := ∃ x, o' = o.withAmount x

theorem SameNode.refl (p : EntryPtr R) : SameNode p p := ⟨p.entry.amount, rfl⟩

theorem SameNode.trans {p q r : EntryPtr R} (first : SameNode p q) (second : SameNode q r) :
    SameNode p r := by
  obtain ⟨x, rfl⟩ := first
  obtain ⟨y, rfl⟩ := second
  exact ⟨y, rfl⟩

theorem SameNode.entry {p q : EntryPtr R} (same : SameNode p q) :
    q.pos = p.pos ∧ SameOrder p.entry q.entry := by
  obtain ⟨x, rfl⟩ := same
  exact ⟨rfl, x, rfl⟩

theorem SameOrder.refl (o : OrderBookEntry R) : SameOrder o o := ⟨o.amount, rfl⟩

theorem forall₂_sameNode_refl (l : List (EntryPtr R)) : List.Forall₂ SameNode l l :=
  List.forall₂_same.mpr fun p _ => SameNode.refl p

section Pointers

theorem mem_getOrders {l : List (OrderBookEntry R)} {type : OrderBookType} {p : EntryPtr R} :
    p ∈ getOrders l type ↔ l[p.pos]? = some p.entry ∧ p.entry.orderType = type := by
  obtain ⟨pos, entry⟩ := p
  simp only [getOrders, List.mem_map, List.mem_filter, decide_eq_true_eq]
  constructor
  · rintro ⟨⟨o, i⟩, ⟨inList, isType⟩, same⟩
    obtain ⟨rfl, rfl⟩ := EntryPtr.mk.inj same
    exact ⟨List.mem_zipIdx_iff_getElem?.mp inList, isType⟩
  · rintro ⟨inList, isType⟩
    exact ⟨(entry, pos), ⟨List.mem_zipIdx_iff_getElem?.mpr inList, isType⟩, rfl⟩

theorem getOrders_pos_nodup (l : List (OrderBookEntry R)) (type : OrderBookType) :
    ((getOrders l type).map (fun p => p.pos)).Nodup := by
  have positions : ((l.zipIdx.filter (fun e => e.1.orderType = type)).map Prod.snd).Nodup := by
    apply List.Nodup.sublist (List.filter_sublist.map Prod.snd)
    rw [List.zipIdx_map_snd]
    exact List.nodup_range'
  simpa [getOrders, List.map_map, Function.comp_def] using positions

theorem mem_sortedAsks [LT R] [DecidableLT R] {std : StdSort (EntryPtr R)}
    {l : List (OrderBookEntry R)} {p : EntryPtr R} :
    p ∈ sortedAsks std l ↔ l[p.pos]? = some p.entry ∧ p.entry.orderType = .ask :=
  (std.mem_sort _).trans mem_getOrders

theorem mem_sortedBids [LT R] [DecidableLT R] {std : StdSort (EntryPtr R)}
    {l : List (OrderBookEntry R)} {p : EntryPtr R} :
    p ∈ sortedBids std l ↔ l[p.pos]? = some p.entry ∧ p.entry.orderType = .bid :=
  (std.mem_sort _).trans mem_getOrders

theorem sorted_pos_nodup [LT R] [DecidableLT R] (std : StdSort (EntryPtr R))
    (l : List (OrderBookEntry R)) :
    ((sortedBids std l ++ sortedAsks std l).map (fun p => p.pos)).Nodup := by
  rw [List.map_append]
  refine List.nodup_append.mpr ⟨?_, ?_, ?_⟩
  · exact ((std.perm _ _).map _).nodup_iff.mpr (getOrders_pos_nodup l .bid)
  · exact ((std.perm _ _).map _).nodup_iff.mpr (getOrders_pos_nodup l .ask)
  · intro i inBids j inAsks same
    obtain ⟨p, isBid, rfl⟩ := List.mem_map.mp inBids
    obtain ⟨q, isAsk, rfl⟩ := List.mem_map.mp inAsks
    obtain ⟨atBid, bid⟩ := mem_sortedBids.mp isBid
    obtain ⟨atAsk, ask⟩ := mem_sortedAsks.mp isAsk
    rw [same, atAsk] at atBid
    rw [Option.some.inj atBid, bid] at ask
    cases ask

theorem sorted_stands [LT R] [DecidableLT R] {std : StdSort (EntryPtr R)}
    {l : List (OrderBookEntry R)} {p : EntryPtr R} (member : p ∈ sortedBids std l ++ sortedAsks std l) :
    l[p.pos]? = some p.entry := by
  rcases List.mem_append.mp member with isBid | isAsk
  · exact (mem_sortedBids.mp isBid).1
  · exact (mem_sortedAsks.mp isAsk).1

/-- Pointers that still stand for their nodes, written back, change the list node by node. -/
theorem writeBack_forall₂ [LT R] [DecidableLT R] {std : StdSort (EntryPtr R)}
    {l : List (OrderBookEntry R)} {ptrs : List (EntryPtr R)}
    {rel : OrderBookEntry R → OrderBookEntry R → Prop} (refl : ∀ o, rel o o)
    (same : List.Forall₂ (fun p q : EntryPtr R => q.pos = p.pos ∧ rel p.entry q.entry)
      (sortedBids std l ++ sortedAsks std l) ptrs) :
    List.Forall₂ rel l (writeBack l ptrs) := by
  have positions : ptrs.map (fun p => p.pos) =
      (sortedBids std l ++ sortedAsks std l).map (fun p => p.pos) :=
    (ListFacts.forall₂_map_eq (fun _ _ related => related.1.symm) same).symm
  refine ListFacts.forall₂_putAll refl l ?_ ?_
  · rw [List.map_map, Function.comp_def, positions]
    exact sorted_pos_nodup std l
  · intro cell member
    obtain ⟨q, inPtrs, rfl⟩ := List.mem_map.mp member
    obtain ⟨p, inSorted, position, related⟩ := ListFacts.forall₂_mem_right same inPtrs
    refine ⟨p.entry, ?_, related⟩
    rw [position]
    exact sorted_stands inSorted

theorem writeBack_sameOrder [LT R] [DecidableLT R] {std : StdSort (EntryPtr R)}
    {l : List (OrderBookEntry R)} {ptrs : List (EntryPtr R)}
    (same : List.Forall₂ SameNode (sortedBids std l ++ sortedAsks std l) ptrs) :
    List.Forall₂ SameOrder l (writeBack l ptrs) :=
  writeBack_forall₂ SameOrder.refl (same.imp fun _ _ related => related.entry)

/-- Written back, they leave the list as it was only if no pointer has changed. -/
theorem writeBack_eq_iff [LT R] [DecidableLT R] {std : StdSort (EntryPtr R)}
    {l : List (OrderBookEntry R)} {ptrs : List (EntryPtr R)}
    (same : List.Forall₂ SameNode (sortedBids std l ++ sortedAsks std l) ptrs) :
    writeBack l ptrs = l ↔ ptrs = sortedBids std l ++ sortedAsks std l := by
  constructor
  · intro unchanged
    have distinct : ((ptrs.map (fun p => (p.pos, p.entry))).map Prod.fst).Nodup := by
      rw [List.map_map, Function.comp_def]
      refine (ListFacts.forall₂_map_eq (fun _ _ related => ?_) same) ▸ sorted_pos_nodup std l
      exact related.entry.1.symm
    -- a written node is read back, so it holds what the list held there
    have stays : ∀ p ∈ sortedBids std l ++ sortedAsks std l, ∀ q ∈ ptrs, SameNode p q → p = q := by
      intro p inSorted q member related
      have old := sorted_stands inSorted
      have position := related.entry.1
      have bound : q.pos < l.length := by
        rw [position]
        exact (List.getElem?_eq_some_iff.mp old).1
      have new : (writeBack l ptrs)[q.pos]? = some q.entry :=
        ListFacts.getElem?_putAll_of_mem distinct (List.mem_map_of_mem member) bound
      rw [unchanged, position, old] at new
      obtain ⟨pos, entry⟩ := p
      obtain ⟨pos', entry'⟩ := q
      exact EntryPtr.mk.injEq .. ▸ ⟨position.symm, Option.some.inj new⟩
    apply List.ext_getElem same.length_eq.symm
    intro i bound bound'
    exact (stays _ (List.getElem_mem bound') _ (List.getElem_mem bound) (same.get bound' bound)).symm
  · rintro rfl
    apply ListFacts.putAll_of_stand
    intro cell member
    obtain ⟨p, inSorted, rfl⟩ := List.mem_map.mp member
    exact sorted_stands inSorted

end Pointers

variable [Zero R] [Add R] [Sub R] [Mul R] [LT R] [LE R] [DecidableLT R] [DecidableLE R] [BEq R]

section Loops

variable (product currentTimestamp : Str)

theorem bidRound_same (ask bid : EntryPtr R) (st : PassState R) :
    SameNode ask (bidRound product currentTimestamp ask bid st).ask ∧
      SameNode bid (bidRound product currentTimestamp ask bid st).bid := by
  have settled : ∀ (x y : R) (r : PassState R × Except Exn Unit) (how : RoundEnd),
      SameNode ask (Round.settled (ask.withAmount x) (bid.withAmount y) r how).ask ∧
        SameNode bid (Round.settled (ask.withAmount x) (bid.withAmount y) r how).bid := by
    intro x y r how
    unfold Round.settled
    split
    · exact ⟨⟨x, rfl⟩, ⟨y, rfl⟩⟩
    · exact ⟨⟨x, rfl⟩, ⟨y, rfl⟩⟩
  have kept : SameNode ask ask ∧ SameNode bid bid := ⟨SameNode.refl ask, SameNode.refl bid⟩
  unfold bidRound
  split
  · exact kept
  split
  · dsimp only
    split
    · exact kept
    · split
      · exact settled _ _ _ _
      split
      · exact settled _ _ _ _
      split
      · exact settled _ _ _ _
      · exact kept
  · exact kept

theorem bidLoop_same (ask : EntryPtr R) (bids : List (EntryPtr R)) (st : PassState R) :
    let r := bidLoop product currentTimestamp ask bids st
    List.Forall₂ SameNode bids r.bids ∧ ∃ ask', r.asks = [ask'] ∧ SameNode ask ask' := by
  induction bids generalizing ask st with
  | nil => exact ⟨.nil, ask, rfl, SameNode.refl ask⟩
  | cons bid bids ih =>
    obtain ⟨sameAsk, sameBid⟩ := bidRound_same product currentTimestamp ask bid st
    unfold bidLoop
    dsimp only
    split
    · exact ⟨.cons sameBid (forall₂_sameNode_refl bids), _, rfl, sameAsk⟩
    · exact ⟨.cons sameBid (forall₂_sameNode_refl bids), _, rfl, sameAsk⟩
    · obtain ⟨rest, ask', isAsk, sameAsk'⟩ := ih (bidRound product currentTimestamp ask bid st).ask
        (bidRound product currentTimestamp ask bid st).st
      exact ⟨.cons sameBid rest, ask', isAsk, sameAsk.trans sameAsk'⟩

theorem askLoop_same (asks bids : List (EntryPtr R)) (st : PassState R) :
    let r := askLoop product currentTimestamp asks bids st
    List.Forall₂ SameNode bids r.bids ∧ List.Forall₂ SameNode asks r.asks := by
  induction asks generalizing bids st with
  | nil => exact ⟨forall₂_sameNode_refl bids, .nil⟩
  | cons ask asks ih =>
    unfold askLoop
    split
    · exact ⟨(ih bids st).1, .cons (SameNode.refl ask) (ih bids st).2⟩
    · obtain ⟨sameBids, ask', isAsk, sameAsk⟩ := bidLoop_same product currentTimestamp ask bids st
      dsimp only
      split
      · exact ⟨sameBids, by rw [isAsk]; exact .cons sameAsk (forall₂_sameNode_refl asks)⟩
      · obtain ⟨sameBids', sameAsks⟩ := ih (bidLoop product currentTimestamp ask bids st).bids
          (bidLoop product currentTimestamp ask bids st).st
        exact ⟨ListFacts.forall₂_trans sameBids sameBids' SameNode.trans,
          by rw [isAsk]; exact .cons sameAsk sameAsks⟩

/-- What every round does to the state of a pass, as far as it can be composed, the loops do. -/
theorem askLoop_state (related : PassState R → PassState R → Prop) (refl : ∀ st, related st st)
    (trans : ∀ {st st' st''}, related st st' → related st' st'' → related st st'')
    (round : ∀ ask bid st, related st (bidRound product currentTimestamp ask bid st).st)
    (asks bids : List (EntryPtr R)) (st : PassState R) :
    related st (askLoop product currentTimestamp asks bids st).st := by
  have inner : ∀ (bids : List (EntryPtr R)) (ask : EntryPtr R) (st : PassState R),
      related st (bidLoop product currentTimestamp ask bids st).st := by
    intro bids
    induction bids with
    | nil => exact fun _ st => refl st
    | cons bid bids ih =>
      intro ask st
      have head := round ask bid st
      unfold bidLoop
      dsimp only
      split
      · exact head
      · exact head
      · exact trans head (ih _ _)
  induction asks generalizing bids st with
  | nil => exact refl st
  | cons ask asks ih =>
    unfold askLoop
    split
    · exact ih bids st
    · dsimp only
      split
      · exact inner bids ask st
      · exact trans (inner bids ask st) (ih _ _)

/-- The state after a round: nothing was begun, or the users were looked up, or the sale they
began was settled. -/
theorem bidRound_state {motive : PassState R → Prop} {ask bid : EntryPtr R} {st : PassState R}
    (idle : motive st) (begun : motive (beginSale st product currentTimestamp bid ask).1)
    (settled : ∀ sale amount, (beginSale st product currentTimestamp bid ask).2 = .ok sale →
      motive (settle (beginSale st product currentTimestamp bid ask).1 (sale.withAmount amount) bid
        ask).1) :
    motive (bidRound product currentTimestamp ask bid st).st := by
  have ended : ∀ (ask bid : EntryPtr R) (r : PassState R × Except Exn Unit) (how : RoundEnd),
      (Round.settled ask bid r how).st = r.1 := by
    intro ask bid r how
    unfold Round.settled
    split <;> rfl
  unfold bidRound
  split
  · exact idle
  split
  · dsimp only
    split
    · exact begun
    · rename_i sale found
      split
      · rw [ended]
        exact settled sale _ found
      split
      · rw [ended]
        exact settled sale _ found
      split
      · rw [ended]
        exact settled sale _ found
      · exact begun
  · exact idle

theorem bidRound_nextId (ask bid : EntryPtr R) (st : PassState R) :
    st.nextId ≤ (bidRound product currentTimestamp ask bid st).st.nextId := by
  have begun : st.nextId ≤ (beginSale st product currentTimestamp bid ask).1.nextId := by
    unfold beginSale
    split
    · exact le_rfl
    · split
      · exact le_rfl
      · exact Nat.le_succ _
  exact bidRound_state (motive := fun st' => st.nextId ≤ st'.nextId) product currentTimestamp le_rfl
    begun fun _ _ _ => begun

/-- A round records sales of its product only. -/
theorem bidRound_sales (ask bid : EntryPtr R) (st : PassState R) :
    ∀ sale ∈ (bidRound product currentTimestamp ask bid st).st.sales,
      sale ∈ st.sales ∨ sale.product = product := by
  have begun : (beginSale st product currentTimestamp bid ask).1.sales = st.sales ∧
      ∀ sale, (beginSale st product currentTimestamp bid ask).2 = .ok sale → sale.product = product := by
    unfold beginSale
    split
    · exact ⟨rfl, by simp⟩
    · split
      · exact ⟨rfl, by simp⟩
      · exact ⟨rfl, fun sale made => by rw [← Except.ok.inj made]; rfl⟩
  refine bidRound_state (motive := fun st' => ∀ sale ∈ st'.sales, sale ∈ st.sales ∨
    sale.product = product) product currentTimestamp (fun _ => Or.inl) ?_ fun sale amount made => ?_
  · rw [begun.1]
    exact fun _ => Or.inl
  · intro sale' member
    unfold settle at member
    rw [begun.1] at member
    rcases List.mem_append.mp member with old | new
    · exact Or.inl old
    · rw [List.mem_singleton.mp new]
      exact Or.inr (begun.2 sale made)

end Loops

/-- The list of a product with the amounts a pass has written. -/
def Written (book : OrderBook R) (product : Str) (book' : OrderBook R)
    (l : List (OrderBookEntry R)) : Prop :=
  List.Forall₂ SameOrder (book.orders product) l ∧
    book'.getAllOrders.Perm (l ++ book.others product) ∧
    (∀ p, book'.orders p = if p = product then l else book.orders p) ∧
    book'.userOrders = book.userOrders

omit [Zero R] [Add R] [Sub R] [Mul R] [LT R] [LE R] [DecidableLT R] [DecidableLE R] [BEq R] in
/-- Written amounts change nothing else of the orders. -/
theorem Written.fields {book middle : OrderBook R} {product : Str} {l : List (OrderBookEntry R)}
    (written : book.Written product middle l) {α : Type} {f : OrderBookEntry R → α}
    (fixed : ∀ o x, f (o.withAmount x) = f o) (p : Str) :
    (middle.orders p).map f = (book.orders p).map f := by
  rw [written.2.2.1]
  split
  · subst_vars
    refine (ListFacts.forall₂_map_eq ?_ written.1).symm
    rintro o _ ⟨x, rfl⟩
    exact (fixed o x).symm
  · rfl

omit [Zero R] [Add R] [Sub R] [Mul R] [LT R] [LE R] [DecidableLT R] [DecidableLE R] [BEq R] in
theorem Written.mirrored {book book' : OrderBook R} {product : Str} {l : List (OrderBookEntry R)}
    (written : book.Written product book' l) (mirrored : book.Mirrored) : book'.Mirrored := by
  obtain ⟨same, perm, lists, index⟩ := written
  have whole := getAllOrders_perm book product
  have fields : ∀ {α : Type} (f : OrderBookEntry R → α), (∀ o x, f (o.withAmount x) = f o) →
      (book'.getAllOrders.map f).Perm (book.getAllOrders.map f) := by
    intro α f fixed
    refine (perm.map f).trans (List.Perm.trans ?_ (whole.map f).symm)
    rw [List.map_append, List.map_append, ListFacts.forall₂_map_eq (f := f) (g := f) _ same]
    rintro o _ ⟨x, rfl⟩
    exact (fixed o x).symm
  have both := fields (fun o => (o.username, o.id)) (fun _ _ => rfl)
  refine ⟨?_, ?_, ?_, ?_, ?_, ?_⟩
  · exact (fields (fun o => o.id) (fun _ _ => rfl)).nodup_iff.mpr mirrored.distinct
  · intro p o' member
    rw [lists] at member
    split at member
    · obtain ⟨o, inList, x, rfl⟩ := ListFacts.forall₂_mem_right same member
      rw [OrderBookEntry.withAmount_product, mirrored.filed product o inList]
      exact Eq.symm ‹_›
    · exact mirrored.filed p o' member
  · intro u i listed
    rw [index] at listed
    obtain ⟨o, inBook, owner, id⟩ := mirrored.refers u i listed
    have listed' := both.mem_iff.mpr (List.mem_map_of_mem inBook)
    obtain ⟨o', inBook', same'⟩ := List.mem_map.mp listed'
    obtain ⟨owner', id'⟩ := Prod.mk.inj same'
    exact ⟨o', inBook', owner'.trans owner, id'.trans id⟩
  · intro o' inBook' user
    have listed := both.mem_iff.mp (List.mem_map_of_mem inBook')
    obtain ⟨o, inBook, same'⟩ := List.mem_map.mp listed
    obtain ⟨owner, id⟩ := Prod.mk.inj same'
    rw [index, ← owner, ← id]
    exact mirrored.complete o inBook (by rwa [owner])
  · rw [index]
    exact mirrored.once
  · rw [index]
    exact mirrored.nonempty

omit [Zero R] [Add R] [Sub R] [Mul R] [LT R] [LE R] [DecidableLT R] [DecidableLE R] [BEq R] in
theorem Written.indexed {book book' : OrderBook R} {product : Str} {l : List (OrderBookEntry R)}
    (written : book.Written product book' l) (indexed : book.Indexed) : book'.Indexed := by
  refine ⟨written.mirrored indexed.toMirrored, ?_⟩
  rw [written.2.2.2]
  exact indexed.unlisted

/-- What a pass makes of its loops: the amounts are written, and when the loops have returned the
orders that have no positive amount left are taken out. -/
theorem matchAsksToBids_written (std : StdSort (EntryPtr R)) (book : OrderBook R)
    (product currentTimestamp : Str) (userStore : UserStore R) (nextId : Nat) :
    let q := passLoop std (book.orders product) product currentTimestamp userStore nextId
    let r := book.matchAsksToBids std product currentTimestamp userStore nextId
    r.result = q.result.map (fun _ => q.st.sales) ∧
    ∃ middle, book.Written product middle (writeBack (book.orders product) (q.bids ++ q.asks)) ∧
      r.book = match r.result with
        | .error _ => middle
        | .ok _ => middle.removeMatchedOrders product := by
  unfold matchAsksToBids
  cases found : book.orderMap.lookup product with
  | none =>
    have whole := getAllOrders_perm book product
    have none' := orders_of_lookup_none found
    have asks : sortedAsks std ([] : List (OrderBookEntry R)) = [] := (std.perm _ _).eq_nil
    have bids : sortedBids std ([] : List (OrderBookEntry R)) = [] := (std.perm _ _).eq_nil
    dsimp only
    rw [none'] at whole ⊢
    simp only [passLoop, asks, bids, askLoop]
    refine ⟨rfl, book.insertSales [], ⟨?_, whole, fun p => ?_, rfl⟩, ?_⟩
    · rw [none']
      exact .nil
    · split
      · subst_vars
        exact none'
      · rfl
    · simp [removeMatchedOrders, insertSales, found]
  | some orderList =>
    have list := orders_of_lookup found
    obtain ⟨sameBids, sameAsks⟩ := askLoop_same product currentTimestamp (sortedAsks std orderList)
      (sortedBids std orderList) ⟨userStore, nextId, [], []⟩
    have same := writeBack_sameOrder (List.rel_append sameBids sameAsks)
    rw [← list] at same
    dsimp only
    rw [list]
    cases outcome : (passLoop std orderList product currentTimestamp userStore nextId).result with
    | error e =>
      refine ⟨rfl, _, ⟨list ▸ same, ?_, ?_, ?_⟩, rfl⟩
      · exact getAllOrders_insert_perm book rfl
      · exact orders_insert book rfl
      · rfl
    | ok _ =>
      refine ⟨rfl, _, ⟨list ▸ same, ?_, ?_, ?_⟩, rfl⟩
      · exact getAllOrders_insert_perm book rfl
      · exact orders_insert book rfl
      · rfl

/-- How a pass changes the lists: it writes amounts, and when it returns it takes out the
orders that have no positive amount left. -/
theorem matchAsksToBids_lists (std : StdSort (EntryPtr R)) (book : OrderBook R)
    (product currentTimestamp : Str) (userStore : UserStore R) (nextId : Nat) :
    let r := book.matchAsksToBids std product currentTimestamp userStore nextId
    ∃ middle l, book.Written product middle l ∧
      r.book = match r.result with
        | .error _ => middle
        | .ok _ => middle.removeMatchedOrders product := by
  obtain ⟨-, middle, written, left⟩ :=
    matchAsksToBids_written std book product currentTimestamp userStore nextId
  exact ⟨middle, _, written, left⟩

theorem matchAsksToBids_mirrored {book : OrderBook R} (mirrored : book.Mirrored)
    (std : StdSort (EntryPtr R)) (product currentTimestamp : Str) (userStore : UserStore R)
    (nextId : Nat) :
    (book.matchAsksToBids std product currentTimestamp userStore nextId).book.Mirrored := by
  obtain ⟨middle, l, written, left⟩ :=
    matchAsksToBids_lists std book product currentTimestamp userStore nextId
  have amounts := written.mirrored mirrored
  rw [left]
  split
  · exact amounts
  · exact removeMatchedOrders_mirrored amounts product

theorem matchAsksToBids_indexed {book : OrderBook R} (indexed : book.Indexed)
    (std : StdSort (EntryPtr R)) (product currentTimestamp : Str) (userStore : UserStore R)
    (nextId : Nat) :
    (book.matchAsksToBids std product currentTimestamp userStore nextId).book.Indexed := by
  obtain ⟨middle, l, written, left⟩ :=
    matchAsksToBids_lists std book product currentTimestamp userStore nextId
  have amounts := written.indexed indexed
  rw [left]
  split
  · exact amounts
  · exact removeMatchedOrders_indexed amounts product

/-- A pass leaves some of the orders of every list, in their order, and of these it changes the
amounts only. -/
theorem matchAsksToBids_fields {α : Type} {f : OrderBookEntry R → α}
    (fixed : ∀ o x, f (o.withAmount x) = f o) (std : StdSort (EntryPtr R)) (book : OrderBook R)
    (product currentTimestamp : Str) (userStore : UserStore R) (nextId : Nat) (p : Str) :
    (((book.matchAsksToBids std product currentTimestamp userStore nextId).book.orders p).map f).Sublist
      ((book.orders p).map f) := by
  obtain ⟨middle, l, written, left⟩ :=
    matchAsksToBids_lists std book product currentTimestamp userStore nextId
  rw [← written.fields fixed p, left]
  split
  · exact List.Sublist.refl _
  · rw [removeMatchedOrders_orders]
    split
    · exact List.filter_sublist.map f
    · exact List.Sublist.refl _

/-- A pass leaves some of every user's references, in their order. -/
theorem matchAsksToBids_index (std : StdSort (EntryPtr R)) (book : OrderBook R)
    (product currentTimestamp : Str) (userStore : UserStore R) (nextId : Nat) (u : Str) :
    ((book.matchAsksToBids std product currentTimestamp userStore nextId).book.userOrders.get
      u []).Sublist (book.userOrders.get u []) := by
  obtain ⟨middle, l, ⟨-, -, -, index⟩, left⟩ :=
    matchAsksToBids_lists std book product currentTimestamp userStore nextId
  rw [← index, left]
  split
  · exact List.Sublist.refl _
  · rw [get_removeMatchedOrders]
    exact List.filter_sublist

/-- A pass takes ids for its sales from the same counter. -/
theorem matchAsksToBids_nextId (std : StdSort (EntryPtr R)) (book : OrderBook R)
    (product currentTimestamp : Str) (userStore : UserStore R) (nextId : Nat) :
    nextId ≤ (book.matchAsksToBids std product currentTimestamp userStore nextId).nextId := by
  unfold matchAsksToBids
  split
  · exact le_rfl
  · rename_i orderList found
    have later := askLoop_state product currentTimestamp
      (fun st st' : PassState R => st.nextId ≤ st'.nextId) (fun _ => le_rfl) le_trans
      (bidRound_nextId product currentTimestamp) (sortedAsks std orderList)
      (sortedBids std orderList) ⟨userStore, nextId, [], []⟩
    dsimp only
    split
    · exact later
    · exact later

end OrderBook

end MiniATS
