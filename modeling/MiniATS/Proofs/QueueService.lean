import MiniATS.Proofs.Meetings
import MiniATS.Proofs.ReturnedPass

/-!
# The two queues of a pass

A pass that returns serves two queues: the asks and the bids with a positive amount and a price that
compares, each in the order of `std::sort`. The first ask and the first bid trade the smaller of
their amounts as long as the ask is priced at or below the bid (`serve`), and what the loops leave
of the two sides is what is left of the queues (`meetAsks_serve`). The amounts are those that the
subtractions give, whether they round or not.
-/

namespace MiniATS

/-- What serving the queues relies on of the comparison of two numbers. Numbers that are in no
relation to themselves, as NaN, are left out. -/
class NumberOrder (R : Type) [LT R] [LE R] [BEq R] : Prop where
  lt_irrefl : ∀ x : R, ¬ x < x
  le_trans : ∀ x y z : R, x ≤ y → y ≤ z → x ≤ z
  le_of_not_lt : ∀ x y : R, x ≤ x → y ≤ y → ¬ y < x → x ≤ y
  comparable : ∀ x y : R, x ≤ y → x ≤ x ∧ y ≤ y
  le_of_beq : ∀ x y : R, (x == y) = true → x ≤ y ∧ y ≤ x

instance : NumberOrder ℚ where
  lt_irrefl := fun _ => lt_irrefl _
  le_trans := fun _ _ _ first second => first.trans second
  le_of_not_lt := fun _ _ _ _ notLess => not_lt.mp notLess
  comparable := fun _ _ _ => ⟨le_rfl, le_rfl⟩
  le_of_beq := fun _ _ same => ⟨(eq_of_beq same).le, (eq_of_beq same).ge⟩

instance : NumberOrder Float where
  lt_irrefl := fun x less => by
    obtain ⟨a, keyed, b, keyed', below⟩ := Float.lt_iff.mp less
    obtain rfl := Option.some.inj (keyed.symm.trans keyed')
    exact lt_irrefl _ below
  le_trans := fun x y z first second => by
    obtain ⟨a, keyed, b, keyed', most⟩ := Float.le_iff.mp first
    obtain ⟨b', keyed'', c, keyed₃, most'⟩ := Float.le_iff.mp second
    obtain rfl := Option.some.inj (keyed'.symm.trans keyed'')
    exact Float.le_iff.mpr ⟨a, keyed, c, keyed₃, most.trans most'⟩
  le_of_not_lt := fun x y number number' notLess => by
    obtain ⟨a, keyed, -⟩ := Float.le_iff.mp number
    obtain ⟨b, keyed', -⟩ := Float.le_iff.mp number'
    exact Float.le_iff.mpr ⟨a, keyed, b, keyed',
      not_lt.mp fun less => notLess (Float.lt_iff.mpr ⟨b, keyed', a, keyed, less⟩)⟩
  comparable := fun x y most => by
    obtain ⟨a, keyed, b, keyed', -⟩ := Float.le_iff.mp most
    exact ⟨Float.le_iff.mpr ⟨a, keyed, a, keyed, le_rfl⟩, Float.le_iff.mpr ⟨b, keyed', b, keyed', le_rfl⟩⟩
  le_of_beq := fun x y same => by
    obtain ⟨a, keyed, keyed'⟩ := Float.beq_iff.mp same
    exact ⟨Float.le_iff.mpr ⟨a, keyed, a, keyed', le_rfl⟩, Float.le_iff.mpr ⟨a, keyed', a, keyed, le_rfl⟩⟩

namespace OrderBook

section Cut

variable {R : Type}

/-- What is served of a queue: some orders from its front, and a part of the next one. -/
inductive Cut : List (EntryPtr R) → List (EntryPtr R) → Prop
  | whole (ps : List (EntryPtr R)) : Cut ps ps
  | part (p : EntryPtr R) (x : R) (ps : List (EntryPtr R)) : Cut (p :: ps) (p.withAmount x :: ps)
  | gone (p : EntryPtr R) {ps qs : List (EntryPtr R)} (rest : Cut ps qs) : Cut (p :: ps) qs

variable {ps qs rs : List (EntryPtr R)} {p q : EntryPtr R}

theorem Cut.trans (first : Cut ps qs) (second : Cut qs rs) : Cut ps rs := by
  induction first with
  | whole => exact second
  | part p x ps =>
    cases second with
    | whole => exact .part p x ps
    | part _ y => exact .part p y ps
    | gone _ rest => exact .gone p rest
  | gone p _ ih => exact .gone p (ih second)

theorem Cut.places (cut : Cut ps qs) : (qs.map fun p => p.pos).Sublist (ps.map fun p => p.pos) := by
  induction cut with
  | whole => exact List.Sublist.refl _
  | part p x ps => exact List.Sublist.refl _
  | gone p _ ih => exact ih.cons _

/-- When an order of the queue has been touched, those before it are gone. -/
theorem Cut.front (cut : Cut ps qs) (distinct : (ps.map fun p => p.pos).Nodup)
    (before : [p, q].Sublist ps) (touched : q ∉ qs) : ∀ r ∈ qs, r.pos ≠ p.pos := by
  induction cut with
  | whole => exact absurd (before.subset (by simp)) touched
  | part head x ps =>
    have later : q ∈ ps := by
      cases before with
      | cons _ rest => exact rest.subset (by simp)
      | cons_cons _ rest => exact rest.subset (by simp)
    exact absurd (List.mem_cons_of_mem _ later) touched
  | gone head cut ih =>
    obtain ⟨other, distinct'⟩ := List.nodup_cons.mp distinct
    cases before with
    | cons _ rest => exact ih distinct' rest touched
    | cons_cons _ rest =>
      intro r member same
      have place := cut.places.subset (List.mem_map_of_mem member)
      rw [same] at place
      exact other place

end Cut

section Queues

variable {R : Type} [Zero R]

/-- What a queue has left of the order at a place of the list. -/
def leftIn (qs : List (EntryPtr R)) (i : Nat) : R :=
  ((qs.find? fun p => p.pos == i).map fun p => p.entry.amount).getD 0

theorem leftIn_of_mem {qs : List (EntryPtr R)} (distinct : (qs.map fun p => p.pos).Nodup)
    {q : EntryPtr R} (member : q ∈ qs) : leftIn qs q.pos = q.entry.amount := by
  have found : qs.find? (fun p => p.pos == q.pos) = some q := by
    cases is : qs.find? (fun p => p.pos == q.pos) with
    | none => exact absurd (List.find?_eq_none.mp is q member) (by simp)
    | some p =>
      have place : p.pos = q.pos := by simpa using List.find?_some is
      rw [List.inj_on_of_nodup_map distinct (List.mem_of_find?_eq_some is) member place]
  unfold leftIn
  rw [found]
  rfl

theorem leftIn_of_gone {qs : List (EntryPtr R)} {i : Nat} (gone : ∀ q ∈ qs, q.pos ≠ i) :
    leftIn qs i = 0 := by
  unfold leftIn
  rw [List.find?_eq_none.mpr fun q member => by simpa using gone q member]
  rfl

variable [LT R]

/-- The same node, as it was or with nothing or a positive amount left. -/
def Spent (p q : EntryPtr R) : Prop :=
  SameNode p q ∧ (q = p ∨ q.entry.amount = 0 ∨ 0 < q.entry.amount)

theorem Spent.refl (p : EntryPtr R) : Spent p p := ⟨SameNode.refl p, Or.inl rfl⟩

theorem Spent.trans {p q r : EntryPtr R} (first : Spent p q) (second : Spent q r) : Spent p r := by
  refine ⟨first.1.trans second.1, ?_⟩
  rcases second.2 with rfl | left
  · exact first.2
  · exact Or.inr left

theorem forall₂_spent_refl (l : List (EntryPtr R)) : List.Forall₂ Spent l l :=
  List.forall₂_same.mpr fun p _ => Spent.refl p

variable [LE R]

/-- The order takes part: its amount is positive and its price compares. -/
def Tradable (p : EntryPtr R) : Prop := 0 < p.entry.amount ∧ p.entry.price ≤ p.entry.price

variable [DecidableLT R] [DecidableLE R]

instance (p : EntryPtr R) : Decidable (Tradable p) := inferInstanceAs (Decidable (_ ∧ _))

/-- The orders of a side that take part, in their order. -/
def queue (ps : List (EntryPtr R)) : List (EntryPtr R) := ps.filter fun p => decide (Tradable p)

variable {bid : EntryPtr R} {bids : List (EntryPtr R)}

theorem queue_cons_of_tradable (tradable : Tradable bid) : queue (bid :: bids) = bid :: queue bids :=
  List.filter_cons_of_pos (decide_eq_true tradable)

theorem queue_cons_of_not (idle : ¬ Tradable bid) : queue (bid :: bids) = queue bids :=
  List.filter_cons_of_neg (by simpa using idle)

theorem mem_queue {p : EntryPtr R} : p ∈ queue bids ↔ p ∈ bids ∧ Tradable p := by
  simp [queue]

/-- `std::sort` has put both sides in the order of its comparators. -/
def SidesOrdered (std : StdSort (EntryPtr R)) (l : List (OrderBookEntry R)) : Prop :=
  (sortedAsks std l).Pairwise (fun a b => OrderBookEntry.compareByPriceAsc b.entry a.entry = false) ∧
    (sortedBids std l).Pairwise (fun a b => OrderBookEntry.compareByPriceDesc b.entry a.entry = false)

/-- What an order that took part has left, read from the queue. -/
theorem leftIn_queue {ps qs : List (EntryPtr R)} (distinct : (ps.map fun p => p.pos).Nodup)
    (spent : List.Forall₂ Spent ps qs) {p : EntryPtr R} (member : p ∈ ps) (tradable : Tradable p) :
    ∃ q ∈ qs, q.pos = p.pos ∧ leftIn (queue qs) p.pos = q.entry.amount := by
  obtain ⟨q, inQs, same, amount⟩ := ListFacts.forall₂_mem_left spent member
  have place := same.entry.1
  have distinct' : (qs.map fun p => p.pos).Nodup := by
    rw [← ListFacts.forall₂_map_eq (fun _ _ related => related.1.entry.1.symm) spent]
    exact distinct
  refine ⟨q, inQs, place, ?_⟩
  rw [← place]
  have inQueue := distinct'.sublist (List.filter_sublist.map _ : ((queue qs).map fun p => p.pos).Sublist _)
  by_cases left : Tradable q
  · exact leftIn_of_mem inQueue (mem_queue.mpr ⟨inQs, left⟩)
  · have price : q.entry.price ≤ q.entry.price := by
      obtain ⟨x, rfl⟩ := same
      exact tradable.2
    have empty : q.entry.amount = 0 := by
      rcases amount with rfl | empty | positive
      · exact absurd tradable left
      · exact empty
      · exact absurd ⟨positive, price⟩ left
    rw [empty]
    refine leftIn_of_gone fun r inQueue' here => left ?_
    obtain ⟨inQs', tradable'⟩ := mem_queue.mp inQueue'
    rwa [← List.inj_on_of_nodup_map distinct' inQs' inQs here]

end Queues

section Service

variable {R : Type} [Sub R] [LT R] [LE R] [DecidableLT R] [DecidableLE R] [BEq R]

/-- The first ask trades with the bids from the front until it is used up, or no bid reaches it: what
is left of it, and of the bids. -/
def serveAsk : EntryPtr R → List (EntryPtr R) → Option (EntryPtr R) × List (EntryPtr R)
  | ask, [] => (some ask, [])
  | ask, bid :: bids =>
    if ask.entry.price ≤ bid.entry.price then
      if bid.entry.amount == ask.entry.amount then (none, bids)
      else if ask.entry.amount < bid.entry.amount then
        (none, bid.withAmount (bid.entry.amount - ask.entry.amount) :: bids)
      else serveAsk (ask.withAmount (ask.entry.amount - bid.entry.amount)) bids
    else (some ask, bid :: bids)

/-- The asks trade with the bids, each queue from its front, until the first ask and the first bid do
not: what is left of the queues. -/
def serve : List (EntryPtr R) → List (EntryPtr R) → List (EntryPtr R) × List (EntryPtr R)
  | [], bids => ([], bids)
  | ask :: asks, bids =>
    match serveAsk ask bids with
    | (none, bids') => serve asks bids'
    | (some ask', bids') => (ask' :: asks, bids')

/-- What is left of both queues of a list. -/
def served [Zero R] (std : StdSort (EntryPtr R)) (l : List (OrderBookEntry R)) :
    List (EntryPtr R) × List (EntryPtr R) :=
  serve (queue (sortedAsks std l)) (queue (sortedBids std l))

variable {ask ask' : EntryPtr R} {asks bids bids' : List (EntryPtr R)}

/-- An ask that does not reach the first bid stays as it is. -/
theorem serveAsk_of_apart (apart : ∀ bid ∈ bids.head?, ¬ ask.entry.price ≤ bid.entry.price) :
    serveAsk ask bids = (some ask, bids) := by
  cases bids with
  | nil => rfl
  | cons bid bids => exact if_neg (apart bid rfl)

/-- An ask of which something is left has the same price, and does not reach the first bid. -/
theorem serveAsk_some (rest : serveAsk ask bids = (some ask', bids')) :
    SameNode ask ask' ∧ ∀ bid ∈ bids'.head?, ¬ ask.entry.price ≤ bid.entry.price := by
  induction bids generalizing ask with
  | nil =>
    cases rest
    exact ⟨SameNode.refl _, nofun⟩
  | cons bid bids ih =>
    unfold serveAsk at rest
    split at rest
    · split at rest
      · cases rest
      split at rest
      · cases rest
      · obtain ⟨same, apart⟩ := ih rest
        exact ⟨.trans ⟨_, rfl⟩ same, apart⟩
    · rename_i apart
      cases rest
      refine ⟨SameNode.refl _, fun bid' first => ?_⟩
      obtain rfl := Option.some.inj first
      exact apart

/-- Queues whose first orders do not trade stay as they are. -/
theorem serve_of_apart
    (apart : ∀ ask ∈ asks.head?, ∀ bid ∈ bids.head?, ¬ ask.entry.price ≤ bid.entry.price) :
    serve asks bids = (asks, bids) := by
  cases asks with
  | nil => rfl
  | cons ask asks => simp only [serve, serveAsk_of_apart (apart ask rfl)]

theorem serveAsk_cut (ask : EntryPtr R) (bids : List (EntryPtr R)) : Cut bids (serveAsk ask bids).2 := by
  induction bids generalizing ask with
  | nil => exact .whole _
  | cons bid bids ih =>
    unfold serveAsk
    split
    · split
      · exact .gone _ (.whole _)
      split
      · exact .part _ _ _
      · exact .gone _ (ih _)
    · exact .whole _

/-- Both queues are served from the front. -/
theorem serve_cut (asks bids : List (EntryPtr R)) :
    Cut asks (serve asks bids).1 ∧ Cut bids (serve asks bids).2 := by
  induction asks generalizing bids with
  | nil => exact ⟨.whole _, .whole _⟩
  | cons ask asks ih =>
    have cut := serveAsk_cut ask bids
    unfold serve
    rcases front : serveAsk ask bids with ⟨_ | ask', bids'⟩
    · rw [front] at cut
      exact ⟨.gone _ (ih bids').1, cut.trans (ih bids').2⟩
    · rw [front] at cut
      obtain ⟨⟨x, rfl⟩, -⟩ := serveAsk_some front
      exact ⟨.part _ _ _, cut⟩

end Service

section Meetings

variable {R : Type} [Zero R] [Sub R] [LT R] [LE R] [BEq R] [AmountOrder R]
  {ask bid : EntryPtr R} {asks bids : List (EntryPtr R)}

theorem Tradable.large (tradable : Tradable bid) : ¬ bid.entry.amount ≤ 0 :=
  AmountOrder.not_le_of_pos _ tradable.1

theorem not_tradable_zero (p : EntryPtr R) : ¬ Tradable (p.withAmount 0) :=
  fun tradable => AmountOrder.not_le_of_pos _ tradable.1 AmountOrder.zero_le

variable [DecidableLT R] [DecidableLE R]

omit [DecidableLE R] in
/-- What a meeting leaves of its orders; an ask that is not used up has something left. -/
theorem deal_spent (open' : ¬ ask.entry.amount ≤ 0) (meets : Meets ask bid) :
    Spent ask (deal ask bid).ask ∧ Spent bid (deal ask bid).bid ∧
      ((deal ask bid).usesUp = false → ¬ (deal ask bid).ask.entry.amount ≤ 0) := by
  unfold deal
  split
  · exact ⟨⟨⟨0, rfl⟩, Or.inr (Or.inl rfl)⟩, ⟨⟨0, rfl⟩, Or.inr (Or.inl rfl)⟩, nofun⟩
  split
  · rename_i less
    have positive := (AmountOrder.pos_or_unordered _ open').resolve_right fun never => (never _).1 less
    exact ⟨⟨⟨0, rfl⟩, Or.inr (Or.inl rfl)⟩,
      ⟨⟨_, rfl⟩, Or.inr (Or.inr (AmountOrder.rest_pos _ _ positive less))⟩, nofun⟩
  split
  · rename_i more
    have positive := (AmountOrder.pos_or_unordered _ meets.1).resolve_right fun never => (never _).1 more
    have rest := AmountOrder.rest_pos _ _ positive more
    exact ⟨⟨⟨_, rfl⟩, Or.inr (Or.inr rest)⟩, ⟨⟨0, rfl⟩, Or.inr (Or.inl rfl)⟩,
      fun _ => AmountOrder.not_le_of_pos _ rest⟩
  · exact ⟨Spent.refl ask, Spent.refl bid, fun _ => open'⟩

theorem meetBids_spent (open' : ¬ ask.entry.amount ≤ 0) (bids : List (EntryPtr R)) :
    Spent ask (meetBids ask bids).ask ∧ List.Forall₂ Spent bids (meetBids ask bids).bids := by
  induction bids generalizing ask with
  | nil => exact ⟨Spent.refl ask, .nil⟩
  | cons bid bids ih =>
    unfold meetBids
    split
    · rename_i meets
      obtain ⟨spentAsk, spentBid, goesOn⟩ := deal_spent open' meets
      dsimp only
      split
      · exact ⟨spentAsk, .cons spentBid (forall₂_spent_refl bids)⟩
      · rename_i more
        obtain ⟨spentAsk', spentBids⟩ := ih (goesOn (Bool.not_eq_true _ ▸ more))
        exact ⟨spentAsk.trans spentAsk', .cons spentBid spentBids⟩
    · exact ⟨(ih open').1, .cons (Spent.refl bid) (ih open').2⟩

theorem meetAsks_spent (asks bids : List (EntryPtr R)) :
    List.Forall₂ Spent asks (meetAsks asks bids).asks ∧ List.Forall₂ Spent bids (meetAsks asks bids).bids := by
  induction asks generalizing bids with
  | nil => exact ⟨.nil, forall₂_spent_refl bids⟩
  | cons ask asks ih =>
    unfold meetAsks
    split
    · exact ⟨.cons (Spent.refl ask) (ih bids).1, (ih bids).2⟩
    · rename_i open'
      obtain ⟨spentAsk, spentBids⟩ := meetBids_spent open' bids
      obtain ⟨spentAsks, spentBids'⟩ := ih (meetBids ask bids).bids
      exact ⟨.cons spentAsk spentAsks, ListFacts.forall₂_trans spentBids spentBids' Spent.trans⟩

variable [NumberOrder R]

/-- An ask that takes part meets the bids as it is served from their queue. -/
theorem meetBids_serve (tradable : Tradable ask)
    (sorted : bids.Pairwise fun a b => ¬ a.entry.price < b.entry.price) :
    queue (meetBids ask bids).bids = (serveAsk ask (queue bids)).2 ∧
      queue [(meetBids ask bids).ask] = (serveAsk ask (queue bids)).1.toList := by
  induction bids generalizing ask with
  | nil => exact ⟨rfl, queue_cons_of_tradable tradable⟩
  | cons bid bids ih =>
    obtain ⟨lower, sorted'⟩ := List.pairwise_cons.mp sorted
    by_cases takesPart : Tradable bid
    swap
    · -- the bid does not take part, so nothing is traded with it
      rw [queue_cons_of_not takesPart]
      unfold meetBids
      split
      · rename_i meets
        have unordered : Unordered bid.entry.amount :=
          (AmountOrder.pos_or_unordered _ meets.1).resolve_left fun positive =>
            takesPart ⟨positive, (NumberOrder.comparable _ _ meets.2).2⟩
        simp only [deal_of_unordered (Or.inr unordered), Bool.false_eq_true, if_false,
          queue_cons_of_not takesPart]
        exact ih tradable sorted'
      · simp only [queue_cons_of_not takesPart]
        exact ih tradable sorted'
    rw [queue_cons_of_tradable takesPart]
    unfold meetBids
    by_cases prices : ask.entry.price ≤ bid.entry.price
    swap
    · -- the bid is out of reach, and so are those after it
      have apart : ∀ bid' ∈ (queue bids).head?, ¬ ask.entry.price ≤ bid'.entry.price := by
        intro bid' first reached
        obtain ⟨member, takesPart'⟩ := mem_queue.mp (List.mem_of_mem_head? first)
        exact prices (NumberOrder.le_trans _ _ _ reached
          (NumberOrder.le_of_not_lt _ _ takesPart'.2 takesPart.2 (lower bid' member)))
      have far : ¬ Meets ask bid := fun meets => prices meets.2
      obtain ⟨left, rest⟩ := ih tradable sorted'
      rw [serveAsk_of_apart apart] at left rest
      simp only [if_neg far, serveAsk, if_neg prices, queue_cons_of_tradable takesPart, left, rest]
      exact ⟨trivial, trivial⟩
    have meets : Meets ask bid := ⟨takesPart.large, prices⟩
    simp only [if_pos meets, serveAsk, if_pos prices]
    unfold deal
    by_cases same : (bid.entry.amount == ask.entry.amount) = true
    · simp only [same, if_true, queue_cons_of_not (not_tradable_zero _)]
      exact ⟨trivial, rfl⟩
    by_cases less : ask.entry.amount < bid.entry.amount
    · have rest : Tradable (bid.withAmount (bid.entry.amount - ask.entry.amount)) :=
        ⟨AmountOrder.rest_pos _ _ tradable.1 less, takesPart.2⟩
      simp only [same, less, if_true, if_false, Bool.false_eq_true,
        queue_cons_of_not (not_tradable_zero _), queue_cons_of_tradable rest]
      exact ⟨trivial, rfl⟩
    have more : bid.entry.amount < ask.entry.amount := by
      rcases AmountOrder.compare _ _ takesPart.1 tradable.1 with same' | more | less'
      · exact absurd same' same
      · exact more
      · exact absurd less' less
    have rest : Tradable (ask.withAmount (ask.entry.amount - bid.entry.amount)) :=
      ⟨AmountOrder.rest_pos _ _ takesPart.1 more, tradable.2⟩
    simp only [same, less, more, if_true, if_false, Bool.false_eq_true,
      queue_cons_of_not (not_tradable_zero _)]
    exact ih rest sorted'

/-- An ask that takes no part leaves the bids as they are. -/
theorem meetBids_of_not_tradable (bids : List (EntryPtr R)) (large : ¬ ask.entry.amount ≤ 0)
    (idle : ¬ Tradable ask) :
    (meetBids ask bids).ask = ask ∧ (meetBids ask bids).bids = bids := by
  refine meetBids_of_idle fun bid _ meets => deal_of_unordered (Or.inl ?_)
  exact (AmountOrder.pos_or_unordered _ large).resolve_left fun positive =>
    idle ⟨positive, (NumberOrder.comparable _ _ meets.2).1⟩

/-- What the meetings leave of the two sides is what is left of their queues. -/
theorem meetAsks_serve (sortedAsks : asks.Pairwise fun a b => ¬ b.entry.price < a.entry.price)
    (sortedBids : bids.Pairwise fun a b => ¬ a.entry.price < b.entry.price) :
    (queue (meetAsks asks bids).asks, queue (meetAsks asks bids).bids) =
      serve (queue asks) (queue bids) := by
  induction asks generalizing bids with
  | nil => rfl
  | cons ask asks ih =>
    obtain ⟨higher, sortedAsks'⟩ := List.pairwise_cons.mp sortedAsks
    have rest : ∀ bids' : List (EntryPtr R), _ → _ := fun bids' sorted => @ih bids' sortedAsks' sorted
    unfold meetAsks
    by_cases empty : ask.entry.amount ≤ 0
    · have idle : ¬ Tradable ask := fun tradable => tradable.large empty
      simp only [if_pos empty, queue_cons_of_not idle]
      exact rest bids sortedBids
    simp only [if_neg empty]
    by_cases tradable : Tradable ask
    swap
    · obtain ⟨isAsk, isBids⟩ := meetBids_of_not_tradable bids empty tradable
      simp only [isAsk, isBids, queue_cons_of_not tradable]
      exact rest bids sortedBids
    have sortedBids' : (meetBids ask bids).bids.Pairwise fun a b => ¬ a.entry.price < b.entry.price := by
      have prices := ListFacts.forall₂_map_eq (f := fun p : EntryPtr R => p.entry.price)
        (g := fun p => p.entry.price)
        (fun p q spent => by obtain ⟨x, rfl⟩ := spent.1; rfl) (meetBids_spent empty bids).2
      have kept := (List.pairwise_map (f := fun p : EntryPtr R => p.entry.price)
        (R := fun x y : R => ¬ x < y)).mpr sortedBids
      rw [prices] at kept
      exact List.pairwise_map.mp kept
    obtain ⟨left, isAsk⟩ := meetBids_serve tradable sortedBids
    have after := rest (meetBids ask bids).bids sortedBids'
    rw [queue_cons_of_tradable tradable, serve]
    rcases front : serveAsk ask (queue bids) with ⟨_ | ask', bids'⟩
    · -- the ask is used up, and the next one is served
      rw [front] at left isAsk
      have idle : ¬ Tradable (meetBids ask bids).ask := by
        intro tradable'
        rw [queue_cons_of_tradable tradable'] at isAsk
        cases isAsk
      rw [queue_cons_of_not idle, after, left]
    · -- no bid reaches the ask, nor any later ask
      rw [front] at left isAsk
      obtain ⟨-, apart⟩ := serveAsk_some front
      have tradable' : Tradable (meetBids ask bids).ask := by
        by_contra idle
        rw [queue_cons_of_not idle] at isAsk
        cases isAsk
      have apart' : ∀ later ∈ (queue asks).head?, ∀ bid ∈ bids'.head?,
          ¬ later.entry.price ≤ bid.entry.price := by
        intro later first bid front' reached
        obtain ⟨member, takesPart⟩ := mem_queue.mp (List.mem_of_mem_head? first)
        exact apart bid front' (NumberOrder.le_trans _ _ _
          (NumberOrder.le_of_not_lt _ _ tradable.2 takesPart.2 (higher later member)) reached)
      rw [left, serve_of_apart apart'] at after
      obtain ⟨isAsks, isBids⟩ := Prod.mk.inj after
      have head : (meetBids ask bids).ask = ask' := by
        rw [queue_cons_of_tradable tradable'] at isAsk
        exact (List.cons.inj isAsk).1
      rw [queue_cons_of_tradable tradable', isAsks, isBids, head]

end Meetings

end OrderBook

end MiniATS
