import MiniATS.Proofs.BookIndex

/-!
# A freshly loaded book

What the constructor of `OrderBook` makes of a file, whatever is in it: every order belongs to
`default` and is filed under its product, the ids are distinct and below `nextId`, every list
is in order of time and no user has an order in the index.
-/

namespace MiniATS

open CSVHandler OrderBookEntry

variable {R : Type}

section Sorting

/-- No later order of a list has an earlier timestamp. -/
def Chronological (l : List (OrderBookEntry R)) : Prop :=
  l.Pairwise (fun a b => a.timestamp ≤ b.timestamp)

theorem sortByTimestamp_perm (l : List (OrderBookEntry R)) : (sortByTimestamp l).Perm l :=
  List.perm_insertionSort _ l

theorem sortByTimestamp_chronological (l : List (OrderBookEntry R)) :
    Chronological (sortByTimestamp l) := by
  have total : Std.Total (fun a b : OrderBookEntry R => compareByTimestamp b a = false) :=
    ⟨fun a b => by simpa [compareByTimestamp] using List.le_total a.timestamp b.timestamp⟩
  have trans : IsTrans (OrderBookEntry R) (fun a b => compareByTimestamp b a = false) :=
    ⟨fun a b c => by simpa [compareByTimestamp] using List.le_trans⟩
  refine (List.pairwise_insertionSort _ l).imp fun {a b} before => ?_
  simpa [compareByTimestamp] using before

private theorem get_sortLoop (keys : List Str) (distinct : keys.Nodup)
    (m : KeyedMap Str (List (OrderBookEntry R))) (p : Str) :
    (keys.foldl (fun m product => m.insert product (sortByTimestamp (m.get product []))) m).get p [] =
      if p ∈ keys then sortByTimestamp (m.get p []) else m.get p [] := by
  induction keys generalizing m with
  | nil => simp
  | cons key keys ih =>
    obtain ⟨fresh, distinct'⟩ := List.nodup_cons.mp distinct
    rw [List.foldl_cons, ih distinct']
    by_cases same : p = key
    · subst same
      simp [fresh]
    · simp [same, KeyedMap.get_insert_ne _ _ _ same]

theorem get_sortLists (m : KeyedMap Str (List (OrderBookEntry R))) (p : Str) :
    (sortLists m).get p [] = sortByTimestamp (m.get p []) := by
  unfold sortLists
  rw [get_sortLoop m.keys m.nodupKeys]
  split
  · rfl
  · have missing : m.get p [] = [] := by
      rw [KeyedMap.get, AList.lookup_eq_none.mpr (by simpa [AList.mem_keys] using ‹_›)]
      rfl
    rw [missing]
    rfl

private theorem flat_sortLoop (keys : List Str) (m : KeyedMap Str (List (OrderBookEntry R))) :
    (keys.foldl (fun m product => m.insert product (sortByTimestamp (m.get product []))) m).flat.Perm
      m.flat := by
  induction keys generalizing m with
  | nil => exact List.Perm.refl _
  | cons key keys ih =>
    refine (ih _).trans ((KeyedMap.flat_insert_perm m key _).trans ?_)
    exact ((sortByTimestamp_perm _).append_right _).trans (KeyedMap.flat_perm m key).symm

theorem flat_sortLists (m : KeyedMap Str (List (OrderBookEntry R))) :
    (sortLists m).flat.Perm m.flat :=
  flat_sortLoop m.keys m

end Sorting

/-- What holds of the lists while a file is read from a given first id on. -/
structure Reading (first : Nat) (m : KeyedMap Str (List (OrderBookEntry R))) (nextId : Nat) : Prop where
  distinct : (m.flat.map (fun o => o.id)).Nodup
  filed : ∀ p, ∀ o ∈ m.get p [], o.product = p
  fresh : ∀ o ∈ m.flat, o.id < nextId
  default' : ∀ o ∈ m.flat, o.username = defaultUser
  later : first ≤ nextId

theorem Reading.insert {first nextId : Nat} {m : KeyedMap Str (List (OrderBookEntry R))}
    (reading : Reading first m nextId) {o : OrderBookEntry R} (id : o.id = nextId)
    (owner : o.username = defaultUser) :
    Reading first (m.insert o.product (m.get o.product [] ++ [o])) (nextId + 1) := by
  have perm : (KeyedMap.flat (m.insert o.product (m.get o.product [] ++ [o]))).Perm (o :: m.flat) := by
    apply (KeyedMap.flat_insert_perm m _ _).trans
    rw [List.append_assoc]
    exact List.perm_middle.trans ((KeyedMap.flat_perm m o.product).symm.cons o)
  refine ⟨?_, ?_, ?_, ?_, reading.later.trans (Nat.le_succ _)⟩
  · apply (perm.map _).nodup_iff.mpr
    simp only [List.map_cons, List.nodup_cons, List.mem_map, not_exists, not_and]
    exact ⟨fun o' member same => absurd (reading.fresh o' member) (by omega), reading.distinct⟩
  · intro p o' member
    rw [KeyedMap.get_insert] at member
    split at member
    · subst_vars
      rcases List.mem_append.mp member with old | new
      · exact reading.filed _ o' old
      · rw [List.mem_singleton.mp new]
    · exact reading.filed p o' member
  · intro o' member
    rcases List.mem_cons.mp (perm.mem_iff.mp member) with rfl | old
    · omega
    · exact Nat.lt_succ_of_lt (reading.fresh o' old)
  · intro o' member
    rcases List.mem_cons.mp (perm.mem_iff.mp member) with rfl | old
    · exact owner
    · exact reading.default' o' old

theorem parseLine_ok {env : Env R} {tokens : List Str} {nextId nextId' : Nat} {o : OrderBookEntry R}
    (parsed : parseLine env tokens nextId = .ok (o, nextId')) :
    o.id = nextId ∧ o.username = defaultUser ∧ nextId' = nextId + 1 := by
  unfold parseLine at parsed
  split at parsed
  · split at parsed
    · cases parsed
    · split at parsed
      · simp only [make, Except.ok.injEq, Prod.mk.injEq] at parsed
        obtain ⟨rfl, rfl⟩ := parsed
        exact ⟨rfl, rfl, rfl⟩
      · cases parsed
  · cases parsed

theorem readLines_reading {env : Env R} {first : Nat} (lines : List Str)
    {m m' : KeyedMap Str (List (OrderBookEntry R))} {nextId nextId' : Nat}
    (reading : Reading first m nextId) (read : readLines env lines m nextId = .ok (m', nextId')) :
    Reading first m' nextId' := by
  induction lines generalizing m nextId with
  | nil =>
    obtain ⟨rfl, rfl⟩ : m = m' ∧ nextId = nextId' := by simpa [readLines] using read
    exact reading
  | cons line lines ih =>
    simp only [readLines] at read
    split at read
    · cases read
    · split at read
      · exact ih reading read
      · obtain ⟨id, owner, rfl⟩ := parseLine_ok ‹_›
        exact ih (reading.insert id owner) read

/-- A book as the constructor leaves it. -/
structure Loaded (book : OrderBook R) (nextId : Nat) : Prop where
  indexed : book.Indexed
  fresh : ∀ o ∈ book.getAllOrders, o.id < nextId
  default' : ∀ o ∈ book.getAllOrders, o.username = defaultUser
  chronological : ∀ p, Chronological (book.orders p)

theorem OrderBook.make_loaded {env : Env R} {filename : Str} {file : Option Str} {first nextId : Nat}
    {book : OrderBook R} (made : OrderBook.make env filename file first = .ok (book, nextId)) :
    Loaded book nextId := by
  unfold OrderBook.make readCSV at made
  cases read : readLines env (Str.getlines 10 (file.getD [])) ∅ first with
  | error e =>
    rw [read] at made
    cases made
  | ok r =>
    obtain ⟨entries, nextId'⟩ := r
    rw [read] at made
    obtain ⟨rfl, rfl⟩ : ⟨filename, [], sortLists entries, ∅⟩ = book ∧ nextId' = nextId := by
      simpa using made
    have empty : Reading first (∅ : KeyedMap Str (List (OrderBookEntry R))) first :=
      ⟨by simp, by simp, by simp, by simp, le_rfl⟩
    have reading := readLines_reading _ empty read
    have perm := flat_sortLists entries
    have owners : ∀ o ∈ (sortLists entries).flat, o.username = defaultUser :=
      fun o member => reading.default' o (perm.mem_iff.mp member)
    refine ⟨⟨⟨?_, ?_, ?_, ?_, ?_, ?_⟩, ?_⟩, fun o member => reading.fresh o (perm.mem_iff.mp member),
      owners, ?_⟩
    · exact (perm.map _).nodup_iff.mpr reading.distinct
    · intro p o member
      rw [orders, get_sortLists] at member
      exact reading.filed p o ((sortByTimestamp_perm _).mem_iff.mp member)
    · intro u i listed
      simp at listed
    · intro o member user
      exact absurd (owners o member) user
    · intro u
      simp
    · intro u vec found
      simp at found
    · simp
    · intro p
      rw [orders, get_sortLists]
      exact sortByTimestamp_chronological _

/-- Loaded orders are not in the index. -/
theorem OrderBook.make_userOrders {env : Env R} {filename : Str} {file : Option Str}
    {first nextId : Nat} {book : OrderBook R}
    (made : OrderBook.make env filename file first = .ok (book, nextId)) : book.userOrders = ∅ := by
  unfold OrderBook.make at made
  split at made
  · cases made
  · obtain ⟨rfl, -⟩ := Prod.mk.inj (Except.ok.inj made)
    rfl

end MiniATS
