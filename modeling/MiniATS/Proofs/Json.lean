import MiniATS.Cxx.Json
import MiniATS.Misc.ListFacts

/-!
# Reading back what has been stored

A map is stored as an object and read back as a map with the same values at the same keys, if its
values are read back (`asMap_ofMap`), and not at all if one of them is not.
-/

namespace MiniATS

namespace Json

variable {R α β : Type}

section Lists

theorem mapM_ok {read : β → Except Exn α} {P : β → α → Prop} {l : List β}
    (every : ∀ x ∈ l, ∃ y, read x = .ok y ∧ P x y) :
    ∃ ys, l.mapM read = .ok ys ∧ List.Forall₂ P l ys := by
  induction l with
  | nil => exact ⟨[], rfl, List.Forall₂.nil⟩
  | cons x l ih =>
    obtain ⟨⟨y, first, holds⟩, others⟩ := List.forall_mem_cons.mp every
    obtain ⟨ys, rest, pairs⟩ := ih others
    refine ⟨y :: ys, ?_, List.Forall₂.cons holds pairs⟩
    rw [List.mapM_cons, first, rest]
    rfl

theorem mapM_error {read : β → Except Exn α} {l : List β} (some' : ∃ x ∈ l, ∃ e, read x = .error e) :
    ∃ e, l.mapM read = .error e := by
  induction l with
  | nil =>
    obtain ⟨x, member, -⟩ := some'
    exact absurd member List.not_mem_nil
  | cons x l ih =>
    rw [List.mapM_cons]
    cases first : read x with
    | error e => exact ⟨e, rfl⟩
    | ok y =>
      obtain ⟨x', member, e, fails⟩ := some'
      rcases List.mem_cons.mp member with rfl | later
      · rw [first] at fails
        cases fails
      · obtain ⟨e', rest⟩ := ih ⟨x', later, e, fails⟩
        rw [rest]
        exact ⟨e', rfl⟩

end Lists

section Objects

theorem nodup_of_ascending {keys : List Str} (ascending : keys.Pairwise (· < ·)) : keys.Nodup := by
  refine ascending.imp fun {a b} less same => ?_
  subst same
  exact List.lt_irrefl a less

theorem member_object {members : List (Str × Json R)} {key : Str} {v : Json R}
    (distinct : (members.map Prod.fst).Nodup) (listed : (key, v) ∈ members) :
    (object members).member key = some v := by
  unfold member
  cases found : members.find? (fun m => m.1 = key) with
  | none =>
    have := List.find?_eq_none.mp found (key, v) listed
    simp at this
  | some m =>
    have inList := List.mem_of_find?_eq_some found
    have same : m.1 = key := by simpa using List.find?_some found
    obtain rfl : m = (key, v) := List.inj_on_of_nodup_map distinct inList listed same
    exact congrArg (Option.map Prod.snd) found

theorem at_object {members : List (Str × Json R)} {key : Str} {v : Json R}
    (distinct : (members.map Prod.fst).Nodup) (listed : (key, v) ∈ members) :
    (object members).at' key = .ok v := by
  unfold at'
  rw [member_object distinct listed]

theorem mem_strings_object {members : List (Str × Json R)} {m : Str × Json R} (listed : m ∈ members)
    {s : Str} (within : s ∈ m.2.strings) : s ∈ (object members).strings := by
  rw [strings, memberStrings_eq]
  exact List.mem_flatMap.mpr ⟨m, listed, List.mem_cons_of_mem _ within⟩

theorem valid_object {members : List (Str × Json R)} (keys : ∀ key ∈ members.map Prod.fst, isUtf8 key)
    (values : ∀ m ∈ members, ∀ s ∈ m.2.strings, isUtf8 s) : ∀ s ∈ (object members).strings, isUtf8 s := by
  intro s within
  rw [strings, memberStrings_eq] at within
  obtain ⟨m, listed, within⟩ := List.mem_flatMap.mp within
  rcases List.mem_cons.mp within with rfl | within
  · exact keys m.1 (List.mem_map_of_mem listed)
  · exact values m listed s within

end Objects

section Maps

variable (m : KeyedMap Str α)

theorem mem_ofMap {f : α → Json R} {key : Str} {v : Json R} :
    (key, v) ∈ (m.entries.map fun e => (e.1, f e.2)).insertionSort (fun a b => a.1 ≤ b.1) ↔
      ∃ x, m.lookup key = some x ∧ f x = v := by
  rw [List.mem_insertionSort, List.mem_map]
  constructor
  · rintro ⟨⟨key', x⟩, inMap, eq⟩
    obtain ⟨rfl, rfl⟩ := Prod.mk.inj eq
    exact ⟨x, AList.mem_lookup_iff.mpr inMap, rfl⟩
  · rintro ⟨x, found, rfl⟩
    exact ⟨⟨key, x⟩, AList.mem_lookup_iff.mp found, rfl⟩

theorem ofMap_keys_nodup (f : α → Json R) :
    (((m.entries.map fun e => (e.1, f e.2)).insertionSort fun a b => a.1 ≤ b.1).map Prod.fst).Nodup := by
  refine ((List.perm_insertionSort _ _).map _).nodup_iff.mpr ?_
  rw [List.map_map]
  exact m.nodupKeys

theorem strings_ofMap {f : α → Json R} {s : Str} :
    s ∈ (ofMap f m).strings ↔ ∃ key x, m.lookup key = some x ∧ (s = key ∨ s ∈ (f x).strings) := by
  unfold ofMap
  rw [strings, memberStrings_eq, List.mem_flatMap]
  constructor
  · rintro ⟨⟨key, v⟩, listed, within⟩
    obtain ⟨x, found, rfl⟩ := (mem_ofMap m).mp listed
    exact ⟨key, x, found, List.mem_cons.mp within⟩
  · rintro ⟨key, x, found, within⟩
    exact ⟨(key, f x), (mem_ofMap m).mpr ⟨x, found, rfl⟩, List.mem_cons.mpr within⟩

private theorem keys_total : Std.Total fun a b : Str × Json R => a.1 ≤ b.1 :=
  ⟨fun a b => List.le_total a.1 b.1⟩

private theorem keys_trans : IsTrans (Str × Json R) fun a b => a.1 ≤ b.1 :=
  ⟨fun _ _ _ => List.le_trans⟩

theorem ordered_ofMap {f : α → Json R} (every : ∀ key x, m.lookup key = some x → (f x).Ordered) :
    (ofMap f m).Ordered := by
  have total := @keys_total R
  have trans := @keys_trans R
  unfold ofMap
  rw [Ordered, orderedMembers_iff]
  refine ⟨?_, fun v listed => ?_⟩
  · have sorted := (@List.pairwise_map _ _ Prod.fst (fun a b : Str => a ≤ b) _).mpr
      (List.pairwise_insertionSort (fun a b : Str × Json R => a.1 ≤ b.1)
        (m.entries.map fun e => (e.1, f e.2)))
    refine (sorted.and (ofMap_keys_nodup m f)).imp fun {a b} ⟨le, ne⟩ => ?_
    by_contra not
    exact ne (Std.Antisymm.antisymm a b le (List.not_lt.mp not))
  · obtain ⟨x, found, eq⟩ := (mem_ofMap m).mp (show (v.1, v.2) ∈ _ from listed)
    rw [← eq]
    exact every v.1 x found

theorem finitely_ofMap (isFinite : R → Bool) (f : α → Json R) :
    (ofMap f m).finitely isFinite = ofMap (fun x => (f x).finitely isFinite) m := by
  unfold ofMap
  rw [finitely, finiteMembers_eq]
  apply congrArg object
  refine (List.map_insertionSort (fun a b : Str × Json R => a.1 ≤ b.1) (fun a b : Str × Json R => a.1 ≤ b.1)
    (fun v => (v.1, v.2.finitely isFinite)) (m.entries.map fun e => (e.1, f e.2))
    fun _ _ _ _ => Iff.rfl).trans ?_
  rw [List.map_map]
  rfl

theorem ofMap_congr {f g : α → Json R} (same : ∀ key x, m.lookup key = some x → f x = g x) :
    ofMap f m = ofMap g m := by
  unfold ofMap
  rw [List.map_congr_left fun e listed => ?_]
  rw [same e.1 e.2 (AList.mem_lookup_iff.mpr listed)]

/-- The map of a list of values with distinct keys. -/
theorem lookup_foldr {l : List (Str × α)} (distinct : (l.map Prod.fst).Nodup) (key : Str) (x : α) :
    (l.foldr (fun p (m : KeyedMap Str α) => m.insert p.1 p.2) ∅).lookup key = some x ↔ (key, x) ∈ l := by
  induction l with
  | nil => simp
  | cons p l ih =>
    obtain ⟨fresh, distinct⟩ := List.nodup_cons.mp distinct
    rw [List.foldr_cons, KeyedMap.lookup_insert_eq, List.mem_cons]
    by_cases here : key = p.1
    · subst here
      rw [if_pos rfl]
      constructor
      · intro eq
        obtain rfl := Option.some.inj eq
        exact Or.inl rfl
      · rintro (eq | later)
        · exact congrArg some (congrArg Prod.snd eq).symm
        · exact absurd (List.mem_map_of_mem later) fresh
    · rw [if_neg here, ih distinct]
      constructor
      · exact Or.inr
      · rintro (eq | later)
        · exact absurd (congrArg Prod.fst eq) here
        · exact later

/-- A map whose values are read back is read back. -/
theorem asMap_ofMap {f : α → Json R} {read : Json R → Except Exn β} {P : α → β → Prop}
    (every : ∀ key x, m.lookup key = some x → ∃ y, read (f x) = .ok y ∧ P x y) :
    ∃ m', asMap read (ofMap f m) = .ok m' ∧ ∀ key, Option.Rel P (m.lookup key) (m'.lookup key) := by
  obtain ⟨values, ok, pairs⟩ := @mapM_ok _ _ (fun m => (read m.2).map fun x => (m.1, x))
    (fun (v : Str × Json R) (p : Str × β) => v.1 = p.1 ∧ ∃ x, m.lookup v.1 = some x ∧ P x p.2)
    ((m.entries.map fun e => (e.1, f e.2)).insertionSort fun a b => a.1 ≤ b.1) (by
      intro v listed
      obtain ⟨x, found, eq⟩ := (mem_ofMap m).mp (show (v.1, v.2) ∈ _ from listed)
      obtain ⟨y, ok, holds⟩ := every v.1 x found
      exact ⟨(v.1, y), by rw [← eq, ok]; rfl, rfl, x, found, holds⟩)
  have distinct : (values.map Prod.fst).Nodup := by
    have same := ListFacts.forall₂_map_eq (fun _ _ pair => pair.1) pairs
    rw [← same]
    exact ofMap_keys_nodup m f
  refine ⟨values.foldr (fun p m => m.insert p.1 p.2) ∅, ?_, fun key => ?_⟩
  · unfold ofMap
    simp only [asMap, ok]
    rfl
  · cases found : m.lookup key with
    | none =>
      have none' : (values.foldr (fun p m => m.insert p.1 p.2) (∅ : KeyedMap Str β)).lookup key = none := by
        by_contra some'
        obtain ⟨y, is⟩ := Option.ne_none_iff_exists'.mp some'
        obtain ⟨v, -, same, x, found', -⟩ :=
          ListFacts.forall₂_mem_right pairs ((lookup_foldr distinct key y).mp is)
        rw [same, found] at found'
        cases found'
      rw [none']
      exact Option.Rel.none
    | some x =>
      obtain ⟨p, member, same, x', found', holds⟩ :=
        ListFacts.forall₂_mem_left pairs ((mem_ofMap m).mpr ⟨x, found, rfl⟩)
      dsimp only at same found'
      obtain rfl := Option.some.inj (found.symm.trans found')
      rw [(lookup_foldr distinct key p.2).mpr (same ▸ member)]
      exact Option.Rel.some holds

theorem eq_of_rel {a b : Option α} (rel : Option.Rel (fun x y => y = x) a b) : b = a := by
  cases rel with
  | some eq => rw [eq]
  | none => rfl

/-- A map of which a value is not read back is not read back. -/
theorem asMap_ofMap_error {f : α → Json R} {read : Json R → Except Exn β} {key : Str} {x : α} {e : Exn}
    (found : m.lookup key = some x) (fails : read (f x) = .error e) :
    ∃ e, asMap read (ofMap f m) = .error e := by
  obtain ⟨e', failed⟩ := @mapM_error _ _ (fun m => (read m.2).map fun x => (m.1, x)) _
    ⟨(key, f x), (mem_ofMap m).mpr ⟨x, found, rfl⟩, e, by rw [fails]; rfl⟩
  refine ⟨e', ?_⟩
  unfold ofMap
  simp only [asMap, failed]
  rfl

end Maps

end Json

end MiniATS
