import Mathlib.Data.List.AList
import Mathlib.Algebra.BigOperators.Group.Finset.Basic
import Mathlib.Algebra.BigOperators.Group.Finset.Piecewise

/-!
# Finite maps with a default value

Mathlib's `AList` is a finite map whose keys are distinct by construction. Programs that
index their maps with C++'s `operator[]` read a missing key as the value-initialised
element, so the facts here are about `at`, the value a key stands for, rather than about
`lookup`. For maps of lists, `flat` is the concatenation of all the lists; the two
permutations below split it into the list at one key and the rest, which is how an
operation on one list is seen in a property of all of them.
-/

universe u v

/-- A finite map with one value type. -/
abbrev KeyedMap (κ : Type u) (α : Type v) := AList (fun _ : κ => α)

namespace KeyedMap

variable {κ : Type u} {α : Type v} [DecidableEq κ]

/-- Maps are compared by their entries; unlike Mathlib's instance this one evaluates. -/
instance [DecidableEq α] : DecidableEq (KeyedMap κ α) := fun m m' =>
  decidable_of_iff (m.entries = m'.entries) AList.ext_iff.symm

/-- The value at a key, `default` where the key is missing. -/
def get (m : KeyedMap κ α) (k : κ) (default : α) : α := (m.lookup k).getD default

@[simp] theorem get_empty (k : κ) (d : α) : get (∅ : KeyedMap κ α) k d = d := by
  simp [get]

theorem get_insert (m : KeyedMap κ α) (k k' : κ) (v d : α) :
    get (m.insert k v) k' d = if k' = k then v else get m k' d := by
  by_cases same : k' = k
  · subst same
    simp [get, AList.lookup_insert]
  · simp [get, same, AList.lookup_insert_ne same]

@[simp] theorem get_insert_self (m : KeyedMap κ α) (k : κ) (v d : α) :
    get (m.insert k v) k d = v := by
  rw [get_insert, if_pos rfl]

theorem get_insert_ne (m : KeyedMap κ α) {k k' : κ} (v d : α) (different : k' ≠ k) :
    get (m.insert k v) k' d = get m k' d := by
  rw [get_insert, if_neg different]

theorem get_erase (m : KeyedMap κ α) (k k' : κ) (d : α) :
    get (m.erase k) k' d = if k' = k then d else get m k' d := by
  by_cases same : k' = k
  · subst same
    simp [get, AList.lookup_erase]
  · simp [get, same, AList.lookup_erase_ne same]

theorem get_of_lookup {m : KeyedMap κ α} {k : κ} {v : α} (found : m.lookup k = some v) (d : α) :
    get m k d = v := by
  simp [get, found]

theorem forall_lookup {m : KeyedMap κ α} {P : κ → α → Prop} :
    (∀ e ∈ m.entries, P e.1 e.2) ↔ ∀ k v, m.lookup k = some v → P k v := by
  constructor
  · exact fun every k v found => every ⟨k, v⟩ (AList.mem_lookup_iff.mp found)
  · exact fun every e listed => every e.1 e.2 (AList.mem_lookup_iff.mpr listed)

instance {m : KeyedMap κ α} {P : κ → α → Prop} [∀ k v, Decidable (P k v)] :
    Decidable (∀ k v, m.lookup k = some v → P k v) :=
  decidable_of_iff _ forall_lookup

theorem lookup_insert_eq (m : KeyedMap κ α) (k k' : κ) (v : α) :
    (m.insert k v).lookup k' = if k' = k then some v else m.lookup k' := by
  by_cases same : k' = k
  · subst same
    simp [AList.lookup_insert]
  · simp [same, AList.lookup_insert_ne same]

theorem length_insert_le (m : KeyedMap κ α) (k : κ) (v : α) :
    (m.insert k v).keys.length ≤ m.keys.length + 1 := by
  rw [AList.keys_insert, List.length_cons]
  have := List.length_erase_le (a := k) (l := m.keys)
  omega

theorem length_insert_of_lookup {m : KeyedMap κ α} {k : κ} {v : α} (found : m.lookup k = some v)
    (v' : α) : (m.insert k v').keys.length = m.keys.length := by
  have known : k ∈ m := AList.lookup_isSome.mp (by simp [found])
  rw [AList.keys_insert, List.length_cons, List.length_erase_of_mem (AList.mem_keys.mp known)]
  have := List.length_pos_of_mem (AList.mem_keys.mp known)
  omega

section Flat

variable {β : Type v}

/-- All the elements of a map of lists. -/
def flat (m : KeyedMap κ (List β)) : List β := m.entries.flatMap (fun entry => entry.2)

omit [DecidableEq κ] in
@[simp] theorem flat_empty : flat (∅ : KeyedMap κ (List β)) = [] := rfl

theorem flat_insert_perm (m : KeyedMap κ (List β)) (k : κ) (l : List β) :
    (flat (m.insert k l)).Perm (l ++ flat (m.erase k)) := by
  rw [flat, AList.entries_insert, List.flatMap_cons]
  exact List.Perm.refl _

private theorem entries_perm_of_lookup (m : KeyedMap κ (List β)) {k : κ} {l : List β}
    (found : m.lookup k = some l) :
    m.entries.Perm (⟨k, l⟩ :: (m.erase k).entries) := by
  have member : k ∈ m.entries.keys := by
    have := AList.lookup_isSome.mp (show (m.lookup k).isSome by simp [found])
    simpa [AList.mem_keys, AList.keys] using this
  obtain ⟨v, before, after, notBefore, split, erased⟩ := List.exists_of_kerase member
  have value : v = l := by
    have memberSplit : (⟨k, v⟩ : Sigma fun _ : κ => List β) ∈ m.entries := by simp [split]
    have := (AList.mem_lookup_iff (s := m)).mpr memberSplit
    rw [found] at this
    simpa using this.symm
  subst value
  show m.entries.Perm (⟨k, v⟩ :: List.kerase k m.entries)
  rw [erased, split]
  exact List.perm_middle

theorem flat_perm (m : KeyedMap κ (List β)) (k : κ) :
    (flat m).Perm (get m k [] ++ flat (m.erase k)) := by
  cases found : m.lookup k with
  | none =>
    have missing : m.erase k = m := by
      apply AList.ext
      have : k ∉ m.entries.keys := by
        simpa [AList.mem_keys, AList.keys] using AList.lookup_eq_none.mp found
      exact List.kerase_of_notMem_keys this
    simp [get, found, missing]
  | some l =>
    have := (entries_perm_of_lookup m found).flatMap_right (fun entry => entry.2)
    simpa [flat, get, found] using this

theorem mem_flat {m : KeyedMap κ (List β)} {x : β} :
    x ∈ flat m ↔ ∃ k, x ∈ get m k [] := by
  constructor
  · intro member
    obtain ⟨⟨k, l⟩, entry, inList⟩ := List.mem_flatMap.mp member
    have found : m.lookup k = some l := AList.mem_lookup_iff.mpr entry
    exact ⟨k, by rwa [get_of_lookup found]⟩
  · rintro ⟨k, member⟩
    exact (flat_perm m k).mem_iff.mpr (List.mem_append_left _ member)

theorem mem_flat_of_get {m : KeyedMap κ (List β)} {k : κ} {x : β} (member : x ∈ get m k []) :
    x ∈ flat m :=
  mem_flat.mpr ⟨k, member⟩

section Filed

variable {m : KeyedMap κ (List β)} {key : β → κ}

/-- Where every element is filed under its key, the elements with a key are the list there. -/
theorem filter_flat (filed : ∀ k, ∀ x ∈ get m k [], key x = k) (k : κ) :
    (flat m).filter (fun x => key x = k) = get m k [] := by
  have entry : ∀ e ∈ m.entries, ∀ x ∈ e.2, key x = e.1 := by
    intro e listed x member
    apply filed e.1 x
    rwa [get_of_lookup (AList.mem_lookup_iff.mpr listed)]
  have distinct := m.nodupKeys
  unfold flat get AList.lookup
  generalize m.entries = entries at entry distinct
  induction entries with
  | nil => rfl
  | cons e entries ih =>
    obtain ⟨here, later⟩ := List.forall_mem_cons.mp entry
    obtain ⟨fresh, distinct'⟩ := List.nodupKeys_cons.mp distinct
    rw [List.flatMap_cons, List.filter_append, ih later distinct']
    by_cases same : e.1 = k
    · subst same
      rw [List.dlookup_cons_eq, List.dlookup_eq_none.mpr fresh, List.filter_eq_self.mpr]
      · simp
      · exact fun x member => decide_eq_true (here x member)
    · rw [List.dlookup_cons_ne _ _ (Ne.symm same), List.filter_eq_nil_iff.mpr]
      · rfl
      · intro x member
        rw [decide_eq_true_eq, here x member]
        exact same

end Filed

end Flat

end KeyedMap
