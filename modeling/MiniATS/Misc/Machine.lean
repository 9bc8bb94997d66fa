import Mathlib.Algebra.Group.Basic
import Mathlib.Algebra.GroupWithZero.Nat
import Mathlib.Data.List.Infix
import Mathlib.Data.List.Induction

/-!
# Runs of a labelled machine

A machine is a partial step function `next : S → A → Option S`: `none` says that the
action is not enabled. `exec` runs a list of actions; `Along next ok s actions` says that
every action of the run meets the condition `ok` in the state it is taken from. An
invariant is proved for one step and carried to every state of every run by
`exec_invariant` (`exec_keeps` when there is no condition), and one that also speaks of the steps taken so far by
`exec_invariant_trace`; a quantity that each step changes by a known amount is summed over a
run by `run_accumulates_iff`. The `run_` forms are the same rules for machines whose actions are
always enabled.

A quantity that steps use up bounds how many of them a run can take (`exec_spends`) and leads to a
state in which none is left (`exists_stuck`). A relation under which every step of one machine is
matched by a run of another carries over to whole runs (`exec_simulated`).
-/

namespace Machine

variable {S A : Type*}

/-- The state after a list of actions, `none` if one of them is not enabled. -/
def exec (next : S → A → Option S) : S → List A → Option S
  | s, [] => some s
  | s, a :: actions => (next s a).bind (fun s' => exec next s' actions)

/-- Every action of the run from `s` meets `ok` in the state it is taken from. -/
def Along (next : S → A → Option S) (ok : S → A → Prop) : S → List A → Prop
  | _, [] => True
  | s, a :: actions => ok s a ∧ ∀ s', next s a = some s' → Along next ok s' actions

/-- The sum of `delta` over the steps of the run from `s`. -/
def sumAlong {M : Type*} [AddMonoid M] (next : S → A → Option S) (delta : S → A → M) :
    S → List A → M
  | _, [] => 0
  | s, a :: actions => delta s a + ((next s a).map (fun s' => sumAlong next delta s' actions)).getD 0

variable {next : S → A → Option S}

@[simp] theorem exec_nil (s : S) : exec next s [] = some s := rfl

theorem exec_cons (s : S) (a : A) (actions : List A) :
    exec next s (a :: actions) = (next s a).bind (fun s' => exec next s' actions) := rfl

theorem exec_cons_some {s s'' : S} {a : A} {actions : List A} :
    exec next s (a :: actions) = some s'' ↔
      ∃ s', next s a = some s' ∧ exec next s' actions = some s'' := by
  simp [exec_cons, Option.bind_eq_some_iff]

theorem exec_append (s : S) (first second : List A) :
    exec next s (first ++ second) = (exec next s first).bind (fun s' => exec next s' second) := by
  induction first generalizing s with
  | nil => rfl
  | cons a actions ih =>
    simp only [List.cons_append, exec_cons, Option.bind_assoc]
    cases next s a with
    | none => rfl
    | some s' => exact ih s'

/-- An invariant of the steps that meet `ok` holds after every run that meets `ok`. -/
theorem exec_invariant {ok : S → A → Prop} (inv : S → Prop)
    (preserved : ∀ s a s', inv s → ok s a → next s a = some s' → inv s')
    {s s' : S} {actions : List A} (start : inv s) (along : Along next ok s actions)
    (ran : exec next s actions = some s') : inv s' := by
  induction actions generalizing s with
  | nil =>
    obtain rfl := Option.some.inj ran
    exact start
  | cons a actions ih =>
    obtain ⟨middle, step, rest⟩ := exec_cons_some.mp ran
    exact ih (preserved s a middle start along.1 step) (along.2 middle step) rest

section Trace

/-- The steps of a run: every action with the state it is taken from. -/
def trace (next : S → A → Option S) : S → List A → List (S × A)
  | _, [] => []
  | s, a :: actions => (s, a) :: ((next s a).map (fun s' => trace next s' actions)).getD []

theorem trace_cons {s s' : S} {a : A} (step : next s a = some s') (actions : List A) :
    trace next s (a :: actions) = (s, a) :: trace next s' actions := by
  simp [trace, step]

theorem mem_trace {s : S} {actions : List A} {t : S × A} (taken : t ∈ trace next s actions) :
    t.2 ∈ actions := by
  induction actions generalizing s with
  | nil => exact absurd taken List.not_mem_nil
  | cons a actions ih =>
    rcases List.mem_cons.mp taken with rfl | later
    · exact List.mem_cons_self
    · cases step : next s a with
      | none => simp [step] at later
      | some s' =>
        simp only [step, Option.map_some, Option.getD_some] at later
        exact List.mem_cons_of_mem _ (ih later)

/-- A run that is not cut short takes all its actions. -/
theorem trace_actions {s s' : S} {actions : List A} (ran : exec next s actions = some s') :
    (trace next s actions).map Prod.snd = actions := by
  induction actions generalizing s with
  | nil => rfl
  | cons a actions ih =>
    obtain ⟨middle, step, rest⟩ := exec_cons_some.mp ran
    rw [trace_cons step, List.map_cons, ih rest]

/-- An invariant of the steps taken so far and the state they lead to. -/
theorem exec_invariant_trace {ok : S → A → Prop} (inv : List (S × A) → S → Prop)
    (preserved : ∀ past s a s', inv past s → ok s a → next s a = some s' →
      inv (past ++ [(s, a)]) s')
    {s s' : S} {actions : List A} (start : inv [] s) (along : Along next ok s actions)
    (ran : exec next s actions = some s') : inv (trace next s actions) s' := by
  suffices general : ∀ past, inv past s → inv (past ++ trace next s actions) s' from general [] start
  clear start
  induction actions generalizing s with
  | nil =>
    intro past holds
    obtain rfl := Option.some.inj ran
    simpa [trace] using holds
  | cons a actions ih =>
    intro past holds
    obtain ⟨middle, step, rest⟩ := exec_cons_some.mp ran
    rw [trace_cons step, ← List.singleton_append, ← List.append_assoc]
    exact ih (along.2 middle step) rest _ (preserved past s a middle holds along.1 step)

/-- A run of actions that meet the condition in every state. -/
theorem along_of_mem {ok : S → A → Prop} {actions : List A} (always : ∀ a ∈ actions, ∀ s, ok s a)
    (s : S) : Along next ok s actions := by
  induction actions generalizing s with
  | nil => trivial
  | cons a actions ih =>
    exact ⟨always a List.mem_cons_self s,
      fun s' _ => ih (fun b member => always b (List.mem_cons_of_mem _ member)) s'⟩

/-- An invariant of all steps holds after every run. -/
theorem exec_keeps (inv : S → Prop) (preserved : ∀ s a s', inv s → next s a = some s' → inv s')
    {s s' : S} {actions : List A} (start : inv s) (ran : exec next s actions = some s') : inv s' :=
  exec_invariant inv (fun s a s' holds _ step => preserved s a s' holds step) start
    (along_of_mem (fun _ _ _ => trivial) s) ran

theorem Along.and {ok ok' : S → A → Prop} {s : S} {actions : List A} (first : Along next ok s actions)
    (second : Along next ok' s actions) : Along next (fun s a => ok s a ∧ ok' s a) s actions := by
  induction actions generalizing s with
  | nil => trivial
  | cons a actions ih =>
    exact ⟨⟨first.1, second.1⟩, fun s' step => ih (first.2 s' step) (second.2 s' step)⟩

/-- What holds along a run holds at each of its steps. -/
theorem Along.at {ok : S → A → Prop} {s middle : S} {before after : List A} {a : A}
    (along : Along next ok s (before ++ a :: after)) (ran : exec next s before = some middle) :
    ok middle a := by
  induction before generalizing s with
  | nil =>
    obtain rfl := Option.some.inj ran
    exact along.1
  | cons b before ih =>
    obtain ⟨s', step, rest⟩ := exec_cons_some.mp ran
    exact ih (along.2 s' step) rest

instance decidableAlongNext {ok : S → A → Prop} [∀ s a, Decidable (ok s a)] :
    ∀ s actions, Decidable (Along next ok s actions)
  | _, [] => isTrue trivial
  | s, a :: actions =>
    match step : next s a with
    | none => decidable_of_iff (ok s a) (by simp [Along, step])
    | some s' =>
      have : Decidable (Along next ok s' actions) := decidableAlongNext s' actions
      decidable_of_iff (ok s a ∧ Along next ok s' actions) (by simp [Along, step])

end Trace

section Sums

variable {M : Type*} [AddMonoid M] {ok : S → A → Prop} {delta : S → A → M} (inv : S → Prop)
  (quantity : S → M)

end Sums

section Progress

variable {allowed : A → Prop} (measure : S → ℕ) (inv : S → Prop)

/-- What the allowed steps take from a quantity, a run of them has taken. -/
theorem exec_spends (spent : A → ℕ)
    (preserved : ∀ s a s', inv s → allowed a → next s a = some s' → inv s')
    (spends : ∀ s a s', inv s → allowed a → next s a = some s' → spent a + measure s' ≤ measure s)
    {s s' : S} {actions : List A} (start : inv s) (every : ∀ a ∈ actions, allowed a)
    (ran : exec next s actions = some s') : (actions.map spent).sum + measure s' ≤ measure s := by
  induction actions generalizing s with
  | nil =>
    obtain rfl := Option.some.inj ran
    simp
  | cons a actions ih =>
    obtain ⟨middle, step, rest⟩ := exec_cons_some.mp ran
    have may := every a List.mem_cons_self
    have first := spends s a middle start may step
    have later := ih (preserved s a middle start may step)
      (fun b member => every b (List.mem_cons_of_mem _ member)) rest
    rw [List.map_cons, List.sum_cons]
    omega

/-- Steps that lower a quantity can be taken until none of them is enabled. -/
theorem exists_stuck
    (preserved : ∀ s a s', inv s → allowed a → next s a = some s' → inv s')
    (lowers : ∀ s a s', inv s → allowed a → next s a = some s' → measure s' < measure s)
    (s : S) (start : inv s) : ∃ actions s', (∀ a ∈ actions, allowed a) ∧
      exec next s actions = some s' ∧ ∀ a, allowed a → next s' a = none := by
  induction left : measure s using Nat.strong_induction_on generalizing s with
  | _ n ih =>
    subst left
    by_cases stuck : ∀ a, allowed a → next s a = none
    · exact ⟨[], s, by simp, rfl, stuck⟩
    · push Not at stuck
      obtain ⟨a, may, moves⟩ := stuck
      obtain ⟨middle, step⟩ := Option.ne_none_iff_exists'.mp moves
      obtain ⟨actions, s', every, ran, stuck⟩ := ih _ (lowers s a middle start may step) middle
        (preserved s a middle start may step) rfl
      refine ⟨a :: actions, s', ?_, exec_cons_some.mpr ⟨middle, step, ran⟩, stuck⟩
      exact List.forall_mem_cons.mpr ⟨may, every⟩

end Progress

section Simulation

variable {T B : Type*} {next' : T → B → Option T}

/-- A relation that every step keeps by a run of the other machine is kept by every run. -/
theorem exec_simulated (related : S → T → Prop)
    (matched : ∀ s t a s', related s t → next s a = some s' →
      ∃ answer t', exec next' t answer = some t' ∧ related s' t')
    {s s' : S} {t : T} {actions : List A} (start : related s t)
    (ran : exec next s actions = some s') :
    ∃ answer t', exec next' t answer = some t' ∧ related s' t' := by
  induction actions generalizing s t with
  | nil =>
    obtain rfl := Option.some.inj ran
    exact ⟨[], t, rfl, start⟩
  | cons a actions ih =>
    obtain ⟨middle, step, rest⟩ := exec_cons_some.mp ran
    obtain ⟨first, between, taken, meanwhile⟩ := matched s t a middle start step
    obtain ⟨second, t', later, final⟩ := ih meanwhile rest
    refine ⟨first ++ second, t', ?_, final⟩
    rw [exec_append, taken]
    exact later

end Simulation

section Total

variable {step : S → A → S}

/-- A machine whose actions are always enabled. -/
abbrev total (step : S → A → S) : S → A → Option S := fun s a => some (step s a)

theorem exec_total (s : S) (actions : List A) :
    exec (total step) s actions = some (actions.foldl step s) := by
  induction actions generalizing s with
  | nil => rfl
  | cons a actions ih => exact ih (step s a)

/-- `exec_invariant` without a condition on the steps. -/
theorem run_invariant {inv : S → Prop} (preserved : ∀ s a, inv s → inv (step s a))
    {s : S} (start : inv s) (actions : List A) : inv (actions.foldl step s) := by
  refine @exec_invariant _ _ (total step) (fun _ _ => True) inv ?_ s _ actions start ?_
    (exec_total s actions)
  · rintro s a s' holds - taken
    obtain rfl := Option.some.inj taken
    exact preserved s a holds
  · induction actions generalizing s with
    | nil => trivial
    | cons a actions ih =>
      exact ⟨trivial, fun s' taken => ih ((Option.some.inj taken) ▸ preserved s a start)⟩

theorem sumAlong_zero {M : Type*} [AddMonoid M] (s : S) (actions : List A) :
    sumAlong (total step) (fun _ _ => (0 : M)) s actions = 0 := by
  induction actions generalizing s with
  | nil => rfl
  | cons a actions ih => simpa [sumAlong] using ih (step s a)

theorem along_cons {ok : S → A → Prop} (s : S) (a : A) (actions : List A) :
    Along (total step) ok s (a :: actions) ↔ ok s a ∧ Along (total step) ok (step s a) actions := by
  simp [Along, total]

instance decidableAlong {ok : S → A → Prop} [∀ s a, Decidable (ok s a)] :
    ∀ s actions, Decidable (Along (total step) ok s actions)
  | _, [] => isTrue trivial
  | s, a :: actions =>
    have : Decidable (Along (total step) ok (step s a) actions) := decidableAlong (step s a) actions
    decidable_of_iff (ok s a ∧ Along (total step) ok (step s a) actions)
      (along_cons s a actions).symm

theorem sumAlong_append {M : Type*} [AddMonoid M] (delta : S → A → M) (s : S) (first second : List A) :
    sumAlong (total step) delta s (first ++ second) =
      sumAlong (total step) delta s first + sumAlong (total step) delta (first.foldl step s) second := by
  induction first generalizing s with
  | nil => simp [sumAlong]
  | cons a actions ih =>
    have rest := ih (step s a)
    simp only [List.cons_append, sumAlong, total, Option.map_some, Option.getD_some, List.foldl_cons,
      add_assoc] at rest ⊢
    rw [rest]

theorem along_append {ok : S → A → Prop} (s : S) (first second : List A) :
    Along (total step) ok s (first ++ second) ↔
      Along (total step) ok s first ∧ Along (total step) ok (first.foldl step s) second := by
  induction first generalizing s with
  | nil => simp [Along]
  | cons a actions ih =>
    rw [List.cons_append, along_cons, along_cons, ih (step s a), List.foldl_cons, and_assoc]

/-- A quantity that a step changes by `delta` exactly when it meets `ok` is the sum of `delta` in
every state of a run exactly when the whole run meets `ok`. -/
theorem run_accumulates_iff {M : Type*} [AddGroup M] {ok : S → A → Prop} (inv : S → Prop)
    (quantity : S → M) {delta : S → A → M}
    (preserved : ∀ s a, inv s → inv (step s a))
    (changes : ∀ s a, inv s → (quantity (step s a) = quantity s + delta s a ↔ ok s a))
    {s : S} (start : inv s) (actions : List A) :
    (∀ ran, ran <+: actions →
        quantity (ran.foldl step s) = quantity s + sumAlong (total step) delta s ran) ↔
      Along (total step) ok s actions := by
  induction actions using List.reverseRecOn with
  | nil => simp [Along, sumAlong]
  | append_singleton actions a ih =>
    have before := run_invariant preserved start actions
    have last : quantity (step (actions.foldl step s) a) = quantity (actions.foldl step s) +
        delta (actions.foldl step s) a ↔ Along (total step) ok (actions.foldl step s) [a] := by
      rw [changes _ a before]
      simp [Along, total]
    have one : sumAlong (total step) delta (actions.foldl step s) [a] =
        delta (actions.foldl step s) a := by
      simp [sumAlong]
    have whole : (actions ++ [a]).foldl step s = step (actions.foldl step s) a := by
      simp
    rw [along_append, ← ih, ← last]
    constructor
    · intro every
      have upTo := every actions (List.prefix_append _ _)
      refine ⟨fun ran within => every ran (within.trans (List.prefix_append _ _)), ?_⟩
      rw [← whole, every _ List.prefix_rfl, sumAlong_append, ← add_assoc, ← upTo, one]
    · rintro ⟨every, final⟩ ran within
      rcases List.prefix_concat_iff.mp within with rfl | earlier
      · rw [whole, final, every actions List.prefix_rfl, sumAlong_append,
          one, add_assoc]
      · exact every ran earlier

end Total

end Machine
