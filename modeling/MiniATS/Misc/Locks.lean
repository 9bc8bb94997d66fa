import MiniATS.Misc.Machine
import Mathlib.Data.Fintype.Basic
import Mathlib.Data.Fintype.Lattice
import Mathlib.Data.Finset.Max
import Mathlib.Algebra.BigOperators.Group.Finset.Basic
import Mathlib.Algebra.Order.BigOperators.Group.Finset

/-!
# Locks

Threads that take and release mutexes. A mutex can be taken when no other thread holds it, and by a
thread that holds it itself only when it is recursive. `Ordered` is the discipline of taking mutexes
in the order of their ranks: a thread takes a mutex that it does not hold only above all that it
holds, and gives everything back. Threads that keep to it never deadlock (`can_move`), and always can
all finish (`all_finish`).

`Locking` is what a piece of code does to mutexes, with the scopes of lock guards, loops, branches
and exceptions, and `Path` a run through it; `Safe` checks the discipline on the code, and every path
through safe code keeps to it (`Path.ordered`).
-/

universe u v

namespace Locks

variable {M : Type u} [DecidableEq M]

/-- An operation on a mutex. -/
inductive LockOp (M : Type u)
  | acquire (m : M)
  | release (m : M)

/-- What a thread holds, the mutex taken last in front, and what it still does. -/
structure Holder (M : Type u) where
  held : List M
  todo : List (LockOp M)

/-- The kinds of the mutexes: which are recursive, and their place in the order. -/
structure Kinds (M : Type u) where
  recursive : M → Bool
  rank : M → ℕ

namespace Kinds

variable (kinds : Kinds M)

/-- A thread with these mutexes may go on to take this one. -/
def May (held : List M) (m : M) : Prop :=
  (m ∈ held ∧ kinds.recursive m = true) ∨ ∀ h ∈ held, kinds.rank h < kinds.rank m

instance (held : List M) (m : M) : Decidable (kinds.May held m) :=
  inferInstanceAs (Decidable (_ ∨ _))

/-- The operations keep to the order of the ranks and leave nothing held. -/
def Ordered : List M → List (LockOp M) → Prop
  | held, [] => held = []
  | held, .acquire m :: todo => kinds.May held m ∧ Ordered (m :: held) todo
  | held, .release m :: todo => m ∈ held ∧ Ordered (held.erase m) todo

instance decidableOrdered : ∀ held todo, Decidable (kinds.Ordered held todo)
  | held, [] => inferInstanceAs (Decidable (held = []))
  | held, .acquire m :: todo =>
    have : Decidable (kinds.Ordered (m :: held) todo) := decidableOrdered (m :: held) todo
    inferInstanceAs (Decidable (_ ∧ _))
  | held, .release m :: todo =>
    have : Decidable (kinds.Ordered (held.erase m) todo) := decidableOrdered (held.erase m) todo
    inferInstanceAs (Decidable (_ ∧ _))

omit [DecidableEq M] in
/-- A thread that may take a mutex it holds has a recursive one. -/
theorem May.recursive {kinds : Kinds M} {held : List M} {m : M} (may : kinds.May held m)
    (holds : m ∈ held) : kinds.recursive m = true := by
  rcases may with ⟨-, recursive⟩ | above
  · exact recursive
  · exact absurd (above m holds) (lt_irrefl _)

end Kinds

section Threads

variable {ι : Type v} [DecidableEq ι] [Fintype ι] (kinds : Kinds M)

/-- One operation of one thread; `none` when it has nothing to do or has to wait. -/
def next (s : ι → Holder M) (i : ι) : Option (ι → Holder M) :=
  match (s i).todo with
  | [] => none
  | .acquire m :: todo =>
    if (∀ j, j ≠ i → m ∉ (s j).held) ∧ (m ∈ (s i).held → kinds.recursive m = true) then
      some (Function.update s i ⟨m :: (s i).held, todo⟩)
    else none
  | .release m :: todo => some (Function.update s i ⟨(s i).held.erase m, todo⟩)

/-- No mutex is held by two threads. -/
def Exclusive (s : ι → Holder M) : Prop :=
  ∀ i j m, m ∈ (s i).held → m ∈ (s j).held → i = j

/-- Every thread keeps to the order. -/
def Disciplined (s : ι → Holder M) : Prop := ∀ i, kinds.Ordered (s i).held (s i).todo

variable {kinds} {s s' : ι → Holder M} {i : ι}

/-- What a thread's operation is, and what it leaves. -/
theorem next_cases (moved : next kinds s i = some s') :
    (∃ m todo, (s i).todo = .acquire m :: todo ∧ (∀ j, j ≠ i → m ∉ (s j).held) ∧
      s' = Function.update s i ⟨m :: (s i).held, todo⟩) ∨
    ∃ m todo, (s i).todo = .release m :: todo ∧
      s' = Function.update s i ⟨(s i).held.erase m, todo⟩ := by
  unfold next at moved
  split at moved
  · cases moved
  · rename_i m todo is
    split at moved
    · rename_i free
      exact .inl ⟨m, todo, is, free.1, (Option.some.inj moved).symm⟩
    · cases moved
  · rename_i m todo is
    exact .inr ⟨m, todo, is, (Option.some.inj moved).symm⟩

theorem Exclusive.next (exclusive : Exclusive s) (moved : Locks.next kinds s i = some s') :
    Exclusive s' := by
  -- nobody else has what the thread has now
  have own : ∀ m, m ∈ (s' i).held → ∀ j, j ≠ i → m ∉ (s j).held := by
    intro m member j other held
    rcases next_cases moved with ⟨m', todo, is, free, rfl⟩ | ⟨m', todo, is, rfl⟩
    · rw [Function.update_self] at member
      rcases List.mem_cons.mp member with rfl | was
      · exact free j other held
      · exact other (exclusive j i m held was)
    · rw [Function.update_self] at member
      exact other (exclusive j i m held (List.mem_of_mem_erase member))
  have others : ∀ j, j ≠ i → s' j = s j := by
    intro j other
    rcases next_cases moved with ⟨m', todo, is, free, rfl⟩ | ⟨m', todo, is, rfl⟩ <;>
      exact Function.update_of_ne other _ _
  intro j k m first second
  by_cases atFirst : j = i
  · subst atFirst
    by_contra different
    have other : k ≠ j := fun same => different same.symm
    rw [others k other] at second
    exact own m first k other second
  · rw [others j atFirst] at first
    by_cases atSecond : k = i
    · subst atSecond
      exact absurd first (own m second j atFirst)
    · rw [others k atSecond] at second
      exact exclusive j k m first second

theorem Disciplined.next (ordered : Disciplined kinds s) (moved : Locks.next kinds s i = some s') :
    Disciplined kinds s' := by
  intro j
  have own := ordered i
  rcases next_cases moved with ⟨m, todo, is, free, rfl⟩ | ⟨m, todo, is, rfl⟩
  · by_cases same : j = i
    · subst same
      rw [is] at own
      rw [Function.update_self]
      exact own.2
    · rw [Function.update_of_ne same]
      exact ordered j
  · by_cases same : j = i
    · subst same
      rw [is] at own
      rw [Function.update_self]
      exact own.2
    · rw [Function.update_of_ne same]
      exact ordered j

/-- The mutex that a thread takes next. -/
def wants (t : Holder M) : Option M :=
  match t.todo with
  | .acquire m :: _ => some m
  | _ => none

/-- A thread that cannot move wants a mutex above all that it holds, and another thread holds it. -/
theorem waits_for (ordered : Disciplined kinds s) (exclusive : Exclusive s) (busy : (s i).todo ≠ [])
    (stuck : next kinds s i = none) :
    ∃ m, wants (s i) = some m ∧ (∀ h ∈ (s i).held, kinds.rank h < kinds.rank m) ∧
      ∃ j, m ∈ (s j).held := by
  have own := ordered i
  unfold next at stuck
  split at stuck
  · exact absurd ‹_› busy
  · rename_i m todo is
    rw [is] at own
    have may : kinds.May (s i).held m := own.1
    split at stuck
    · cases stuck
    · rename_i blocked
      have taken : ∃ j, j ≠ i ∧ m ∈ (s j).held := by
        by_contra free
        push Not at free
        exact blocked ⟨free, fun holds => may.recursive holds⟩
      obtain ⟨j, other, holds⟩ := taken
      refine ⟨m, by rw [wants, is], ?_, j, holds⟩
      rcases may with ⟨mine, -⟩ | above
      · exact absurd (exclusive j i m holds mine) other
      · exact above
  · cases stuck

/-- Threads that keep to the order do not deadlock: while one has something to do, one can move. -/
theorem can_move (ordered : Disciplined kinds s) (exclusive : Exclusive s)
    (busy : ∃ i, (s i).todo ≠ []) : ∃ i, (next kinds s i).isSome := by
  by_contra dead
  push Not at dead
  have stuck : ∀ i, next kinds s i = none := fun i => by simpa using dead i
  -- the waiting thread that wants the mutex of the highest rank
  let wanted : ι → ℕ := fun i => ((wants (s i)).map kinds.rank).getD 0
  have some' : (Finset.univ.filter (fun i => (s i).todo ≠ [])).Nonempty := by
    obtain ⟨i, todo⟩ := busy
    exact ⟨i, by simp [todo]⟩
  obtain ⟨i, member, highest⟩ := Finset.exists_max_image _ wanted some'
  obtain ⟨m, wants', -, j, holds⟩ :=
    waits_for ordered exclusive (Finset.mem_filter.mp member).2 (stuck i)
  -- its holder is not done, as it has something to give back, and wants one of a higher rank
  have unfinished : (s j).todo ≠ [] := by
    intro done
    have nothing := ordered j
    rw [done] at nothing
    rw [show (s j).held = [] from nothing] at holds
    exact absurd holds List.not_mem_nil
  obtain ⟨m', wants'', above, -⟩ := waits_for ordered exclusive unfinished (stuck j)
  have below := highest j (Finset.mem_filter.mpr ⟨Finset.mem_univ j, unfinished⟩)
  have higher := above m holds
  simp only [wanted, wants', wants'', Option.map_some, Option.getD_some] at below
  omega

/-- What holds of threads that have just started, or have just been cut into, holds in every run. -/
theorem exec_disciplined (ordered : Disciplined kinds s) (exclusive : Exclusive s) {turns : List ι}
    (ran : Machine.exec (next kinds) s turns = some s') : Disciplined kinds s' ∧ Exclusive s' :=
  Machine.exec_keeps (fun s => Disciplined kinds s ∧ Exclusive s)
    (fun _ _ _ both moved => ⟨both.1.next moved, both.2.next moved⟩) ⟨ordered, exclusive⟩ ran

/-- Every operation leaves less to do. -/
theorem todo_shrinks (moved : next kinds s i = some s') :
    ∑ j, (s' j).todo.length < ∑ j, (s j).todo.length := by
  apply Finset.sum_lt_sum
  · intro j _
    rcases next_cases moved with ⟨m, todo, is, -, rfl⟩ | ⟨m, todo, is, rfl⟩ <;>
    · by_cases same : j = i
      · subst same
        rw [Function.update_self, is, List.length_cons]
        exact Nat.le_succ _
      · rw [Function.update_of_ne same]
  · refine ⟨i, Finset.mem_univ i, ?_⟩
    rcases next_cases moved with ⟨m, todo, is, -, rfl⟩ | ⟨m, todo, is, rfl⟩ <;>
    · rw [Function.update_self, is, List.length_cons]
      exact Nat.lt_succ_self _

/-- Threads that keep to the order can all finish. -/
theorem all_finish (ordered : Disciplined kinds s) (exclusive : Exclusive s) :
    ∃ turns s', Machine.exec (next kinds) s turns = some s' ∧ ∀ i, (s' i).todo = [] := by
  obtain ⟨turns, s', -, ran, stuck⟩ :=
    Machine.exists_stuck (fun s => ∑ i, (s i).todo.length)
      (fun s => Disciplined kinds s ∧ Exclusive s)
      (fun _ _ _ both _ moved => ⟨both.1.next moved, both.2.next moved⟩)
      (fun _ _ _ _ (_ : True) => todo_shrinks) s ⟨ordered, exclusive⟩
  refine ⟨turns, s', ran, ?_⟩
  by_contra unfinished
  push Not at unfinished
  obtain ⟨ordered', exclusive'⟩ := exec_disciplined ordered exclusive ran
  obtain ⟨i, moves⟩ := can_move ordered' exclusive' unfinished
  rw [stuck i trivial] at moves
  cases moves

end Threads

/-- What a piece of code does to mutexes. -/
inductive Locking (M : Type u)
  | skip
  -- an exception
  | raise
  | seq (first second : Locking M)
  | branch (this other : Locking M)
  -- a branch for every number, such as one for every object of a class
  | choose (codes : ℕ → Locking M)
  | loop (body : Locking M)
  -- the scope of a lock guard
  | guard (m : M) (body : Locking M)
  -- a wait on a condition variable with the lock of the innermost guard
  | wait (m : M)
  -- `try` with a handler that catches everything and takes nothing
  | attempt (body : Locking M)

namespace Locking

/-- The operations of a run through the code, and whether an exception leaves it. -/
inductive Path : Locking M → List (LockOp M) → Bool → Prop
  | skip : Path skip [] false
  | raise : Path raise [] true
  | seq {p q : Locking M} {a b : List (LockOp M)} {thrown : Bool} (first : Path p a false)
    (second : Path q b thrown) : Path (.seq p q) (a ++ b) thrown
  | cut {p q : Locking M} {a : List (LockOp M)} (first : Path p a true) : Path (.seq p q) a true
  | this {p q : Locking M} {a : List (LockOp M)} {thrown : Bool} (taken : Path p a thrown) :
    Path (.branch p q) a thrown
  | other {p q : Locking M} {a : List (LockOp M)} {thrown : Bool} (taken : Path q a thrown) :
    Path (.branch p q) a thrown
  | chosen {codes : ℕ → Locking M} {a : List (LockOp M)} {thrown : Bool} (n : ℕ)
    (taken : Path (codes n) a thrown) : Path (.choose codes) a thrown
  | done {p : Locking M} : Path (.loop p) [] false
  | again {p : Locking M} {a b : List (LockOp M)} {thrown : Bool} (round : Path p a false)
    (rest : Path (.loop p) b thrown) : Path (.loop p) (a ++ b) thrown
  | left {p : Locking M} {a : List (LockOp M)} (round : Path p a true) : Path (.loop p) a true
  | guard {m : M} {p : Locking M} {a : List (LockOp M)} {thrown : Bool} (body : Path p a thrown) :
    Path (.guard m p) (.acquire m :: (a ++ [.release m])) thrown
  | wait {m : M} : Path (.wait m) [.release m, .acquire m] false
  | attempt {p : Locking M} {a : List (LockOp M)} {thrown : Bool} (body : Path p a thrown) :
    Path (.attempt p) a false

/-- The code takes mutexes in the order of their ranks, when these are held. -/
def Safe (kinds : Kinds M) : List M → Locking M → Prop
  | _, .skip | _, .raise => True
  | held, .seq first second => Safe kinds held first ∧ Safe kinds held second
  | held, .branch this other => Safe kinds held this ∧ Safe kinds held other
  | held, .choose codes => ∀ n, Safe kinds held (codes n)
  | held, .loop body | held, .attempt body => Safe kinds held body
  | held, .guard m body => kinds.May held m ∧ Safe kinds (m :: held) body
  | held, .wait m => m ∈ held ∧ kinds.May (held.erase m) m ∧ m :: held.erase m = held

variable {kinds : Kinds M}

/-- A run through safe code keeps to the order, and leaves held what was. -/
theorem Path.ordered {p : Locking M} {ops : List (LockOp M)} {thrown : Bool} (path : Path p ops thrown)
    {held : List M} (safe : Safe kinds held p) {rest : List (LockOp M)}
    (after : kinds.Ordered held rest) : kinds.Ordered held (ops ++ rest) := by
  induction path generalizing held rest with
  | skip => exact after
  | raise => exact after
  | seq first second firstIH secondIH =>
    rw [List.append_assoc]
    exact firstIH safe.1 (secondIH safe.2 after)
  | cut first ih => exact ih safe.1 after
  | this taken ih => exact ih safe.1 after
  | other taken ih => exact ih safe.2 after
  | chosen n taken ih => exact ih (safe n) after
  | done => exact after
  | again round rest roundIH restIH =>
    rw [List.append_assoc]
    exact roundIH safe (restIH safe after)
  | left round ih => exact ih safe after
  | @guard m p a thrown body ih =>
    rw [List.cons_append, List.append_assoc]
    refine ⟨safe.1, ih safe.2 ?_⟩
    refine ⟨List.mem_cons_self, ?_⟩
    rwa [List.erase_cons_head]
  | @wait m =>
    obtain ⟨holds, may, same⟩ := safe
    exact ⟨holds, may, by rwa [same]⟩
  | attempt body ih => exact ih safe after

end Locking

end Locks
