import MiniATS.Misc.Machine

/-!
# Computations cut at their atomic steps

A `Resumption S A` is a computation over a state shared with others: it is done, or its next
atomic step changes the state, and how it goes on depends on what the state was. `run` is what
it does when nobody comes between. `Keeps guarantee post` says that every step it can ever
take is one that `guarantee` allows, whatever others have done to the state, and that it can only
end with a result in `post`; it is proved along the text of the computation with `Keeps.bind` and
`keeps_call`.
-/

/-- A computation that stops after every atomic step on the shared state. -/
inductive Resumption (S A : Type)
  | done (a : A)
  | step (update : S → S) (next : S → Resumption S A)

namespace Resumption

variable {S A B : Type}

def bind : Resumption S A → (A → Resumption S B) → Resumption S B
  | done a, rest => rest a
  | step update next, rest => step update (fun s => (next s).bind rest)

instance : Monad (Resumption S) where
  pure := done
  bind := bind

/-- One atomic step with a result. -/
def call (f : S → A × S) : Resumption S A := step (fun s => (f s).2) (fun s => done (f s).1)

/-- The computation from start to end, without interruption. -/
def run : Resumption S A → S → A × S
  | done a, s => (a, s)
  | step update next, s => (next s).run (update s)

@[simp] theorem run_pure (a : A) (s : S) : (pure a : Resumption S A).run s = (a, s) := rfl

@[simp] theorem run_call (f : S → A × S) (s : S) : (call f).run s = f s := rfl

@[simp] theorem run_bind (x : Resumption S A) (rest : A → Resumption S B) (s : S) :
    (x >>= rest).run s = (rest (x.run s).1).run (x.run s).2 := by
  show (x.bind rest).run s = _
  induction x generalizing s with
  | done a => rfl
  | step update next ih => exact ih s (update s)

/-- Every step is allowed by `guarantee`, and every result is in `post`. -/
def Keeps (guarantee : S → S → Prop) (post : A → Prop) : Resumption S A → Prop
  | done a => post a
  | step update next => ∀ s, guarantee s (update s) ∧ (next s).Keeps guarantee post

section Keeps

variable {guarantee : S → S → Prop} {post : A → Prop} {post' : B → Prop}

theorem keeps_pure {a : A} (holds : post a) : (pure a : Resumption S A).Keeps guarantee post := holds

theorem keeps_call {f : S → A × S} (allowed : ∀ s, guarantee s (f s).2) :
    (call f).Keeps guarantee fun _ => True :=
  fun s => ⟨allowed s, trivial⟩

theorem Keeps.bind {x : Resumption S A} {rest : A → Resumption S B} (first : x.Keeps guarantee post)
    (second : ∀ a, post a → (rest a).Keeps guarantee post') : (x >>= rest).Keeps guarantee post' := by
  show (x.bind rest).Keeps guarantee post'
  induction x with
  | done a => exact second a first
  | step update next ih => exact fun s => ⟨(first s).1, ih s (first s).2⟩

end Keeps

end Resumption
