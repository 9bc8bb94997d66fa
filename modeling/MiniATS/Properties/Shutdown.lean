import MiniATS.Proofs.ThreadBook

/-!
# What a shutdown saves

`cleanup` reads the sales, the open orders and the users one after the other, while the other
threads go on. What it saves is the state of one moment of the run when up to that moment no
step changes what has been read, and from then on no step changes what is still to be read.
-/

namespace MiniATS

deriving instance DecidableEq for Wallet
deriving instance DecidableEq for User
deriving instance DecidableEq for UserStore
deriving instance DecidableEq for Exports

variable {R : Type}

/-- What has been read so far is what stands here. -/
def Shutdown.Agrees (now : Exports R) : Shutdown R → Prop
  | .running => True
  | .savedSales sales => sales = now.sales
  | .savedOrders sales orders => sales = now.sales ∧ orders = now.orders
  | .saved exports | .stopped exports => exports = now

/-- What has been read already is the same in both. -/
def Shutdown.SameRead (one other : Exports R) : Shutdown R → Prop
  | .running => True
  | .savedSales _ => one.sales = other.sales
  | .savedOrders _ _ => one.sales = other.sales ∧ one.orders = other.orders
  | .saved _ | .stopped _ => one = other

/-- What is still to be read is the same in both. -/
def Shutdown.SameUnread (one other : Exports R) : Shutdown R → Prop
  | .running => one = other
  | .savedSales _ => one.orders = other.orders ∧ one.users = other.users
  | .savedOrders _ _ => one.users = other.users
  | .saved _ | .stopped _ => True

instance [DecidableEq R] (one other : Exports R) (shutdown : Shutdown R) :
    Decidable (shutdown.SameRead one other) :=
  match shutdown with
  | .running => inferInstanceAs (Decidable True)
  | .savedSales _ => inferInstanceAs (Decidable (one.sales = other.sales))
  | .savedOrders _ _ =>
    inferInstanceAs (Decidable (one.sales = other.sales ∧ one.orders = other.orders))
  | .saved _ | .stopped _ => inferInstanceAs (Decidable (one = other))

instance [DecidableEq R] (one other : Exports R) (shutdown : Shutdown R) :
    Decidable (shutdown.SameUnread one other) :=
  match shutdown with
  | .running => inferInstanceAs (Decidable (one = other))
  | .savedSales _ => inferInstanceAs (Decidable (one.orders = other.orders ∧ one.users = other.users))
  | .savedOrders _ _ => inferInstanceAs (Decidable (one.users = other.users))
  | .saved _ | .stopped _ => inferInstanceAs (Decidable True)

namespace Shutdown

variable {shutdown shutdown' : Shutdown R} {now other then' : Exports R}

theorem SameUnread.refl (now : Exports R) (shutdown : Shutdown R) : shutdown.SameUnread now now := by
  cases shutdown with
  | savedSales sales => exact ⟨rfl, rfl⟩
  | _ => first | exact rfl | exact trivial

theorem SameUnread.trans (first : shutdown.SameUnread now other) (second : shutdown.SameUnread other then') :
    shutdown.SameUnread now then' := by
  cases shutdown with
  | running => exact Eq.trans first second
  | savedSales sales => exact ⟨first.1.trans second.1, first.2.trans second.2⟩
  | savedOrders sales orders => exact Eq.trans first second
  | _ => trivial

/-- What is still to be read changes nothing about what has been read. -/
theorem Agrees.of_sameRead (agrees : shutdown.Agrees other) (same : shutdown.SameRead now other) :
    shutdown.Agrees now := by
  cases shutdown with
  | running => trivial
  | savedSales sales => exact Eq.trans agrees (Eq.symm same)
  | savedOrders sales orders => exact ⟨agrees.1.trans same.1.symm, agrees.2.trans same.2.symm⟩
  | saved exports => exact Eq.trans agrees (Eq.symm same)
  | stopped exports => exact Eq.trans agrees (Eq.symm same)

/-- Reading from a state that has all that is still to be read. -/
theorem Reads.agrees (reads : Reads now shutdown shutdown') (agrees : shutdown.Agrees other)
    (same : shutdown.SameUnread now other) :
    shutdown'.Agrees other ∧ shutdown'.SameUnread now other := by
  cases reads with
  | sales =>
    obtain rfl : now = other := same
    exact ⟨rfl, rfl, rfl⟩
  | orders =>
    obtain ⟨orders, users⟩ : now.orders = other.orders ∧ now.users = other.users := same
    exact ⟨⟨agrees, orders⟩, users⟩
  | users =>
    obtain ⟨rfl, rfl⟩ := agrees
    have users : now.users = other.users := same
    refine ⟨?_, trivial⟩
    show (⟨other.sales, other.orders, now.users⟩ : Exports R) = other
    rw [users]
  | stop => exact ⟨agrees, trivial⟩

theorem Agrees.exports (agrees : shutdown.Agrees now) {exports : Exports R}
    (saved : shutdown.exports = some exports) : now = exports := by
  cases shutdown with
  | saved written => exact (Eq.symm agrees).trans (Option.some.inj saved)
  | stopped written => exact (Eq.symm agrees).trans (Option.some.inj saved)
  | _ => cases saved

end Shutdown

namespace Threads

variable [Zero R] [Add R] [Sub R] [Mul R] [Div R] [LT R] [LE R] [DecidableLT R] [DecidableLE R]
  [BEq R]

/-- The step changes nothing that `cleanup` has read. -/
def KeepsRead (env : Env R) (s : Threads R) (a : Action R) : Prop :=
  ∀ s' ∈ next env s a, s.shutdown.SameRead s'.exportsNow s.exportsNow

/-- The step changes nothing that `cleanup` has still to read. -/
def KeepsUnread (env : Env R) (s : Threads R) (a : Action R) : Prop :=
  ∀ s' ∈ next env s a, s.shutdown.SameUnread s'.exportsNow s.exportsNow

instance [DecidableEq R] (env : Env R) (s : Threads R) (a : Action R) : Decidable (KeepsRead env s a) :=
  inferInstanceAs (Decidable (∀ s' ∈ next env s a, _))

instance [DecidableEq R] (env : Env R) (s : Threads R) (a : Action R) :
    Decidable (KeepsUnread env s a) :=
  inferInstanceAs (Decidable (∀ s' ∈ next env s a, _))

/-- What a shutdown saves in a run is what stood at one moment of the run. -/
def SavesOneState (env : Env R) (s : Threads R) (actions : List (Action R)) : Prop :=
  ∀ final, Machine.exec (next env) s actions = some final → ∀ exports,
    final.shutdown.exports = some exports →
    ∃ before moment, before <+: actions ∧ Machine.exec (next env) s before = some moment ∧
      moment.exportsNow = exports

section Steps

variable {env : Env R} {s s' moment : Threads R} {a : Action R}

theorem agrees_step (agrees : s.shutdown.Agrees s.exportsNow) (kept : KeepsRead env s a)
    (step : next env s a = some s') : s'.shutdown.Agrees s'.exportsNow := by
  rcases shutdown_step (taken_of_next step) with same | ⟨same, reads⟩
  · rw [same]
    exact agrees.of_sameRead (kept s' step)
  · rw [same]
    exact (reads.agrees agrees (.refl _ _)).1

/-- After the moment, the handler reads what stood at it. -/
def ReadsMoment (moment s : Threads R) : Prop :=
  s.shutdown.Agrees moment.exportsNow ∧ s.shutdown.SameUnread s.exportsNow moment.exportsNow

theorem readsMoment_step (reads : ReadsMoment moment s) (left : KeepsUnread env s a)
    (step : next env s a = some s') : ReadsMoment moment s' := by
  unfold ReadsMoment
  rcases shutdown_step (taken_of_next step) with same | ⟨same, reading⟩
  · rw [same]
    exact ⟨reads.1, (left s' step).trans reads.2⟩
  · rw [same]
    exact reading.agrees reads.1 reads.2

end Steps

/-- A shutdown saves one state if, for some moment of the run, no step before it changes what has
been read and no step after it changes what is still to be read. -/
theorem saves_one_state (env : Env R) (s : Threads R) (running : s.shutdown = .running)
    (before after : List (Action R))
    (kept : Machine.Along (next env) (KeepsRead env) s before)
    (left : ∀ moment, Machine.exec (next env) s before = some moment →
      Machine.Along (next env) (KeepsUnread env) moment after) :
    SavesOneState env s (before ++ after) := by
  intro final ran exports saved
  rw [Machine.exec_append] at ran
  obtain ⟨moment, reached, went⟩ := Option.bind_eq_some_iff.mp ran
  refine ⟨before, moment, List.prefix_append _ _, reached, ?_⟩
  have agrees : moment.shutdown.Agrees moment.exportsNow :=
    Machine.exec_invariant (fun s : Threads R => s.shutdown.Agrees s.exportsNow)
      (fun _ _ _ agrees kept step => agrees_step agrees kept step) (by rw [running]; trivial) kept
      reached
  have reads : ReadsMoment moment final :=
    Machine.exec_invariant _ (fun _ _ _ reads left step => readsMoment_step reads left step)
      ⟨agrees, .refl _ _⟩ (left moment reached) went
  exact reads.1.exports saved

/-- Alice registers while the handler is between the orders and the users. -/
def registersMeanwhile : List (Action ℚ) :=
  [.connect, .message 0 0 (str "REGISTER alice pw"), .cleanup, .cleanup, .advance 0]

theorem saves_one_state_registering :
    SavesOneState exactEnv fresh (registersMeanwhile ++ [.cleanup]) := by
  apply saves_one_state exactEnv fresh rfl _ _ (by decide +kernel)
  intro moment ran
  have reached : (Machine.exec (next exactEnv) fresh registersMeanwhile).all
      (fun s => decide (Machine.Along (next exactEnv) (KeepsUnread exactEnv) s [.cleanup])) := by
    decide +kernel
  rw [ran] at reached
  exact of_decide_eq_true reached

/-- The pass that matches them runs between the first two reads. -/
def passMeanwhile : List (Action ℚ) :=
  [.engine, .engine, .engine, .engine, .cleanup, .task 0 (StdSort.insertion _) 0, .cleanup, .cleanup]

/-- The sale is in the wallets that are saved and not in the sales that are saved. -/
theorem sale_not_saved : ∃ s ∈ crossedFile, ¬ SavesOneState exactEnv s passMeanwhile := by
  obtain ⟨s, made, found⟩ := (Option.any_eq_true _ _).mp
    (show crossedFile.any (fun s => (Machine.exec (next exactEnv) s passMeanwhile).any (fun final =>
      final.shutdown.exports.any (fun exports =>
        decide (final.exportsNow ≠ exports) &&
        decide (Machine.Along (next exactEnv) (fun t _ => t.exportsNow ≠ exports) s passMeanwhile)))) by
      decide +kernel)
  obtain ⟨final, ran, found⟩ := (Option.any_eq_true _ _).mp found
  obtain ⟨exports, saved, found⟩ := (Option.any_eq_true _ _).mp found
  simp only [Bool.and_eq_true, decide_eq_true_eq] at found
  refine ⟨s, made, fun oneState => ?_⟩
  obtain ⟨before, moment, ⟨after, whole⟩, reached, same⟩ := oneState final ran exports saved
  rw [← whole] at ran found
  cases after with
  | nil =>
    rw [List.append_nil, reached] at ran
    exact found.1 (Option.some.inj ran ▸ same)
  | cons a after => exact found.2.at reached same

end Threads

end MiniATS
