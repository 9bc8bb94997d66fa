import MiniATS.Proofs.Generations
import MiniATS.Properties.Isolation
import MiniATS.Properties.SavedBook

/-!
# Accounts over restarts

However the processes run and wherever each of them is ended, an account keeps its name and its
password from one process to the next, as long as what is saved can be stored; and an account that no
step of any process acts for keeps its balances as well (`UserStore.cpp:16-67`,
`ServerMain.cpp:12-55`).
-/

namespace MiniATS

open Str

namespace Disk

variable {R Text : Type} [Zero R] [Add R] [Sub R] [Mul R] [Div R] [LT R] [LE R] [DecidableLT R]
  [DecidableLE R] [BEq R]

variable {env : Env R} {json : JsonText R Text}

/-- The users that a process exports can be stored. -/
def Stores (env : Env R) (json : JsonText R Text) (disk : Disk Text) (life : List (Action R)) : Prop :=
  ∀ s ∈ disk.process env json life, ∀ exports ∈ s.shutdown.exports, exports.users.Storable json

/-- No step of the process acts for the user. -/
def Spares (env : Env R) (json : JsonText R Text) (name : Str) (disk : Disk Text)
    (life : List (Action R)) : Prop :=
  ∀ s ∈ disk.boot env json,
    Machine.Along (Threads.next env) (fun t a => name ∉ t.actsFor env a) s life

instance (disk : Disk Text) (life : List (Action R)) : Decidable (disk.Stores env json life) :=
  inferInstanceAs (Decidable (∀ s ∈ disk.process env json life, _))

instance (name : Str) (disk : Disk Text) (life : List (Action R)) :
    Decidable (disk.Spares env json name life) :=
  inferInstanceAs (Decidable (∀ s ∈ disk.boot env json, _))

variable {disk disk' : Disk Text} {name : Str} {user : User R}

/-- What the steps of a process keep of a user, the file has of the user afterwards. -/
theorem account_of_live (lossless : json.Lossless) {life : List (Action R)}
    (lived : disk.live env json life = some disk') (stores : disk.Stores env json life)
    (held : (disk.accounts json).lookup name = some user) (ok : Threads R → Action R → Prop)
    (like : User R → Prop) (self : like user)
    (kept : ∀ {s a s'}, (∃ u ∈ s.server.userStore.users.lookup name, like u) → ok s a →
      Threads.Taken env s a s' → ∃ u ∈ s'.server.userStore.users.lookup name, like u)
    (along : ∀ s ∈ disk.boot env json, Machine.Along (Threads.next env) ok s life) :
    ∃ u u', like u ∧ (disk'.accounts json).lookup name = some u' ∧ u.Same u' := by
  obtain ⟨s, s', booted, ran, rfl⟩ := live_eq_some.mp lived
  obtain ⟨book, nextId, store, made, users, rfl⟩ := boot_eq_some.mp booted
  obtain ⟨-, all⟩ := Threads.exported_run (fun _ => True) (fun _ => True)
    (fun store => ∃ u ∈ store.users.lookup name, like u)
    (fun s => ∃ u ∈ s.server.userStore.users.lookup name, like u)
    (fun holds may taken => kept holds may taken) (fun holds => ⟨trivial, trivial, holds⟩)
    ⟨user, users ▸ held, self⟩ rfl (along _ booted) ran
  rcases after_users env json disk all with same | ⟨exports, saved, ⟨u, found, is⟩, written⟩
  · refine ⟨user, user, self, ?_, User.Same.refl user⟩
    unfold accounts
    rw [same]
    exact held
  · have storable := stores s' (by rw [process, booted]; exact ran) exports saved
    obtain ⟨u', found', same⟩ := User.of_rel_left (UserStore.load_save lossless storable name) found
    unfold accounts
    rw [written]
    exact ⟨u, u', is, found', same⟩

/-- Over any chain of processes an account keeps name and password, and the balances too when no step
of any of them acts for its user. -/
theorem accounts_survive (env : Env R) (lossless : json.Lossless) (lives : List (List (Action R)))
    (ran : Machine.exec (live env json) disk lives = some disk')
    (stores : Machine.Along (live env json) (Stores env json) disk lives)
    (held : (disk.accounts json).lookup name = some user) :
    (∃ user', (disk'.accounts json).lookup name = some user' ∧ user'.username = user.username ∧
      user'.password = user.password) ∧
    (Machine.Along (live env json) (Spares env json name) disk lives →
      ∃ user', (disk'.accounts json).lookup name = some user' ∧ user.Same user') := by
  constructor
  · refine Machine.exec_invariant
      (fun d : Disk Text => ∃ u, (d.accounts json).lookup name = some u ∧ u.username = user.username ∧
        u.password = user.password)
      (fun d life d' has stores lived => ?_) ⟨user, held, rfl, rfl⟩ stores ran
    obtain ⟨u, found, called, secret⟩ := has
    obtain ⟨was, u', ⟨called', secret'⟩, found', same⟩ := account_of_live lossless lived stores found
      (fun _ _ => True) (fun u => u.username = user.username ∧ u.password = user.password)
      ⟨called, secret⟩
      (fun holds _ taken => by
        obtain ⟨u, found, is⟩ := holds
        obtain ⟨w, found'⟩ := (Threads.store_step taken).keeps found
        exact ⟨_, found', is⟩)
      (fun s _ => Machine.along_of_mem (fun _ _ _ => trivial) s)
    exact ⟨u', found', same.1.trans called', same.2.1.trans secret'⟩
  · intro spares
    have both : Machine.Along (live env json)
        (fun d life => d.Stores env json life ∧ d.Spares env json name life) disk lives :=
      stores.and spares
    refine Machine.exec_invariant
      (fun d : Disk Text => ∃ u, (d.accounts json).lookup name = some u ∧ user.Same u)
      (fun d life d' has may lived => ?_) ⟨user, held, User.Same.refl user⟩ both ran
    obtain ⟨u, found, same⟩ := has
    obtain ⟨was, u', is, found', related⟩ := account_of_live lossless lived may.1 found
      (fun t a => name ∉ t.actsFor env a) (fun v => v = u) rfl
      (fun holds apart taken => by
        obtain ⟨v, here, rfl⟩ := holds
        exact ⟨v, (Threads.store_step taken).spares apart here, rfl⟩)
      may.2
    subst is
    exact ⟨u', found', same.trans related⟩

/-- A server without files on which Alice deposits, and which is shut down. -/
def aliceSaved : Option (Disk (Option (Json ℚ))) :=
  live exactEnv BookRun.exactFiles ⟨[], none, none⟩
    [.connect, .message 0 0 (str "REGISTER alice pw"), .advance 0,
      .message 0 0 (str "DEPOSIT btc 5"), .cleanup, .cleanup, .cleanup, .cleanup]

/-- Bob registers with Alice's name, then with his own; the process is ended before it has stopped.
The next one is ended without a shutdown. -/
def withoutAlice : List (List (Action ℚ)) :=
  [[.connect, .message 0 0 (str "REGISTER alice mine"), .message 0 0 (str "REGISTER bob pw"),
      .advance 0, .engine, .cleanup, .cleanup, .cleanup],
    [.connect, .message 0 0 (str "LOGIN bob pw"), .advance 0, .message 0 0 (str "DEPOSIT btc 7")]]

theorem accounts_survive_alice : ∃ disk ∈ aliceSaved, ∃ disk',
    Machine.exec (live exactEnv BookRun.exactFiles) disk withoutAlice = some disk' ∧
    ∃ user user', (disk.accounts BookRun.exactFiles).lookup (str "alice") = some user ∧
      user.wallet.available (str "BTC") = 5 ∧
      (disk'.accounts BookRun.exactFiles).lookup (str "alice") = some user' ∧ user.Same user' := by
  obtain ⟨disk, saved, found⟩ := (Option.any_eq_true _ _).mp
    (show aliceSaved.any (fun disk =>
      (Machine.exec (live exactEnv BookRun.exactFiles) disk withoutAlice).isSome &&
        ((disk.accounts BookRun.exactFiles).lookup (str "alice")).any (fun user =>
          decide (user.wallet.available (str "BTC") = 5)) &&
        decide (Machine.Along (live exactEnv BookRun.exactFiles) (Stores exactEnv BookRun.exactFiles) disk
          withoutAlice) &&
        decide (Machine.Along (live exactEnv BookRun.exactFiles)
          (Spares exactEnv BookRun.exactFiles (str "alice")) disk withoutAlice)) by decide +kernel)
  simp only [Bool.and_eq_true, decide_eq_true_eq] at found
  obtain ⟨⟨⟨lives, held⟩, stores⟩, spares⟩ := found
  obtain ⟨disk', ran⟩ := Option.isSome_iff_exists.mp lives
  obtain ⟨user, held, five⟩ := (Option.any_eq_true _ _).mp held
  obtain ⟨user', held', same⟩ := (accounts_survive exactEnv (documents_lossless _ _ _) withoutAlice
    ran stores held).2 spares
  exact ⟨disk, saved, disk', ran, user, user', held, of_decide_eq_true five, held', same⟩

end Disk

end MiniATS
