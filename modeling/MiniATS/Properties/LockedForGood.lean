import MiniATS.Properties.ReleasedOnce
import MiniATS.Properties.SurvivingAccounts

/-!
# Funds that were locked before a start

`users.json` keeps the locked balances, and `orders.csv` loses the owners of the orders they were locked
for (`ServerMain.cpp:16-20`, `CSVHandler.cpp:54-93`). A process treats what it finds locked like the funds
of an order that is always about to be inserted: `beside` adds such a session, and every step goes the same
way beside it. So what is locked when a process ends stays locked in all that follow.
-/

namespace MiniATS

open Str Ledger OrderBookEntry OrderBook CSVHandler

/-- The constructor numbers the orders from `first` on. -/
theorem OrderBook.make_ids {R : Type} {env : Env R} {filename : Str} {file : Option Str} {first nextId : Nat}
    {book : OrderBook R} (made : OrderBook.make env filename file first = .ok (book, nextId)) :
    first ≤ nextId ∧ ∀ o ∈ book.getAllOrders, first ≤ o.id := by
  unfold OrderBook.make at made
  split at made
  · cases made
  · rename_i lists nextId' read
    obtain ⟨rfl, rfl⟩ := Prod.mk.inj (Except.ok.inj made)
    obtain ⟨entries, ids, sorted⟩ := readCSV_get read
    obtain ⟨later, numbered⟩ := readEntries_ids _ ids
    refine ⟨later, fun o inBook => ?_⟩
    obtain ⟨product, listed⟩ := mem_getAllOrders.mp inBook
    have inEntries : o ∈ sortByTimestamp (entries.filter (fun o => o.product = product)) := by
      rw [← sorted product]
      exact listed
    exact (numbered o (List.mem_of_mem_filter ((sortByTimestamp_perm _).mem_iff.mp inEntries))).1

namespace Threads

variable {env : Env ℚ} {s s' : Threads ℚ} {a : Action ℚ} {o : OrderBookEntry ℚ}

/-- The server with one more session, which has reserved the funds of an order and never goes on. -/
def beside (o : OrderBookEntry ℚ) (s : Threads ℚ) : Threads ℚ :=
  { s with sessions := ⟨[], [], .inserting o, []⟩ :: s.sessions }

theorem inflight_beside (o : OrderBookEntry ℚ) (s : Threads ℚ) : (s.beside o).inflight = o :: s.inflight :=
  rfl

theorem live_beside (o : OrderBookEntry ℚ) (s : Threads ℚ) : (s.beside o).live = s.live := rfl

theorem cleanupStep_beside (o : OrderBookEntry ℚ) (s : Threads ℚ) :
    (s.beside o).cleanupStep = s.cleanupStep.map (Threads.beside o) := by
  unfold cleanupStep
  dsimp only [beside]
  split <;> rfl

/-- The other threads step beside the session as they do without it. -/
theorem Taken.beside (taken : Taken env s a s') (o : OrderBookEntry ℚ) :
    ∃ a', Taken env (s.beside o) a' (s'.beside o) ∧ (s.Spares a → (s.beside o).Spares a') := by
  have shifted : ∀ {before after : List (Session ℚ)} {c : Session ℚ}, s.sessions = before ++ c :: after →
      (s.beside o).sessions = (⟨[], [], .inserting o, []⟩ :: before) ++ c :: after :=
    fun sessions => congrArg (_ :: ·) sessions
  cases taken with
  | connect => exact ⟨.connect, .connect, fun _ => trivial⟩
  | @message sid now data c before after found sessions idle =>
    have went : Taken env (s.beside o) (.message (sid + 1) now data) _ :=
      .message found (shifted sessions) idle
    exact ⟨_, went, fun _ => trivial⟩
  | @advance sid c c' srv before after found sessions moved =>
    have went : Taken env (s.beside o) (.advance (sid + 1)) _ := .advance found (shifted sessions) moved
    exact ⟨_, went, id⟩
  | readProducts engine => exact ⟨.engine, .readProducts engine, fun _ => trivial⟩
  | enqueue engine => exact ⟨.engine, .enqueue engine, fun _ => trivial⟩
  | pop engine pending => exact ⟨.engine, .pop engine pending, fun _ => trivial⟩
  | launch engine => exact ⟨.engine, .launch engine, fun _ => trivial⟩
  | @task n std now product before after found tasks =>
    exact ⟨.task n std now, .task found tasks, id⟩
  | @cleanup shutdown moved =>
    refine ⟨.cleanup, .cleanup ?_, fun _ => trivial⟩
    rw [cleanupStep_beside, moved]
    rfl

/-- The funds stay covered beside the session. -/
theorem Funded.step_beside (funded : (s.beside o).Funded) (spares : s.Spares a) (taken : Taken env s a s') :
    (s'.beside o).Funded := by
  obtain ⟨a', went, spares'⟩ := taken.beside o
  exact funded.step (spares' spares) went

/-- An order of the user that would have to lock `x` of the currency, by an order that would lock some. -/
def heldBack (kind : OrderBookEntry ℚ) (u : Str) (x : ℚ) : OrderBookEntry ℚ :=
  { kind with username := u, id := 0, amount := x, price := 1 }

section HeldBack

variable {kind : OrderBookEntry ℚ} {u c : Str} {x : ℚ}

theorem need_heldBack (token : kind.reservedToken = some c) : (heldBack kind u x).need = x := by
  unfold reservedToken at token
  unfold OrderBookEntry.need heldBack
  cases type : kind.orderType with
  | ask => rfl
  | bid => exact mul_one x
  | sale => simp [type] at token

theorem claims_heldBack (token : kind.reservedToken = some c) (l : List (OrderBookEntry ℚ)) (v d : Str) :
    claims (heldBack kind u x :: l) v d = single u c x v d + claims l v d := by
  have token' : (heldBack kind u x).reservedToken = some c := token
  rw [claims_cons, claim_of_token token', need_heldBack token]
  rfl

/-- Beside the session the funds are covered, so they stay locked. -/
theorem Funded.above (token : kind.reservedToken = some c) (user : u ≠ defaultUser)
    (funded : (s.beside (heldBack kind u x)).Funded) :
    x + claims (s.inflight ++ s.live) u c ≤ s.server.userStore.locked u c := by
  have covers := funded.covers u user c
  rw [inflight_beside, live_beside, List.cons_append, claims_heldBack token, single_self] at covers
  exact covers

end HeldBack

section Start

variable {filename : Str} {file : Option Str} {book : OrderBook ℚ} {nextId : Nat} {store : UserStore ℚ}
  {kind : OrderBookEntry ℚ} {u c : Str}

theorem sane_beside (made : OrderBook.make env filename file 1 = .ok (book, nextId)) (user : u ≠ defaultUser)
    (known : store.userExists u) (nonneg : 0 ≤ store.locked u c) (token : kind.reservedToken = some c) :
    Sane ⟨book, store, nextId, []⟩ [heldBack kind u (store.locked u c)] := by
  have loaded := make_loaded made
  obtain ⟨later, ids⟩ := OrderBook.make_ids made
  have token' : (heldBack kind u (store.locked u c)).reservedToken = some c := token
  refine ⟨loaded.indexed, ?_, fun o member => ?_, fun o member other => ?_, fun o member => ?_⟩
  · refine List.nodup_cons.mpr ⟨fun member => ?_, loaded.indexed.distinct⟩
    obtain ⟨o, inBook, same⟩ := List.mem_map.mp member
    have first : 1 ≤ o.id := ids o inBook
    change o.id = 0 at same
    omega
  · rcases List.mem_cons.mp member with rfl | inBook
    · exact later
    · exact loaded.fresh o inBook
  · rcases List.mem_cons.mp member with rfl | inBook
    · exact ⟨known, by rw [token']; rfl, by rw [need_heldBack token]; exact nonneg⟩
    · exact absurd (loaded.default' o inBook) other
  · rw [List.mem_singleton.mp member]
    exact user

/-- What a process finds locked covers an order that would lock as much. -/
theorem funded_beside (made : OrderBook.make env filename file 1 = .ok (book, nextId))
    (nonneg : ∀ v, v ≠ defaultUser → ∀ d, 0 ≤ store.locked v d) (user : u ≠ defaultUser)
    (known : store.userExists u) (token : kind.reservedToken = some c) :
    ((start book nextId store).beside (heldBack kind u (store.locked u c))).Funded := by
  refine ⟨sane_beside made user known (nonneg u user c) token, fun d member => ?_, fun v other d => ?_⟩
  · rw [List.mem_singleton.mp member]
    exact ⟨Or.inl rfl, trivial⟩
  · have others : ∀ o ∈ (start book nextId store).live, o.username ≠ v := by
      intro o member owner
      exact other (owner.symm.trans ((make_loaded made).default' o (mem_live.mp member).1))
    have flying : (start book nextId store).inflight = [] := rfl
    rw [inflight_beside, live_beside, List.cons_append, claims_heldBack token, flying, List.nil_append,
      claims_of_ne others, add_zero, single_apply]
    split
    · rename_i here
      rw [here.1, here.2]
      exact le_rfl
    · exact nonneg v other d

end Start

end Threads

/-- No balance that a user but `default` has locked is negative. -/
def LocksNonneg (users : KeyedMap Str (User ℚ)) : Prop := ∀ v w, users.lookup v = some w → v ≠ defaultUser →
  ∀ d x, w.wallet.locked.lookup d = some x → 0 ≤ x

instance (users : KeyedMap Str (User ℚ)) : Decidable (LocksNonneg users) :=
  inferInstanceAs (Decidable (∀ v w, users.lookup v = some w → v ≠ defaultUser →
    ∀ d x, w.wallet.locked.lookup d = some x → 0 ≤ x))

theorem LocksNonneg.lockedIn {users : KeyedMap Str (User ℚ)} (nonneg : LocksNonneg users) {v : Str}
    {w : User ℚ} (found : users.lookup v = some w) (other : v ≠ defaultUser) (d : Str) :
    0 ≤ w.wallet.lockedIn d := by
  unfold Wallet.lockedIn KeyedMap.get
  cases here : w.wallet.locked.lookup d with
  | none => exact le_rfl
  | some x => exact nonneg v w found other d x here

/-- Nobody has a negative balance locked, and the user at least `x` of the currency. -/
structure Locks (users : KeyedMap Str (User ℚ)) (name c : Str) (x : ℚ) : Prop where
  nonneg : ∀ v, v ≠ defaultUser → ∀ w ∈ users.lookup v, ∀ d, 0 ≤ w.wallet.lockedIn d
  least : ∃ w ∈ users.lookup name, x ≤ w.wallet.lockedIn c

section Locks

variable {users users' : KeyedMap Str (User ℚ)} {name c : Str} {x : ℚ}

theorem User.Same.lockedIn {u u' : User ℚ} (same : u.Same u') (d : Str) :
    u'.wallet.lockedIn d = u.wallet.lockedIn d := by
  unfold Wallet.lockedIn KeyedMap.get
  rw [same.2.2.2 d]

theorem Locks.of_same (locks : Locks users name c x)
    (same : ∀ v, Option.Rel User.Same (users.lookup v) (users'.lookup v)) : Locks users' name c x := by
  refine ⟨fun v other w' found d => ?_, ?_⟩
  · obtain ⟨w, was, like⟩ := User.of_rel_right (same v) found
    rw [like.lockedIn]
    exact locks.nonneg v other w was d
  · obtain ⟨w, found, least⟩ := locks.least
    obtain ⟨w', is, like⟩ := User.of_rel_left (same name) found
    exact ⟨w', is, by rw [like.lockedIn]; exact least⟩

theorem Locks.mono {y : ℚ} (locks : Locks users name c y) (more : x ≤ y) : Locks users name c x := by
  obtain ⟨w, found, least⟩ := locks.least
  exact ⟨locks.nonneg, w, found, more.trans least⟩

theorem UserStore.locked_of_lookup {store : UserStore ℚ} {v : Str} {w : User ℚ}
    (found : store.users.lookup v = some w) (d : Str) : store.locked v d = w.wallet.lockedIn d := by
  unfold locked wallet
  rw [found]

theorem Locks.nonneg_store {store : UserStore ℚ} (locks : Locks store.users name c x) (v : Str)
    (other : v ≠ defaultUser) (d : Str) : 0 ≤ store.locked v d := by
  cases found : store.users.lookup v with
  | none =>
    unfold UserStore.locked UserStore.wallet
    rw [found]
    exact le_rfl
  | some w =>
    rw [UserStore.locked_of_lookup found]
    exact locks.nonneg v other w found d

/-- Beside the session the users lock at least its funds. -/
theorem Threads.Funded.locks {s : Threads ℚ} {kind : OrderBookEntry ℚ} (token : kind.reservedToken = some c)
    (user : name ≠ defaultUser) (funded : (s.beside (heldBack kind name x)).Funded) :
    Locks s.server.userStore.users name c x := by
  refine ⟨fun v other w found d => ?_, ?_⟩
  · have covers := funded.covers v other d
    have locked := UserStore.locked_of_lookup (Option.mem_def.mp found) d
    rw [← locked]
    exact (claims_nonneg (funded.need_nonneg other) d).trans covers
  · have admitted := funded.sane.admitted (heldBack kind name x) List.mem_cons_self user
    obtain ⟨w, found⟩ := Option.isSome_iff_exists.mp admitted.owner
    refine ⟨w, found, ?_⟩
    have above := funded.above token user
    have rest : 0 ≤ claims (s.inflight ++ s.live) name c :=
      claims_nonneg (fun o member => funded.need_nonneg user o (List.mem_cons_of_mem _ member)) c
    have locked : s.server.userStore.locked name c = w.wallet.lockedIn c :=
      UserStore.locked_of_lookup found c
    linarith

end Locks

namespace Disk

variable {Text : Type} {env : Env ℚ} {json : JsonText ℚ Text} {disk disk' : Disk Text} {name c : Str}
  {x : ℚ}

/-- The steps of the process release no funds twice. -/
def SparesFunds (env : Env ℚ) (json : JsonText ℚ Text) (disk : Disk Text) (life : List (Action ℚ)) : Prop :=
  ∀ s ∈ disk.boot env json, Machine.Along (Threads.next env) Threads.Spares s life

/-- A process covers what its users file has locked for a user beside its orders. -/
theorem covers_boot (locks : Locks (disk.accounts json) name c x) (user : name ≠ defaultUser)
    {kind : OrderBookEntry ℚ} (token : kind.reservedToken = some c) {s : Threads ℚ}
    (booted : disk.boot env json = some s) :
    ∃ y, x ≤ y ∧ (s.beside (Threads.heldBack kind name y)).Funded := by
  obtain ⟨book, nextId, store, made, users, rfl⟩ := boot_eq_some.mp booted
  rw [← users] at locks
  obtain ⟨w, found, least⟩ := locks.least
  refine ⟨store.locked name c, ?_, Threads.funded_beside made locks.nonneg_store user ?_ token⟩
  · rw [UserStore.locked_of_lookup found]
    exact least
  · unfold UserStore.userExists
    rw [Option.mem_def.mp found]
    rfl

/-- What a user has locked in the file, a process that ends leaves locked. -/
theorem locks_live (lossless : json.Lossless) (user : name ≠ defaultUser)
    (currency : ∃ o : OrderBookEntry ℚ, o.reservedToken = some c)
    (locks : Locks (disk.accounts json) name c x) {life : List (Action ℚ)}
    (stores : disk.Stores env json life) (spares : disk.SparesFunds env json life)
    (lived : disk.live env json life = some disk') : Locks (disk'.accounts json) name c x := by
  obtain ⟨s, s', booted, ran, rfl⟩ := live_eq_some.mp lived
  obtain ⟨kind, token⟩ := currency
  obtain ⟨y, more, funded⟩ := covers_boot locks user token booted
  have running : s.shutdown = .running := by
    obtain ⟨book, nextId, store, -, -, rfl⟩ := boot_eq_some.mp booted
    rfl
  obtain ⟨-, all⟩ := Threads.exported_run (fun _ => True) (fun _ => True)
    (fun store => Locks store.users name c y) (fun s => (s.beside (Threads.heldBack kind name y)).Funded)
    (fun funded spares taken => funded.step_beside spares taken)
    (fun funded => ⟨trivial, trivial, funded.locks token user⟩) funded running (spares _ booted) ran
  unfold accounts
  rcases after_users env json disk all with same | ⟨exports, saved, kept, written⟩
  · rw [same]
    exact locks
  · have storable := stores s' (by rw [process, booted]; exact ran) exports saved
    rw [written]
    exact (kept.mono more).of_same (UserStore.load_save lossless storable)

/-- What a user has locked when a process ends is locked in every state of every later process, beside
what the orders of the time reserve, as long as no step releases funds twice: no `CANCEL`, fill or
restart gives it back. -/
theorem locked_for_good (env : Env ℚ) (lossless : json.Lossless) (lives : List (List (Action ℚ)))
    (ran : Machine.exec (live env json) disk lives = some disk')
    (stores : Machine.Along (live env json) (Stores env json) disk lives)
    (spares : Machine.Along (live env json) (SparesFunds env json) disk lives)
    (nonneg : LocksNonneg (disk.accounts json)) (named : name ≠ defaultUser) {user : User ℚ}
    (held : (disk.accounts json).lookup name = some user)
    (currency : ∃ o : OrderBookEntry ℚ, o.reservedToken = some c) {life : List (Action ℚ)} {s : Threads ℚ}
    (last : disk'.process env json life = some s) (spares' : disk'.SparesFunds env json life) :
    user.wallet.lockedIn c + claims (s.inflight ++ s.live) name c ≤ s.server.userStore.locked name c ∧
      (s.AtRest → user.wallet.lockedIn c + s.server.orderBook.reserved name c ≤
        s.server.userStore.locked name c) := by
  have locks : Locks (disk'.accounts json) name c (user.wallet.lockedIn c) :=
    Machine.exec_invariant (fun d : Disk Text => Locks (d.accounts json) name c (user.wallet.lockedIn c))
      (fun d life d' locks may lived => locks_live lossless named currency locks may.1 may.2 lived)
      ⟨fun v other w found d => nonneg.lockedIn found other d, user, held, le_rfl⟩ (stores.and spares) ran
  obtain ⟨s₀, booted, went⟩ := Option.bind_eq_some_iff.mp last
  obtain ⟨kind, token⟩ := currency
  obtain ⟨y, more, covered⟩ := covers_boot locks named token booted
  have funded := Machine.exec_invariant (fun s => (s.beside (Threads.heldBack kind name y)).Funded)
    (fun s a s' funded spares step => funded.step_beside spares (Threads.taken_of_next step)) covered
    (spares' _ booted) went
  have above : user.wallet.lockedIn c + claims (s.inflight ++ s.live) name c ≤
      s.server.userStore.locked name c :=
    (add_le_add_left more _).trans (funded.above token named)
  refine ⟨above, fun rests => ?_⟩
  rwa [rests.inflight, rests.live, List.nil_append, ← reserved_eq_claims] at above

/-- A server on which Alice offers two of five bitcoins, and which is shut down. -/
def aliceAsked : Option (Disk (Option (Json ℚ))) :=
  live exactEnv BookRun.exactFiles ⟨[], none, none⟩
    [.connect, .message 0 0 (str "REGISTER alice pw"), .advance 0, .message 0 0 (str "DEPOSIT btc 5"),
      .message 0 0 (str "ASK btc/usd 2 4"), .advance 0, .advance 0, .cleanup, .cleanup, .cleanup, .cleanup]

/-- Bob buys what was Alice's order. -/
def bobBuys : List (Action ℚ) :=
  [.engine, .engine, .engine, .engine, .task 0 (StdSort.insertion _) 0, .connect,
    .message 0 0 (str "REGISTER bob pw"), .advance 0, .message 0 0 (str "DEPOSIT usd 8"),
    .message 0 0 (str "BID btc/usd 2 4"), .advance 0, .advance 0, .engine, .engine,
    .task 0 (StdSort.insertion _) 0, .cleanup, .cleanup, .cleanup]

/-- Alice offers another bitcoin. -/
def aliceAsks : List (Action ℚ) :=
  [.connect, .message 0 0 (str "LOGIN alice pw"), .advance 0, .message 0 0 (str "ASK btc/usd 1 4"), .advance 0,
    .advance 0]

instance (disk : Disk Text) (life : List (Action ℚ)) : Decidable (disk.SparesFunds env json life) :=
  inferInstanceAs (Decidable (∀ s ∈ disk.boot env json, _))

/-- Bob has got the two bitcoins, and two of Alice's are still locked, beside the one she offers now. -/
theorem locked_for_good_alice : ∃ disk ∈ aliceAsked, ∃ disk' s,
    Machine.exec (live exactEnv BookRun.exactFiles) disk [bobBuys] = some disk' ∧
    disk'.process exactEnv BookRun.exactFiles aliceAsks = some s ∧
    s.server.userStore.available (str "bob") (str "BTC") = 2 ∧
    s.server.orderBook.reserved (str "alice") (str "BTC") = 1 ∧
    2 + 1 ≤ s.server.userStore.locked (str "alice") (str "BTC") := by
  obtain ⟨disk, saved, found⟩ := (Option.any_eq_true _ _).mp
    (show aliceAsked.any (fun disk =>
      ((disk.accounts BookRun.exactFiles).lookup (str "alice")).any (fun user =>
        decide (user.wallet.lockedIn (str "BTC") = 2)) &&
      decide (LocksNonneg (disk.accounts BookRun.exactFiles)) &&
      decide (Machine.Along (live exactEnv BookRun.exactFiles) (Stores exactEnv BookRun.exactFiles) disk
        [bobBuys]) &&
      decide (Machine.Along (live exactEnv BookRun.exactFiles) (SparesFunds exactEnv BookRun.exactFiles) disk
        [bobBuys]) &&
      (Machine.exec (live exactEnv BookRun.exactFiles) disk [bobBuys]).any (fun disk' =>
        decide (disk'.SparesFunds exactEnv BookRun.exactFiles aliceAsks) &&
        (disk'.process exactEnv BookRun.exactFiles aliceAsks).any (fun s => decide (s.AtRest ∧
          s.server.userStore.available (str "bob") (str "BTC") = 2 ∧
          s.server.orderBook.reserved (str "alice") (str "BTC") = 1)))) by decide +kernel)
  simp only [Bool.and_eq_true, decide_eq_true_eq] at found
  obtain ⟨⟨⟨⟨held, nonneg⟩, stores⟩, spares⟩, rest⟩ := found
  obtain ⟨user, held, two⟩ := (Option.any_eq_true _ _).mp held
  obtain ⟨disk', ran, rest⟩ := (Option.any_eq_true _ _).mp rest
  obtain ⟨spares', rest⟩ := Bool.and_eq_true_iff.mp rest
  obtain ⟨s, last, rest⟩ := (Option.any_eq_true _ _).mp rest
  obtain ⟨rests, bought, reserved⟩ := of_decide_eq_true rest
  have currency : ∃ o : OrderBookEntry ℚ, o.reservedToken = some (str "BTC") :=
    ⟨⟨0, 0, [], str "BTC/USD", .ask, [], 0⟩, by decide +kernel⟩
  have kept := (locked_for_good exactEnv (documents_lossless _ _ _) [bobBuys] ran stores spares nonneg
    (by decide) held currency last (of_decide_eq_true spares')).2 rests
  rw [of_decide_eq_true two, reserved] at kept
  exact ⟨disk, saved, disk', s, ran, last, bought, reserved, kept⟩

end Disk

end MiniATS
