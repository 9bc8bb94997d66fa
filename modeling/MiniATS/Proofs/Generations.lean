import MiniATS.Proofs.Storage
import MiniATS.Proofs.ThreadSteps
import MiniATS.Server.Generations

/-!
# What a process leaves on its files

`cleanup` reads a state of the run at each of its steps, so what holds of the sales, the orders and the
users all along a run holds of what is written (`exported_run`). Users that are saved and whose texts
are UTF-8 and balances finite are those the next process starts with (`load_save`).
-/

namespace MiniATS

open CSVHandler

variable {R Text : Type}

/-- The sales that have been read. -/
def Shutdown.sales : Shutdown R → Option (List (OrderBookEntry R))
  | .running => none
  | .savedSales sales | .savedOrders sales _ => some sales
  | .saved exports | .stopped exports => some exports.sales

/-- What has been read for the files has these properties. -/
def Shutdown.All (ofSales ofOrders : List (OrderBookEntry R) → Prop) (ofUsers : UserStore R → Prop) :
    Shutdown R → Prop
  | .running => True
  | .savedSales sales => ofSales sales
  | .savedOrders sales orders => ofSales sales ∧ ofOrders orders
  | .saved exports | .stopped exports =>
    ofSales exports.sales ∧ ofOrders exports.orders ∧ ofUsers exports.users

section Reading

variable {ofSales ofOrders : List (OrderBookEntry R) → Prop} {ofUsers : UserStore R → Prop}

theorem Shutdown.All.sales {shutdown : Shutdown R} (all : shutdown.All ofSales ofOrders ofUsers) :
    ∀ sales ∈ shutdown.sales, ofSales sales := by
  intro sales read
  cases shutdown with
  | running => cases read
  | savedSales sales' => exact Option.some.inj read ▸ all
  | savedOrders sales' orders => exact Option.some.inj read ▸ all.1
  | saved exports | stopped exports => exact Option.some.inj read ▸ all.1

theorem Shutdown.Reads.all {now : Exports R} {shutdown shutdown' : Shutdown R}
    (reads : Reads now shutdown shutdown') (sales : ofSales now.sales) (orders : ofOrders now.orders)
    (users : ofUsers now.users) (all : shutdown.All ofSales ofOrders ofUsers) :
    shutdown'.All ofSales ofOrders ofUsers := by
  cases reads with
  | sales => exact sales
  | orders => exact ⟨all, orders⟩
  | users => exact ⟨all.1, all.2, users⟩
  | stop => exact all

variable [Zero R] [Add R] [Sub R] [Mul R] [Div R] [LT R] [LE R] [DecidableLT R] [DecidableLE R] [BEq R]

/-- What an invariant says of the sales, the orders and the users holds of what is written. -/
theorem Threads.exported_run {env : Env R} {ok : Threads R → Action R → Prop}
    (ofSales ofOrders : List (OrderBookEntry R) → Prop) (ofUsers : UserStore R → Prop)
    (inv : Threads R → Prop) (step : ∀ {s a s'}, inv s → ok s a → Taken env s a s' → inv s')
    (tells : ∀ {s}, inv s → ofSales s.server.orderBook.getSales ∧
      ofOrders s.server.orderBook.getAllOrders ∧ ofUsers s.server.userStore)
    {s s' : Threads R} (start : inv s) (running : s.shutdown = .running) {actions : List (Action R)}
    (along : Machine.Along (next env) ok s actions) (ran : Machine.exec (next env) s actions = some s') :
    inv s' ∧ s'.shutdown.All ofSales ofOrders ofUsers := by
  refine Machine.exec_invariant (fun s => inv s ∧ s.shutdown.All ofSales ofOrders ofUsers)
    (fun s a s' holds may went => ?_) ⟨start, by rw [running]; trivial⟩ along ran
  obtain ⟨invariant, all⟩ := holds
  have taken := taken_of_next went
  refine ⟨step invariant may taken, ?_⟩
  rcases shutdown_step taken with same | ⟨-, reads⟩
  · rw [same]
    exact all
  · obtain ⟨sales, orders, users⟩ := tells invariant
    exact reads.all sales orders users all

end Reading

namespace UserStore

theorem ofUsers_eq_some {users : KeyedMap Str (User R)} {store : UserStore R} :
    ofUsers users = some store ↔ store.users = users := by
  unfold ofUsers
  constructor
  · intro made
    split at made
    · rw [← Option.some.inj made]
    · cases made
  · rintro rfl
    rw [dif_pos store.named]

end UserStore

namespace User

theorem Same.refl (u : User R) : u.Same u := ⟨rfl, rfl, fun _ => rfl, fun _ => rfl⟩

theorem Same.trans {u u' u'' : User R} (first : u.Same u') (second : u'.Same u'') : u.Same u'' :=
  ⟨second.1.trans first.1, second.2.1.trans first.2.1,
    fun c => (second.2.2.1 c).trans (first.2.2.1 c), fun c => (second.2.2.2 c).trans (first.2.2.2 c)⟩

/-- A user that is kept is there. -/
theorem of_rel_left {a b : Option (User R)} (rel : Option.Rel Same a b) {u : User R} (here : a = some u) :
    ∃ u', b = some u' ∧ u.Same u' := by
  subst here
  cases rel with
  | some related => exact ⟨_, rfl, related⟩

/-- A user that is there was kept. -/
theorem of_rel_right {a b : Option (User R)} (rel : Option.Rel Same a b) {u' : User R} (here : b = some u') :
    ∃ u, a = some u ∧ u.Same u' := by
  subst here
  cases rel with
  | some related => exact ⟨_, rfl, related⟩

end User

section Users

variable {json : JsonText R Text}

theorem Wallet.Same.utf8 {w w' : Wallet R} (same : w.Same w') (utf8 : w.Utf8) : w'.Utf8 :=
  ⟨fun c x found => utf8.1 c x ((same.1 c).symm.trans found),
    fun c x found => utf8.2 c x ((same.2 c).symm.trans found)⟩

theorem Wallet.Same.finite {w w' : Wallet R} (same : w.Same w') (finite : w.Finite json) : w'.Finite json :=
  ⟨fun c x found => finite.1 c x ((same.1 c).symm.trans found),
    fun c x found => finite.2 c x ((same.2 c).symm.trans found)⟩

/-- The users that are loaded are filed under their names and can be stored again. -/
theorem UserStore.exists_loaded (lossless : json.Lossless) {store : UserStore R}
    (storable : store.Storable json) : ∃ store' : UserStore R,
      store'.users = load json ∅ (some (store.save json)) ∧ store'.Storable json ∧
      ∀ name, Option.Rel User.Same (store.users.lookup name) (store'.users.lookup name) := by
  have same := load_save lossless storable
  have was : ∀ name u', (load json ∅ (some (store.save json))).lookup name = some u' →
      ∃ u, store.users.lookup name = some u ∧ u.Same u' :=
    fun name u' found => User.of_rel_right (same name) found
  refine ⟨⟨load json ∅ (some (store.save json)), fun name u' found => ?_⟩, rfl, fun name u' found => ?_, same⟩
  · obtain ⟨u, here, related⟩ := was name u' found
    exact related.1.trans (store.named name u here)
  · obtain ⟨u, here, username, password, wallet⟩ := was name u' found
    obtain ⟨⟨called, secret, currencies⟩, finite⟩ := storable name u here
    exact ⟨⟨username ▸ called, password ▸ secret, wallet.utf8 currencies⟩, wallet.finite finite⟩

theorem User.rel_refl (u : Option (User R)) : Option.Rel User.Same u u := by
  cases u with
  | none => exact .none
  | some u => exact .some (User.Same.refl u)

theorem User.rel_trans {u u' u'' : Option (User R)} (first : Option.Rel User.Same u u')
    (second : Option.Rel User.Same u' u'') : Option.Rel User.Same u u'' := by
  cases first with
  | none => exact second
  | some related =>
    cases second with
    | some related' => exact .some (related.trans related')

end Users

namespace Disk

variable {env : Env R} {json : JsonText R Text} {disk : Disk Text}

theorem boot_eq_some {s : Threads R} : disk.boot env json = some s ↔ ∃ book nextId store,
    OrderBook.make env (str "orders.csv") disk.orders 1 = .ok (book, nextId) ∧
    store.users = disk.accounts json ∧ s = Threads.start book nextId store := by
  unfold boot
  constructor
  · intro booted
    split at booted
    · cases booted
    · rename_i book nextId made
      obtain ⟨store, users, rfl⟩ := Option.map_eq_some_iff.mp booted
      exact ⟨book, nextId, store, made, UserStore.ofUsers_eq_some.mp users, rfl⟩
  · rintro ⟨book, nextId, store, made, users, rfl⟩
    rw [made]
    exact Option.map_eq_some_iff.mpr ⟨store, UserStore.ofUsers_eq_some.mpr users, rfl⟩

theorem after_sales (shutdown : Shutdown R) : (disk.after env json shutdown).sales =
    disk.sales ++ (shutdown.sales.getD []).flatMap (entryToLine env) := by
  cases shutdown with
  | running => exact (List.append_nil _).symm
  | _ => rfl

variable (env json disk) in
/-- What the orders file holds after a process: what it held before, or the orders of some moment. -/
theorem after_orders {shutdown : Shutdown R} {ofSales ofOrders : List (OrderBookEntry R) → Prop}
    {ofUsers : UserStore R → Prop} (all : shutdown.All ofSales ofOrders ofUsers) :
    (disk.after env json shutdown).orders = disk.orders ∨ ∃ orders, ofOrders orders ∧
      (disk.after env json shutdown).orders = some (entriesToCSV env [] orders false) := by
  cases shutdown with
  | running | savedSales sales => exact Or.inl rfl
  | savedOrders sales orders => exact Or.inr ⟨orders, all.2, rfl⟩
  | saved exports | stopped exports => exact Or.inr ⟨exports.orders, all.2.1, rfl⟩

variable (env json disk) in
/-- What the users file holds after a process: what it held before, or the users of some moment. -/
theorem after_users {shutdown : Shutdown R} {ofSales ofOrders : List (OrderBookEntry R) → Prop}
    {ofUsers : UserStore R → Prop} (all : shutdown.All ofSales ofOrders ofUsers) :
    (disk.after env json shutdown).users = disk.users ∨ ∃ exports, shutdown.exports = some exports ∧
      ofUsers exports.users ∧ (disk.after env json shutdown).users = some (exports.users.save json) := by
  cases shutdown with
  | saved exports | stopped exports => exact Or.inr ⟨exports, rfl, all.2.2, rfl⟩
  | _ => exact Or.inl rfl

variable [Zero R] [Add R] [Sub R] [Mul R] [Div R] [LT R] [LE R] [DecidableLT R] [DecidableLE R] [BEq R]

theorem live_eq_some {life : List (Action R)} {disk' : Disk Text} :
    disk.live env json life = some disk' ↔ ∃ s s', disk.boot env json = some s ∧
      Machine.exec (Threads.next env) s life = some s' ∧ disk' = disk.after env json s'.shutdown := by
  simp only [live, process, Option.map_eq_some_iff, Option.bind_eq_some_iff]
  constructor
  · rintro ⟨s', ⟨s, booted, ran⟩, rfl⟩
    exact ⟨s, s', booted, ran, rfl⟩
  · rintro ⟨s, s', booted, ran, rfl⟩
    exact ⟨s', ⟨s, booted, ran⟩, rfl⟩

end Disk

end MiniATS
