import MiniATS.Proofs.Json
import MiniATS.Proofs.ReadEntries
import MiniATS.Server.Storage

/-!
# Reading back orders, wallets and users

An entry with finite numbers, a wallet with finite balances and a user with such a wallet are read
back from their values. A balance that is not finite is null in the file, and then nothing is.
-/

namespace MiniATS

open Json

variable {R Text : Type} {json : JsonText R Text}

section Written

theorem written_valid (lossless : json.Lossless) {v : Json R} (ordered : v.Ordered)
    (valid : ∀ s ∈ v.strings, isUtf8 s) :
    json.parse (json.written v) = .ok (v.finitely json.isFinite) := by
  obtain ⟨text, dumped, parsed⟩ := lossless.printed v ordered valid
  unfold JsonText.written
  rw [dumped]
  exact parsed

theorem written_invalid (lossless : json.Lossless) {v : Json R} {s : Str} (member : s ∈ v.strings)
    (invalid : isUtf8 s = false) : ∃ e, json.parse (json.written v) = .error e := by
  obtain ⟨e, refused⟩ := lossless.refused v ⟨s, member, invalid⟩
  unfold JsonText.written
  rw [refused]
  exact lossless.parse_empty

theorem finitely_ofList {α : Type} (f : α → Json R) (l : List α) :
    (ofList f l).finitely json.isFinite = ofList (fun x => (f x).finitely json.isFinite) l := by
  unfold ofList
  rw [finitely, finiteItems_eq, List.map_map]
  rfl

theorem asList_ofList {α : Type} {f : α → Json R} {read : Json R → Except Exn α} {l : List α}
    (every : ∀ x ∈ l, read (f x) = .ok x) : asList read (ofList f l) = .ok l := by
  unfold ofList asList
  induction l with
  | nil => rfl
  | cons x l ih =>
    obtain ⟨first, others⟩ := List.forall_mem_cons.mp every
    dsimp only at ih ⊢
    rw [List.map_cons, List.mapM_cons, first, ih others]
    rfl

end Written

namespace OrderBookEntry

/-- The price and the amount of an entry are finite. -/
def Finite (json : JsonText R Text) (e : OrderBookEntry R) : Prop :=
  json.isFinite e.price ∧ json.isFinite e.amount

instance (e : OrderBookEntry R) : Decidable (e.Finite json) :=
  inferInstanceAs (Decidable (_ ∧ _))

theorem toJson_finitely {e : OrderBookEntry R} (finite : e.Finite json) :
    e.toJson.finitely json.isFinite = e.toJson := by
  obtain ⟨price, amount⟩ := finite
  simp only [toJson, members, finitely, finiteMembers, price, amount, if_true]

theorem members_ascending (e : OrderBookEntry R) : (e.members.map Prod.fst).Pairwise (· < ·) := by
  simp only [members, List.map_cons, List.map_nil]
  decide +kernel

theorem toJson_ordered (e : OrderBookEntry R) : e.toJson.Ordered := by
  refine ⟨e.members_ascending, ?_⟩
  rw [orderedMembers_iff]
  simp [members, Ordered]

theorem at_toJson (e : OrderBookEntry R) {key : Str} {v : Json R} (listed : (key, v) ∈ e.members) :
    e.toJson.at' key = .ok v :=
  at_object (nodup_of_ascending e.members_ascending) listed

theorem fromJson_toJson (json : JsonText R Text) (e : OrderBookEntry R) : fromJson json e.toJson = .ok e := by
  have price : e.toJson.at' (str "price") = .ok (.number e.price) := e.at_toJson (by simp [members])
  have amount : e.toJson.at' (str "amount") = .ok (.number e.amount) := e.at_toJson (by simp [members])
  have timestamp : e.toJson.at' (str "timestamp") = .ok (.string e.timestamp) :=
    e.at_toJson (by simp [members])
  have product : e.toJson.at' (str "product") = .ok (.string e.product) := e.at_toJson (by simp [members])
  have orderType : e.toJson.at' (str "orderType") = .ok (.string (orderTypeToString e.orderType)) :=
    e.at_toJson (by simp [members])
  have username : e.toJson.at' (str "username") = .ok (.string e.username) :=
    e.at_toJson (by simp [members])
  have id : e.toJson.member (str "id") = some (.unsigned e.id) :=
    member_object (nodup_of_ascending e.members_ascending) (by simp [members])
  have typed : determineOrderType (orderTypeToString e.orderType) = .ok e.orderType :=
    CSVHandler.determineOrderType_eq_ok.mpr rfl
  unfold fromJson
  rw [price, amount, timestamp, product, orderType, username, id]
  simp only [JsonText.asNumber, JsonText.asUnsigned, asString, bind, Except.bind, pure, Except.pure, typed]

/-- The strings of an entry are UTF-8. -/
def Utf8 (e : OrderBookEntry R) : Prop :=
  isUtf8 e.timestamp ∧ isUtf8 e.product ∧ isUtf8 e.username

instance (e : OrderBookEntry R) : Decidable e.Utf8 :=
  inferInstanceAs (Decidable (_ ∧ _ ∧ _))

theorem toJson_valid {e : OrderBookEntry R} (utf8 : e.Utf8) : ∀ s ∈ e.toJson.strings, isUtf8 s := by
  obtain ⟨timestamp, product, username⟩ := utf8
  have type : isUtf8 (orderTypeToString e.orderType) := by
    cases e.orderType <;> decide +kernel
  refine valid_object ?_ ?_
  · simp only [members, List.map_cons, List.map_nil]
    decide +kernel
  · simp [members, strings, timestamp, product, username, type]

end OrderBookEntry

namespace OrderBook

/-- The strings of a book are UTF-8 and its numbers are finite. -/
structure Plain (json : JsonText R Text) (book : OrderBook R) : Prop where
  products : ∀ p ∈ book.getKnownProducts, isUtf8 p
  strings : ∀ o ∈ book.getAllOrders ++ book.finalizedSales, o.Utf8
  numbers : ∀ o ∈ book.getAllOrders ++ book.finalizedSales, o.Finite json

variable {book : OrderBook R}

instance : Decidable (book.Plain json) :=
  decidable_of_iff ((∀ p ∈ book.getKnownProducts, isUtf8 p) ∧
      (∀ o ∈ book.getAllOrders ++ book.finalizedSales, o.Utf8) ∧
      ∀ o ∈ book.getAllOrders ++ book.finalizedSales, o.Finite json)
    ⟨fun ⟨products, strings, numbers⟩ => ⟨products, strings, numbers⟩,
      fun plain => ⟨plain.products, plain.strings, plain.numbers⟩⟩

theorem members_ascending (book : OrderBook R) : (book.members.map Prod.fst).Pairwise (· < ·) := by
  simp only [members, List.map_cons, List.map_nil]
  decide +kernel

theorem mem_getAllOrders_of_lookup {p : Str} {l : List (OrderBookEntry R)} (found : book.orderMap.lookup p = some l)
    {o : OrderBookEntry R} (member : o ∈ l) : o ∈ book.getAllOrders :=
  KeyedMap.mem_flat_of_get (k := p) (by rwa [KeyedMap.get_of_lookup found])

theorem ordered_entries (l : List (OrderBookEntry R)) : (ofList OrderBookEntry.toJson l).Ordered := by
  unfold ofList
  rw [Ordered, orderedItems_iff]
  intro v member
  obtain ⟨e, -, rfl⟩ := List.mem_map.mp member
  exact e.toJson_ordered

theorem valid_entries {l : List (OrderBookEntry R)} (utf8 : ∀ o ∈ l, o.Utf8) :
    ∀ s ∈ (ofList OrderBookEntry.toJson l).strings, isUtf8 s := by
  intro s within
  unfold ofList at within
  rw [Json.strings, itemStrings_eq, List.mem_flatMap] at within
  obtain ⟨v, member, within⟩ := within
  obtain ⟨e, listed, rfl⟩ := List.mem_map.mp member
  exact OrderBookEntry.toJson_valid (utf8 e listed) s within

theorem finitely_entries {l : List (OrderBookEntry R)} (finite : ∀ o ∈ l, o.Finite json) :
    (ofList OrderBookEntry.toJson l).finitely json.isFinite = ofList OrderBookEntry.toJson l := by
  rw [finitely_ofList]
  unfold ofList
  refine congrArg Json.array (List.map_congr_left fun e listed => ?_)
  exact OrderBookEntry.toJson_finitely (finite e listed)

/-- What `save` writes is read back as the value it has stored. -/
theorem parse_save (lossless : json.Lossless) (plain : book.Plain json) :
    json.parse (save json book) = .ok book.toJson := by
  have sale : ∀ o ∈ book.finalizedSales, o ∈ book.getAllOrders ++ book.finalizedSales :=
    fun o member => List.mem_append_right _ member
  have filed : ∀ p l, book.orderMap.lookup p = some l → ∀ o ∈ l, o ∈ book.getAllOrders ++ book.finalizedSales :=
    fun p l found o member => List.mem_append_left _ (mem_getAllOrders_of_lookup found member)
  have ordered : book.toJson.Ordered := by
    refine ⟨book.members_ascending, ?_⟩
    rw [orderedMembers_iff]
    simp only [members, List.forall_mem_cons]
    exact ⟨ordered_entries _, ordered_ofMap _ fun _ _ _ => ordered_entries _, fun _ none' => nomatch none'⟩
  have valid : ∀ s ∈ book.toJson.strings, isUtf8 s := by
    refine valid_object ?_ ?_
    · simp only [members, List.map_cons, List.map_nil]
      decide +kernel
    · simp only [members, List.forall_mem_cons]
      refine ⟨valid_entries fun o member => plain.strings o (sale o member), fun s within => ?_,
        fun _ none' => nomatch none'⟩
      obtain ⟨p, l, found, rfl | within⟩ := (strings_ofMap _).mp within
      · exact plain.products _ (AList.lookup_isSome.mp (by rw [found]; rfl))
      · exact valid_entries (fun o member => plain.strings o (filed p l found o member)) s within
  have finitely : book.toJson.finitely json.isFinite = book.toJson := by
    simp only [toJson, members, Json.finitely, finiteMembers]
    rw [finitely_entries fun o member => plain.numbers o (sale o member), finitely_ofMap,
      ofMap_congr _ fun p l found => finitely_entries fun o member => plain.numbers o (filed p l found o member)]
  have read := written_valid lossless ordered valid
  rwa [finitely] at read

/-- `load` after `save` gives the lists and the sales of the book, and leaves the rest. -/
theorem load_save (lossless : json.Lossless) (plain : book.Plain json) (fresh : OrderBook R) :
    ∃ orderMap : KeyedMap Str (List (OrderBookEntry R)), (∀ p, orderMap.lookup p = book.orderMap.lookup p) ∧
      fresh.load json (some (save json book)) =
        { fresh with orderMap, finalizedSales := book.finalizedSales } := by
  have distinct := nodup_of_ascending book.members_ascending
  have sales : book.toJson.member (str "finalizedSales") =
      some (ofList OrderBookEntry.toJson book.finalizedSales) :=
    member_object distinct (by simp [members])
  have lists : book.toJson.member (str "orderMap") =
      some (ofMap (ofList OrderBookEntry.toJson) book.orderMap) :=
    member_object distinct (by simp [members])
  have entries : ∀ l : List (OrderBookEntry R),
      asList (OrderBookEntry.fromJson json) (ofList OrderBookEntry.toJson l) = .ok l :=
    fun l => asList_ofList fun e _ => OrderBookEntry.fromJson_toJson json e
  have every : ∀ p l, book.orderMap.lookup p = some l → ∃ l',
      asList (OrderBookEntry.fromJson json) (ofList OrderBookEntry.toJson l) = .ok l' ∧ l' = l :=
    fun p l _ => ⟨l, entries l, rfl⟩
  obtain ⟨orderMap, read, same⟩ := asMap_ofMap book.orderMap every
  refine ⟨orderMap, fun p => ?_, ?_⟩
  · exact eq_of_rel (same p)
  · simp only [load, parse_save lossless plain, lists, sales, Option.mapM_some, read, entries]
    rfl

end OrderBook

namespace Wallet

/-- The currencies of a wallet are UTF-8. -/
def Utf8 (w : Wallet R) : Prop :=
  (∀ c x, w.currencies.lookup c = some x → isUtf8 c) ∧ ∀ c x, w.locked.lookup c = some x → isUtf8 c

/-- The balances of a wallet are finite. -/
def Finite (json : JsonText R Text) (w : Wallet R) : Prop :=
  (∀ c x, w.currencies.lookup c = some x → json.isFinite x) ∧
    ∀ c x, w.locked.lookup c = some x → json.isFinite x

instance (w : Wallet R) : Decidable w.Utf8 := inferInstanceAs (Decidable (_ ∧ _))

instance (w : Wallet R) : Decidable (w.Finite json) := inferInstanceAs (Decidable (_ ∧ _))

/-- The same available and locked balances. -/
def Same (w w' : Wallet R) : Prop :=
  (∀ c, w'.currencies.lookup c = w.currencies.lookup c) ∧ ∀ c, w'.locked.lookup c = w.locked.lookup c

/-- The members of a wallet in the file. -/
def finiteMembers (json : JsonText R Text) (w : Wallet R) : List (Str × Json R) :=
  [(str "currencies", ofMap (fun x => (number x).finitely json.isFinite) w.currencies),
    (str "locked", ofMap (fun x => (number x).finitely json.isFinite) w.locked)]

theorem toJson_finitely (w : Wallet R) :
    w.toJson.finitely json.isFinite = .object (w.finiteMembers json) := by
  simp only [toJson, members, Json.finitely, Json.finiteMembers, finitely_ofMap]
  rfl

theorem finiteMembers_ascending (json : JsonText R Text) (w : Wallet R) :
    ((w.finiteMembers json).map Prod.fst).Pairwise (· < ·) := by
  simp only [finiteMembers, List.map_cons, List.map_nil]
  decide +kernel

theorem toJson_ordered (w : Wallet R) : w.toJson.Ordered := by
  have scalars : ∀ m : KeyedMap Str R, (ofMap Json.number m).Ordered :=
    fun m => ordered_ofMap m fun _ _ _ => trivial
  refine ⟨?_, ?_⟩
  · simp only [members, List.map_cons, List.map_nil]
    decide +kernel
  · rw [orderedMembers_iff]
    simp [members, scalars]

theorem toJson_valid_iff (w : Wallet R) : (∀ s ∈ w.toJson.strings, isUtf8 s) ↔ w.Utf8 := by
  have balances : ∀ m : KeyedMap Str R, (∀ s ∈ (ofMap Json.number m).strings, isUtf8 s) ↔
      ∀ c x, m.lookup c = some x → isUtf8 c := by
    intro m
    constructor
    · exact fun valid c x found => valid c ((strings_ofMap m).mpr ⟨c, x, found, Or.inl rfl⟩)
    · intro valid s within
      obtain ⟨c, x, found, rfl | within⟩ := (strings_ofMap m).mp within
      · exact valid s x found
      · rw [strings] at within
        · exact absurd within List.not_mem_nil
        all_goals
          intro _ is
          cases is
  constructor
  · intro valid
    refine ⟨(balances _).mp fun s within => valid s ?_, (balances _).mp fun s within => valid s ?_⟩
    · exact mem_strings_object (m := (str "currencies", _)) List.mem_cons_self within
    · exact mem_strings_object (m := (str "locked", _)) (List.mem_cons_of_mem _ List.mem_cons_self) within
  · rintro ⟨currencies, locked⟩
    refine valid_object ?_ ?_
    · simp only [members, List.map_cons, List.map_nil]
      decide +kernel
    · simp only [members, List.forall_mem_cons]
      exact ⟨(balances _).mpr currencies, (balances _).mpr locked, List.forall_mem_nil _⟩

/-- Balances are read back when they are finite. -/
theorem asMap_balances {m : KeyedMap Str R} (finite : ∀ c x, m.lookup c = some x → json.isFinite x) :
    ∃ m', asMap json.asNumber (ofMap (fun x => (number x).finitely json.isFinite) m) = .ok m' ∧
      ∀ c, m'.lookup c = m.lookup c := by
  have every : ∀ c x, m.lookup c = some x →
      ∃ y, json.asNumber ((number x).finitely json.isFinite) = .ok y ∧ y = x := by
    intro c x found
    refine ⟨x, ?_, rfl⟩
    rw [Json.finitely, if_pos (finite c x found)]
    rfl
  obtain ⟨m', read, same⟩ := asMap_ofMap m every
  exact ⟨m', read, fun c => eq_of_rel (same c)⟩

theorem asMap_balances_error {m : KeyedMap Str R} {c : Str} {x : R} (found : m.lookup c = some x)
    (infinite : json.isFinite x = false) :
    ∃ e, asMap json.asNumber (ofMap (fun x => (number x).finitely json.isFinite) m) = .error e := by
  apply asMap_ofMap_error m found (e := typeError)
  rw [Json.finitely, if_neg (by simp [infinite])]
  rfl

section Reading

variable (json)

theorem fromJson_finitely (w : Wallet R) : fromJson json (w.toJson.finitely json.isFinite) = (do
    let currencies ← asMap json.asNumber (ofMap (fun x => (number x).finitely json.isFinite) w.currencies)
    let locked ← asMap json.asNumber (ofMap (fun x => (number x).finitely json.isFinite) w.locked)
    return ⟨currencies, locked⟩) := by
  have distinct := nodup_of_ascending (finiteMembers_ascending json w)
  rw [toJson_finitely]
  unfold fromJson
  rw [member_object distinct List.mem_cons_self,
    member_object distinct (List.mem_cons_of_mem _ List.mem_cons_self)]

/-- A wallet with finite balances is read back. -/
theorem fromJson_ok {w : Wallet R} (finite : w.Finite json) :
    ∃ w', fromJson json (w.toJson.finitely json.isFinite) = .ok w' ∧ w.Same w' := by
  obtain ⟨currencies, first, same⟩ := asMap_balances finite.1
  obtain ⟨locked, second, same'⟩ := asMap_balances finite.2
  refine ⟨⟨currencies, locked⟩, ?_, same, same'⟩
  rw [fromJson_finitely, first, second]
  rfl

/-- A wallet with a balance that is not finite is not read back. -/
theorem fromJson_error {w : Wallet R} (infinite : ¬ w.Finite json) :
    ∃ e, fromJson json (w.toJson.finitely json.isFinite) = .error e := by
  have some' : ∀ {m : KeyedMap Str R}, ¬ (∀ c x, m.lookup c = some x → json.isFinite x) →
      ∃ e, asMap json.asNumber (ofMap (fun x => (number x).finitely json.isFinite) m) = .error e := by
    intro m not
    push Not at not
    obtain ⟨c, x, found, infinite'⟩ := not
    exact asMap_balances_error found (by simpa using infinite')
  rw [fromJson_finitely]
  by_cases currencies : ∀ c x, w.currencies.lookup c = some x → json.isFinite x
  · obtain ⟨m, first, -⟩ := asMap_balances currencies
    obtain ⟨e, second⟩ := some' fun locked => infinite ⟨currencies, locked⟩
    rw [first, second]
    exact ⟨e, rfl⟩
  · obtain ⟨e, first⟩ := some' currencies
    rw [first]
    exact ⟨e, rfl⟩

end Reading

end Wallet

namespace User

/-- The strings of a user are UTF-8. -/
def Utf8 (u : User R) : Prop := isUtf8 u.username ∧ isUtf8 u.password ∧ u.wallet.Utf8

instance (u : User R) : Decidable u.Utf8 := inferInstanceAs (Decidable (_ ∧ _ ∧ _))

/-- The same name, password and balances. -/
def Same (u u' : User R) : Prop :=
  u'.username = u.username ∧ u'.password = u.password ∧ u.wallet.Same u'.wallet

theorem members_ascending (u : User R) : (u.members.map Prod.fst).Pairwise (· < ·) := by
  simp only [members, List.map_cons, List.map_nil]
  decide +kernel

theorem toJson_ordered (u : User R) : u.toJson.Ordered := by
  refine ⟨u.members_ascending, ?_⟩
  rw [orderedMembers_iff]
  simp only [members, List.forall_mem_cons]
  exact ⟨trivial, trivial, u.wallet.toJson_ordered, fun _ none' => nomatch none'⟩

theorem toJson_valid_iff (u : User R) : (∀ s ∈ u.toJson.strings, isUtf8 s) ↔ u.Utf8 := by
  constructor
  · intro valid
    refine ⟨valid _ ?_, valid _ ?_, u.wallet.toJson_valid_iff.mp fun s within => valid s ?_⟩
    · exact mem_strings_object (m := (str "username", .string u.username)) (by simp [members])
        (by simp [strings])
    · exact mem_strings_object (m := (str "password", .string u.password)) (by simp [members])
        (by simp [strings])
    · exact mem_strings_object (m := (str "wallet", u.wallet.toJson)) (by simp [members]) within
  · rintro ⟨username, password, wallet⟩
    refine valid_object ?_ ?_
    · simp only [members, List.map_cons, List.map_nil]
      decide +kernel
    · simp only [members, List.forall_mem_cons]
      refine ⟨?_, ?_, u.wallet.toJson_valid_iff.mpr wallet, List.forall_mem_nil _⟩
      · simpa [strings] using password
      · simpa [strings] using username

/-- The members of a user in the file. -/
def finiteMembers (json : JsonText R Text) (u : User R) : List (Str × Json R) :=
  [(str "password", .string u.password), (str "username", .string u.username),
    (str "wallet", u.wallet.toJson.finitely json.isFinite)]

theorem toJson_finitely (u : User R) :
    u.toJson.finitely json.isFinite = .object (u.finiteMembers json) := by
  simp only [toJson, members, Json.finitely, Json.finiteMembers]
  rfl

section Reading

variable (json)

theorem fromJson_finitely (u : User R) : fromJson json (u.toJson.finitely json.isFinite) =
    (Wallet.fromJson json (u.wallet.toJson.finitely json.isFinite)).map
      fun wallet => ⟨u.username, u.password, wallet⟩ := by
  have distinct : ((u.finiteMembers json).map Prod.fst).Nodup := by
    simp only [finiteMembers, List.map_cons, List.map_nil]
    decide +kernel
  have username : (object (u.finiteMembers json)).at' (str "username") = .ok (.string u.username) :=
    at_object distinct (by simp [finiteMembers])
  have password : (object (u.finiteMembers json)).at' (str "password") = .ok (.string u.password) :=
    at_object distinct (by simp [finiteMembers])
  have wallet : (object (u.finiteMembers json)).member (str "wallet") =
      some (u.wallet.toJson.finitely json.isFinite) :=
    member_object distinct (by simp [finiteMembers])
  rw [toJson_finitely]
  unfold fromJson
  rw [username, password, wallet]
  simp only [asString, bind, Except.bind, pure, Except.pure]
  rfl

theorem fromJson_ok {u : User R} (finite : u.wallet.Finite json) :
    ∃ u', fromJson json (u.toJson.finitely json.isFinite) = .ok u' ∧ u.Same u' := by
  obtain ⟨wallet, read, same⟩ := Wallet.fromJson_ok json finite
  refine ⟨⟨u.username, u.password, wallet⟩, ?_, rfl, rfl, same⟩
  rw [fromJson_finitely, read]
  rfl

theorem fromJson_error {u : User R} (infinite : ¬ u.wallet.Finite json) :
    ∃ e, fromJson json (u.toJson.finitely json.isFinite) = .error e := by
  obtain ⟨e, read⟩ := Wallet.fromJson_error json infinite
  refine ⟨e, ?_⟩
  rw [fromJson_finitely, read]
  rfl

end Reading

end User

namespace UserStore

/-- The names and passwords of the users and the names of their currencies are UTF-8 and their
balances are finite. -/
def Storable (json : JsonText R Text) (store : UserStore R) : Prop :=
  ∀ name u, store.users.lookup name = some u → u.Utf8 ∧ u.wallet.Finite json

instance (store : UserStore R) : Decidable (store.Storable json) :=
  inferInstanceAs (Decidable (∀ name u, store.users.lookup name = some u → u.Utf8 ∧ u.wallet.Finite json))

section File

variable {store : UserStore R} (lossless : json.Lossless)

include lossless

/-- What `save` writes for users whose strings are UTF-8. -/
theorem parse_save (utf8 : ∀ name u, store.users.lookup name = some u → u.Utf8) :
    json.parse (store.save json) = .ok (ofMap (fun u => u.toJson.finitely json.isFinite) store.users) := by
  have ordered : (ofMap User.toJson store.users).Ordered := ordered_ofMap _ fun _ u _ => u.toJson_ordered
  have valid : ∀ s ∈ (ofMap User.toJson store.users).strings, isUtf8 s := by
    intro s within
    obtain ⟨name, u, found, rfl | within⟩ := (strings_ofMap _).mp within
    · rw [← store.named s u found]
      exact (utf8 s u found).1
    · exact u.toJson_valid_iff.mpr (utf8 name u found) s within
  rw [← finitely_ofMap]
  exact written_valid lossless ordered valid

/-- One string that is not UTF-8 leaves the file empty. -/
theorem parse_save_error {name : Str} {u : User R} (found : store.users.lookup name = some u)
    (invalid : ¬ u.Utf8) : ∃ e, json.parse (store.save json) = .error e := by
  rw [← u.toJson_valid_iff] at invalid
  push Not at invalid
  obtain ⟨s, within, not⟩ := invalid
  exact written_invalid lossless ((strings_ofMap _).mpr ⟨name, u, found, Or.inr within⟩) (by simpa using not)

/-- A user that cannot be stored costs all users their accounts. -/
theorem load_lost {name : Str} {u : User R} (found : store.users.lookup name = some u)
    (bad : ¬ (u.Utf8 ∧ u.wallet.Finite json)) : load json ∅ (some (store.save json)) = ∅ := by
  by_cases utf8 : ∀ name u, store.users.lookup name = some u → u.Utf8
  · have infinite : ¬ u.wallet.Finite json := fun finite => bad ⟨utf8 name u found, finite⟩
    obtain ⟨e, fails⟩ := User.fromJson_error json infinite
    obtain ⟨e', read⟩ := asMap_ofMap_error store.users
      (f := fun u => u.toJson.finitely json.isFinite) found fails
    unfold load
    simp only [parse_save lossless utf8, bind, Except.bind, read]
  · push Not at utf8
    obtain ⟨name', u', found', invalid⟩ := utf8
    obtain ⟨e, parsed⟩ := parse_save_error lossless found' invalid
    unfold load
    simp only [parsed, bind, Except.bind]

/-- Users that can be stored are loaded as they were. -/
theorem load_save (storable : store.Storable json) (name : Str) :
    Option.Rel User.Same (store.users.lookup name)
      ((load json ∅ (some (store.save json))).lookup name) := by
  obtain ⟨users, read, same⟩ := asMap_ofMap store.users
    (fun name u found => User.fromJson_ok json (storable name u found).2)
  unfold load
  simp only [parse_save lossless fun name u found => (storable name u found).1, bind, Except.bind, read]
  exact same name

end File

end UserStore

end MiniATS
