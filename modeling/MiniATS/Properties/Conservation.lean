import MiniATS.Properties.ReservedFunds

/-!
# Conservation of money

The available and locked funds of all users but `default` change by deposits, withdrawals and
the trades with `default`'s orders, in every step but one: a pass whose first match sells a
user's ask at a negative price spends the negative cost, which raises the buyer's locked
balance, and then throws before the seller's side is booked. `money_conserved_iff` says that
this is the only way.
-/

namespace MiniATS

open Crossing Ledger CSVHandler OrderBookEntry OrderBook

/-- What the users but `default` receive by a trade minus what they pay, when the other party is
`default`. -/
def Trade.flow (product : Str) (t : Trade ℚ) (c : Str) : ℚ :=
  match pairTokens invalidSaleProduct product with
  | .error _ => 0
  | .ok (base, quote') =>
    let bought := (if c = base then t.amount else 0) -
      if c = quote' then t.ask.entry.price * t.amount else 0
    if t.bid.entry.username ≠ defaultUser ∧ t.ask.entry.username = defaultUser then bought
    else if t.bid.entry.username = defaultUser ∧ t.ask.entry.username ≠ defaultUser then - bought
    else 0

/-- The pass does not start by selling a user's ask at a negative price: the best ask, if the best
bid meets it, is `default`'s or has a price of zero or more. -/
def OrderBook.FairStart (std : StdSort (EntryPtr ℚ)) (orderList : List (OrderBookEntry ℚ)) : Prop :=
  ∀ ask ∈ bestAsk std orderList, ∀ bid ∈ bestBid std orderList,
    ask.entry.price ≤ bid.entry.price → ask.entry.username ≠ defaultUser → 0 ≤ ask.entry.price

instance (std : StdSort (EntryPtr ℚ)) (orderList : List (OrderBookEntry ℚ)) :
    Decidable (FairStart std orderList) :=
  inferInstanceAs (Decidable (∀ ask ∈ bestAsk std orderList, ∀ bid ∈ bestBid std orderList,
    ask.entry.price ≤ bid.entry.price → ask.entry.username ≠ defaultUser → 0 ≤ ask.entry.price))

namespace UserStore

variable {store store' : UserStore ℚ}

/-- The users but `default`. -/
def members (store : UserStore ℚ) : Finset Str := store.users.keys.toFinset.erase defaultUser

/-- All that the users but `default` have of a currency, available or locked. -/
def total (store : UserStore ℚ) (c : Str) : ℚ :=
  ∑ u ∈ store.members, (store.available u c + store.locked u c)

theorem mem_members {u : Str} : u ∈ store.members ↔ u ≠ defaultUser ∧ store.userExists u := by
  unfold members userExists
  rw [Finset.mem_erase, List.mem_toFinset, ← AList.mem_keys, AList.lookup_isSome]

theorem total_eq (store : UserStore ℚ) : store.total = store.ledger.total store.members := rfl

/-- A user who is not there has nothing. -/
theorem nothing_of_unknown {u : Str} (unknown : store.userExists u = false) (c : Str) :
    store.ledger.available u c + store.ledger.locked u c = 0 := by
  have none' : store.users.lookup u = none := by
    simpa [userExists] using unknown
  simp [available, locked, wallet, none']

theorem members_of_users (same : ∀ v, v ≠ defaultUser → store'.userExists v = store.userExists v) :
    store'.members = store.members := by
  ext u
  rw [mem_members, mem_members]
  exact and_congr_right fun user => by rw [same u user]

/-- New users come with nothing. -/
theorem total_of_users (users : ∀ v, store.userExists v → store'.userExists v) (c : Str) :
    store.ledger.total store'.members c = store.total c := by
  rw [total_eq]
  refine total_of_subset (fun v member => ?_) (fun v member out d => ?_) c
  · obtain ⟨user, known⟩ := mem_members.mp member
    exact mem_members.mpr ⟨user, users v known⟩
  · refine nothing_of_unknown ?_ d
    by_contra known
    exact out (mem_members.mpr ⟨(mem_members.mp member).1, by simpa using known⟩)

theorem total_of_ledger (users : ∀ v, store.userExists v → store'.userExists v)
    (same : store'.ledger = store.ledger) : store'.total = store.total := by
  funext c
  rw [total_eq, same]
  exact total_of_users users c

end UserStore

namespace System

variable {env : Env ℚ} {s : System ℚ}

/-- What comes in from outside by an event: an accepted deposit or, negative, withdrawal, and the
trades of a pass with `default`'s orders. -/
def flow (env : Env ℚ) (s : System ℚ) : Event ℚ → Str → ℚ
  | .message sid now data =>
    Server.fundsMoved env (Server.tokenise data) (replyTo env s sid now data)
  | .pass std now product => fun c =>
    ((passOf env s std now product).trades.map (fun t => t.1.flow product c)).sum

/-- Every pass starts fairly. -/
def FairlyPriced (s : System ℚ) : Event ℚ → Prop
  | .message _ _ _ => True
  | .pass std _ product => FairStart std (s.server.orderBook.orders product)

instance (s : System ℚ) (e : Event ℚ) : Decidable (FairlyPriced s e) :=
  match e with
  | .message _ _ _ => inferInstanceAs (Decidable True)
  | .pass std _ product => inferInstanceAs (Decidable (FairStart std (s.server.orderBook.orders product)))

theorem message_total (sound : Sound s) (sid : Nat) (now : Int) (data : Str) :
    (step env s (.message sid now data)).server.userStore.total =
      s.server.userStore.total + flow env s (.message sid now data) := by
  have ends := message_end env sound sid now data
  show _ = _ + Server.fundsMoved env (Server.tokenise data) (replyTo env s sid now data)
  generalize replyTo env s sid now data = reply at ends ⊢
  generalize step env s (.message sid now data) = s' at ends ⊢
  have members : ∀ {store : UserStore ℚ} {touched : List Str},
      UserStore.Within touched s.server.userStore store → store.members = s.server.userStore.members :=
    fun within => UserStore.members_of_users fun v _ => within.users v
  cases ends with
  | quiet later users same session moved =>
    rw [moved, add_zero]
    exact UserStore.total_of_ledger users same
  | placed loggedIn owner id open' token nonneg enough locked within moved =>
    rw [moved, add_zero, Server.startMatchingProduct_userStore]
    funext d
    show UserStore.total _ d = _
    rw [UserStore.total_eq, UserStore.total_eq, Server.insertOrder, members within, locked, total_lock]
  | cancelled inBook owner user token unlocked within moved =>
    rw [moved, add_zero]
    funext d
    rw [UserStore.total_eq, UserStore.total_eq, Server.removeOrderById, members within, unlocked,
      total_unlock]
  | deposited user known nonneg credited within moved =>
    funext d
    rw [UserStore.total_eq, UserStore.total_eq, members within, credited, Pi.add_apply, moved]
    exact total_credit _ (UserStore.mem_members.mpr ⟨user, known⟩) _ _ d
  | withdrew user known nonneg enough debited within moved =>
    funext d
    rw [UserStore.total_eq, UserStore.total_eq, members within, debited, Pi.add_apply, moved]
    exact total_debit (UserStore.mem_members.mpr ⟨user, known⟩) enough d

end System

namespace OrderBook

/-- What the seller of the match that a pass failed on was not paid. -/
def unpaid (product : Str) (made : List (Match (EntryPtr ℚ) ℚ)) (result : Except Exn Unit) (c : Str) : ℚ :=
  match result, pairTokens invalidSaleProduct product, made with
  | .error _, .ok (_, quote'), [t] =>
    if t.ask.entry.username ≠ defaultUser ∧ c = quote' then t.ask.entry.price * t.amount else 0
  | _, _, _ => 0

variable {product : Str} {l : List (OrderBookEntry ℚ)} {store : UserStore ℚ}
  {std : StdSort (EntryPtr ℚ)} {made : List (Match (EntryPtr ℚ) ℚ)} {l' : Ledger Str Str ℚ}
  {result : Except Exn Unit}

/-- The flow of a trade, by the users that take part in it. -/
theorem flow_tradeOf (affordable : Affordable std product l store) {base quote' : Str}
    (pair : pairTokens invalidSaleProduct product = .ok (base, quote')) {t : Match (EntryPtr ℚ) ℚ}
    (member : t ∈ passPlan std l) (c : Str) :
    (tradeOf t).flow product c = (saleOf base quote' t).flow store.members c := by
  have party : ∀ u, u = t.bid.entry.username ∨ u = t.ask.entry.username →
      (u ∈ store.members ↔ u ≠ defaultUser) := by
    intro u party
    rw [UserStore.mem_members]
    exact ⟨fun both => both.1, fun user => ⟨user, affordable.known member u party user⟩⟩
  have buyer := party _ (Or.inl rfl)
  have seller := party _ (Or.inr rfl)
  simp only [Trade.flow, tradeOf, pair, Sale.flow, saleOf, buyer, seller, not_not]
  by_cases b : t.bid.entry.username = defaultUser <;> by_cases a : t.ask.entry.username = defaultUser <;>
    simp only [b, a, ne_eq, not_true, not_false_eq_true, and_true, and_false,
      if_true, if_false, add_zero, zero_add, neg_sub]
  all_goals rfl

/-- What the users have after a pass. -/
theorem PassRun.total (affordable : Affordable std product l store)
    (run : PassRun product store (passPlan std l) made l' result) (c : Str) :
    l'.total store.members c =
      store.total c + (made.map (fun t => (tradeOf t).flow product c)).sum - unpaid product made result c := by
  have weaken : ∀ {owed : Str → Str → ℚ}, Covers (· ≠ defaultUser) store.ledger owed →
      Covers (· ∈ store.members) store.ledger owed :=
    fun covers u member => covers u (UserStore.mem_members.mp member).1
  cases run with
  | idle none' => simp [unpaid, UserStore.total_eq]
  | @complete base quote' pair prices =>
    have flows : (passPlan std l).map (fun t => (tradeOf t).flow product c) =
        ((passPlan std l).map (saleOf base quote')).map (fun s => s.flow store.members c) := by
      rw [List.map_map]
      exact List.map_congr_left fun t member => flow_tradeOf affordable pair member c
    rw [total_settle_foldl (plan_amounts base quote') (fun s member u inside d => ?_)
      (weaken (plan_covers affordable pair)), flows, UserStore.total_eq]
    · exact (sub_zero _).symm
    · exact plan_nonneg affordable base quote' s member u (UserStore.mem_members.mp inside).1 d
  | @negative base quote' t ts pair first price =>
    have inPlan : t ∈ passPlan std l := by simp [first]
    obtain ⟨amount, refund⟩ := (proper_of_sound (passPlan_sound inPlan)).sale base quote'
    have seller : t.ask.entry.username ∈ store.members ↔ t.ask.entry.username ≠ defaultUser := by
      rw [UserStore.mem_members]
      exact ⟨fun both => both.1, fun user => ⟨user, affordable.known inPlan _ (Or.inr rfl) user⟩⟩
    rw [total_deliver amount refund (weaken (head_covers affordable pair first)), UserStore.total_eq,
      List.map_singleton, List.sum_singleton, flow_tradeOf affordable pair inPlan]
    simp only [unpaid, pair, saleOf, seller]
  | @unpaired e t ts pair first buyer seller =>
    simp [unpaid, pair, Trade.flow, UserStore.total_eq]

/-- A pass leaves a seller unpaid exactly when it does not start fairly. -/
theorem PassRun.unpaid_eq_zero
    (run : PassRun product store (passPlan std l) made l' result) :
    unpaid product made result = 0 ↔ FairStart std l := by
  -- the best ask and the best bid, where they cross, are the first match
  have fair : ∀ {t ts}, passPlan std l = t :: ts →
      (t.ask.entry.username ≠ defaultUser → 0 ≤ t.ask.entry.price) → FairStart std l := by
    intro t ts first good ask isAsk bid isBid crossed user
    obtain ⟨best, -⟩ := best_of_first first
    rw [Option.mem_def.mp isAsk] at best
    rw [Option.some.inj best] at user ⊢
    exact good user
  have idle : passPlan std l = [] → FairStart std l := by
    intro none' ask isAsk bid isBid crossed
    obtain ⟨ts, first⟩ := first_of_best isAsk isBid crossed
    rw [none'] at first
    cases first
  cases run with
  | idle none' => exact ⟨fun _ => idle none', fun _ => rfl⟩
  | complete pair prices =>
    refine ⟨fun _ => ?_, fun _ => rfl⟩
    cases first : passPlan std l with
    | nil => exact idle first
    | cons t ts => exact fair first fun _ => prices t (by simp [first])
  | @negative base quote' t ts pair first price =>
    have positive := (passPlan_sound (show t ∈ passPlan std l by simp [first])).positive
    obtain ⟨ask, bid⟩ := best_of_first first
    have crossed := (proper_of_sound (passPlan_sound (show t ∈ passPlan std l by simp [first]))).2
    constructor
    · intro zero
      apply fair first
      intro user
      have none' := congrFun zero quote'
      simp only [unpaid, pair, user, ne_eq, not_false_eq_true, and_self, if_true, Pi.zero_apply] at none'
      rcases mul_eq_zero.mp none' with none' | none'
      · exact none'.ge
      · exact absurd none' positive.ne'
    · intro fair'
      have isDefault : t.ask.entry.username = defaultUser := by
        by_contra user
        exact absurd (fair' _ ask _ bid crossed user) (not_le.mpr price)
      funext c
      simp [unpaid, pair, isDefault]
  | @unpaired e t ts pair first buyer seller =>
    refine ⟨fun _ => fair first fun user => absurd seller user, fun _ => ?_⟩
    funext c
    simp [unpaid, pair]

end OrderBook

namespace System

variable {env : Env ℚ} {s : System ℚ}

/-- A pass changes what the users have by its trades with `default` exactly when it starts fairly. -/
theorem pass_total_iff (secured : Secured s) (std : StdSort (EntryPtr ℚ)) (now : Int) (product : Str) :
    (step env s (.pass std now product)).server.userStore.total =
        s.server.userStore.total + flow env s (.pass std now product) ↔
      FairStart std (s.server.orderBook.orders product) := by
  have affordable := (secured.covered product).affordable std
  have run := passCross_ran env std now affordable
  have frame := passCross_framed env std now s.server product
  have flows : flow env s (.pass std now product) = fun c =>
      ((s.server.passCross env std now product).made.map (fun t => (tradeOf t).flow product c)).sum := by
    funext c
    have same := congrArg (List.map (fun t : Trade ℚ => t.flow product c)) frame.trades
    simp only [List.map_map, List.map_nil, List.nil_append] at same
    simp only [flow, (passOf_cross std now product env s).1]
    exact congrArg List.sum same
  have members : (step env s (.pass std now product)).server.userStore.members =
      s.server.userStore.members :=
    UserStore.members_of_users fun v user => matchProduct_users_eq env std now s.server product user
  have total : ∀ c, (step env s (.pass std now product)).server.userStore.total c =
      s.server.userStore.total c + flow env s (.pass std now product) c -
        unpaid product (s.server.passCross env std now product).made
          (ofOutcome (s.server.passCross env std now product)).result c := by
    intro c
    rw [UserStore.total_eq, members, flows, ← run.total affordable c]
    exact congrArg (fun store : UserStore ℚ => store.ledger.total s.server.userStore.members c)
      (matchProduct_userStore env std now s.server product)
  rw [← run.unpaid_eq_zero]
  constructor
  · intro conserved
    funext c
    have changed := total c
    rw [conserved, Pi.add_apply] at changed
    rw [Pi.zero_apply]
    linarith
  · intro zero
    funext c
    rw [total c, zero, Pi.add_apply, Pi.zero_apply, sub_zero]

/-- What came in from outside during a run. -/
def inflow (env : Env ℚ) (s : System ℚ) (events : List (Event ℚ)) : Str → ℚ :=
  Machine.sumAlong (Machine.total (step env)) (flow env) s events

/-- In every state of a run the users have what they had and what came in, exactly when every pass
of the run starts fairly. -/
theorem money_conserved_iff (env : Env ℚ) {filename : Str} {file : Option Str} {book : OrderBook ℚ}
    {nextId : Nat} (made : OrderBook.make env filename file 1 = .ok (book, nextId))
    (store : UserStore ℚ)
    (balances : ∀ u c, 0 ≤ store.available u c ∧ 0 ≤ store.locked u c) (events : List (Event ℚ)) :
    let s := start book nextId store
    (∀ ran, ran <+: events →
        (run env s ran).server.userStore.total = store.total + inflow env s ran) ↔
      Machine.Along (Machine.total (step env)) FairlyPriced s events := by
  have secured : Secured (start book nextId store) :=
    Secured.start (make_loaded made) fun u _ c => (balances u c).2
  refine Machine.run_accumulates_iff Secured (fun s : System ℚ => s.server.userStore.total)
    (fun s e secured => secured.step e) ?_ secured events
  intro s e secured
  cases e with
  | message sid now data => exact iff_of_true (message_total secured.toSound sid now data) trivial
  | pass std now product => exact pass_total_iff secured std now product

/-- At four dollars the money stays what it was. -/
theorem money_conserved_sale :
    (run exactEnv fresh (saleAt "4" "6")).server.userStore.total =
      UserStore.total .empty + inflow exactEnv fresh (saleAt "4" "6") :=
  (money_conserved_iff exactEnv (fresh_book exactEnv) .empty (fun _ _ => ⟨le_rfl, le_rfl⟩)
    (saleAt "4" "6")).mpr (by decide +kernel) _ List.prefix_rfl

/-- At minus five dollars five dollars are made. -/
theorem money_created :
    (run exactEnv fresh (saleAt "-5" "0")).server.userStore.total (str "USD") ≠
      UserStore.total .empty (str "USD") + inflow exactEnv fresh (saleAt "-5" "0") (str "USD") := by
  decide +kernel

end System

end MiniATS
