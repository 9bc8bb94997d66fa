import MiniATS.Proofs.PassAccounting

/-!
# A pass over covered orders

`Covered` is what a pass may count on: every order of the list that is not `default`'s belongs
to a user of the store, reserves a token, needs nothing negative, and the locked balances cover
the claims of the list. From such a state a pass ends in one of four ways (`PassRun`). No match
finds a party short; the only error that an order of a user can bring about is the seller's
`insertCurrency` of a negative cost, and then it is the first match of the pass that fails,
since the asks come in order of price.
-/

namespace MiniATS

open Crossing Ledger CSVHandler OrderBookEntry

/-- An order whose owner is a user of the store and that was let in by `fulfillOrder`. -/
structure Admitted (store : UserStore ℚ) (o : OrderBookEntry ℚ) : Prop where
  owner : store.userExists o.username
  token : o.reservedToken.isSome
  nonneg : 0 ≤ o.need

theorem Admitted.mono {store store' : UserStore ℚ} {o : OrderBookEntry ℚ}
    (admitted : Admitted store o)
    (users : store.userExists o.username → store'.userExists o.username) : Admitted store' o :=
  ⟨users admitted.owner, admitted.token, admitted.nonneg⟩

namespace OrderBook

/-- What a pass over the list of a product may count on. -/
structure Covered (product : Str) (l : List (OrderBookEntry ℚ)) (store : UserStore ℚ) : Prop where
  filed : ∀ o ∈ l, o.product = product
  admitted : ∀ o ∈ l, o.username ≠ defaultUser → Admitted store o
  covers : Covers (· ≠ defaultUser) store.ledger (claims l)

/-- What a pass may count on when the funds of some orders have gone: every party can still pay what
it owes in the matches of the plan. -/
structure Affordable (std : StdSort (EntryPtr ℚ)) (product : Str) (l : List (OrderBookEntry ℚ))
    (store : UserStore ℚ) : Prop where
  filed : ∀ o ∈ l, o.product = product
  admitted : ∀ o ∈ l, o.username ≠ defaultUser → Admitted store o
  enough : ∀ u, u ≠ defaultUser → ∀ c,
    ((passPlan std l).map (fun t => owedBy product t u c)).sum ≤ store.locked u c

/-- The wallet calls for a match refused nothing to a party that is not `default`. -/
structure Clean (t : Trade ℚ × SaleFlags) : Prop where
  buyerSpent : t.1.bid.entry.username ≠ defaultUser → t.2.buyerSpent ≠ some false
  refunded : t.1.bid.entry.username ≠ defaultUser → t.2.refunded ≠ some false
  sellerSpent : t.1.ask.entry.username ≠ defaultUser → t.2.sellerSpent ≠ some false

/-- How a pass ends on covered orders: the matches made, the balances and the result. -/
inductive PassRun (product : Str) (store : UserStore ℚ) (plan : List (Match (EntryPtr ℚ) ℚ)) :
    List (Match (EntryPtr ℚ) ℚ) → Ledger Str Str ℚ → Except Exn Unit → Prop
  | idle (none' : plan = []) : PassRun product store plan [] store.ledger (.ok ())
  | complete {base quote' : Str}
    (pair : pairTokens invalidSaleProduct product = .ok (base, quote'))
    (prices : ∀ t ∈ plan, 0 ≤ t.ask.entry.price) :
    PassRun product store plan plan ((plan.map (saleOf base quote')).foldl Ledger.settle store.ledger)
      (.ok ())
  | negative {base quote' : Str} {t : Match (EntryPtr ℚ) ℚ} {ts : List (Match (EntryPtr ℚ) ℚ)}
    (pair : pairTokens invalidSaleProduct product = .ok (base, quote')) (first : plan = t :: ts)
    (price : t.ask.entry.price < 0) :
    PassRun product store plan [t] (store.ledger.deliver (saleOf base quote' t))
      (.error Wallet.negativeAmount)
  | unpaired {e : Exn} {t : Match (EntryPtr ℚ) ℚ} {ts : List (Match (EntryPtr ℚ) ℚ)}
    (pair : pairTokens invalidSaleProduct product = .error e) (first : plan = t :: ts)
    (buyer : t.bid.entry.username = defaultUser) (seller : t.ask.entry.username = defaultUser) :
    PassRun product store plan [t] store.ledger (.error e)

/-- A match as it is recorded. -/
def tradeOf (t : Match (EntryPtr ℚ) ℚ) : Trade ℚ := ⟨t.bid, t.ask, t.amount⟩

/-- The amounts and prices that settling a match relies on. -/
def Proper (t : Match (EntryPtr ℚ) ℚ) : Prop :=
  0 < t.amount ∧ t.ask.entry.price ≤ t.bid.entry.price

theorem proper_of_sound {asks bids : List (EntryPtr ℚ)} {t : Match (EntryPtr ℚ) ℚ}
    (sound : Sound asks bids t) : Proper t :=
  ⟨sound.positive, sound.crossed⟩

theorem Proper.sale {t : Match (EntryPtr ℚ) ℚ} (proper : Proper t) (base quote' : Str) :
    0 ≤ (saleOf base quote' t).amount ∧ 0 ≤ (saleOf base quote' t).refund :=
  ⟨proper.1.le, mul_nonneg (sub_nonneg.mpr proper.2) proper.1.le⟩

section Frame

variable {product : Str}

/-- What settling matches leaves alone, and what it records. -/
structure PassFrame (made : List (Match (EntryPtr ℚ) ℚ)) (st st' : PassState ℚ) : Prop where
  users : ∀ v, st'.userStore.userExists v = st.userStore.userExists v ∨
    v = defaultUser ∧ st'.userStore.userExists v
  wallets : ∀ v, (∀ t ∈ made, v ≠ t.bid.entry.username ∧ v ≠ t.ask.entry.username) →
    st'.userStore.wallet v = st.userStore.wallet v
  nextId : st.nextId ≤ st'.nextId
  trades : st'.trades.map Prod.fst = st.trades.map Prod.fst ++ made.map tradeOf
  sales : st'.sales.map (fun s => (s.price, s.amount)) =
    st.sales.map (fun s => (s.price, s.amount)) ++
      made.map (fun t => (t.ask.entry.price, t.amount))

theorem PassFrame.refl (st : PassState ℚ) : PassFrame [] st st :=
  ⟨fun _ => Or.inl rfl, fun _ _ => rfl, le_rfl, by simp, by simp⟩

theorem PassFrame.trans {made made' : List (Match (EntryPtr ℚ) ℚ)} {st st' st'' : PassState ℚ}
    (first : PassFrame made st st') (second : PassFrame made' st' st'') :
    PassFrame (made ++ made') st st'' where
  users := by
    intro v
    rcases second.users v with same | created
    · rcases first.users v with same' | ⟨isDefault, there⟩
      · exact Or.inl (same.trans same')
      · exact Or.inr ⟨isDefault, same.trans there⟩
    · exact Or.inr created
  wallets := by
    intro v out
    rw [second.wallets v fun t member => out t (List.mem_append_right _ member),
      first.wallets v fun t member => out t (List.mem_append_left _ member)]
  nextId := first.nextId.trans second.nextId
  trades := by rw [second.trades, first.trades, List.map_append, List.append_assoc]
  sales := by rw [second.sales, first.sales, List.map_append, List.append_assoc]

/-- The matches that count as made when one match is settled: a refused one does not. -/
def madeBy (t : Match (EntryPtr ℚ) ℚ) : Verdict Exn → List (Match (EntryPtr ℚ) ℚ)
  | .refused _ => []
  | .failed _ => [t]
  | .done => [t]

theorem MatchEnd.frame {st st' : PassState ℚ} {t : Match (EntryPtr ℚ) ℚ} {v : Verdict Exn}
    (ends : MatchEnd product st t st' v) : PassFrame (madeBy t v) st st' := by
  cases ends with
  | refused u party user unknown same trades sales framed =>
    exact ⟨framed.users, fun v _ => by rw [same], framed.nextId, by simp [trades, madeBy],
      by simp [sales, madeBy]⟩
  | @made flags sale result parties trades sales terms exchanged framed =>
    have made : PassFrame [t] st st' :=
      ⟨framed.users, fun v out => framed.wallets v (out t (by simp)).1 (out t (by simp)).2,
        framed.nextId, by simp [trades, tradeOf], by simp [sales, terms.1, terms.2]⟩
    cases result <;> exact made

theorem settleAll_frame (product currentTimestamp : Str) {ts : List (Match (EntryPtr ℚ) ℚ)}
    (proper : ∀ t ∈ ts, Proper t) (st : PassState ℚ) :
    PassFrame (settleAll (settleMatch product currentTimestamp) st ts).2.1 st
      (settleAll (settleMatch product currentTimestamp) st ts).1 := by
  induction ts generalizing st with
  | nil => exact PassFrame.refl st
  | cons t ts ih =>
    have head := (settleMatch_end product currentTimestamp st (proper t (by simp)).1
      (proper t (by simp)).2).frame
    unfold settleAll
    generalize settleMatch product currentTimestamp st t = r at head ⊢
    rcases r with ⟨st', _ | e | e⟩
    · exact head.trans (ih (fun t member => proper t (by simp [member])) st')
    · exact head
    · exact head

end Frame

section Covered

variable {product base quote' : Str} {st : PassState ℚ}
  {t : Match (EntryPtr ℚ) ℚ}

private theorem flag_of {p : Prop} [Decidable p] (holds : p) : some (decide p) ≠ some false := by
  simp [holds]

/-- A match whose parties have locked what they owe: it is settled, or, when the ask is priced
below zero, it fails after both sides have delivered. -/
theorem settleMatch_of_covered (currentTimestamp : Str)
    (pair : pairTokens invalidSaleProduct product = .ok (base, quote'))
    (proper : Proper t)
    (known : ∀ u, u = t.bid.entry.username ∨ u = t.ask.entry.username → u ≠ defaultUser →
      st.userStore.userExists u)
    (covered : Covers (· ≠ defaultUser) st.userStore.ledger (saleOf base quote' t).owed) :
    ∃ st' flags, Clean (tradeOf t, flags) ∧ st'.trades = st.trades ++ [(tradeOf t, flags)] ∧
      PassFrame [t] st st' ∧
      ((0 ≤ t.ask.entry.price ∧ settleMatch product currentTimestamp st t = (st', .done) ∧
          st'.userStore.ledger = st.userStore.ledger.settle (saleOf base quote' t)) ∨
        (t.ask.entry.price < 0 ∧
          settleMatch product currentTimestamp st t = (st', .failed Wallet.negativeAmount) ∧
          st'.userStore.ledger = st.userStore.ledger.deliver (saleOf base quote' t))) := by
  obtain ⟨amount, refund⟩ := proper.sale base quote'
  have ends := settleMatch_end product currentTimestamp st proper.1 proper.2
  have frame := ends.frame
  have pays : BuyerPays st.userStore.ledger (saleOf base quote' t) :=
    spend_buyer_enough amount refund covered
  have delivers : SellerDelivers st.userStore.ledger (saleOf base quote' t) :=
    spend_seller_enough amount refund covered
  have refunds : t.bid.entry.username ≠ defaultUser → _ := unlock_buyer_enough amount refund covered
  generalize settleMatch product currentTimestamp st t = r at ends frame ⊢
  obtain ⟨st', v⟩ := r
  cases ends with
  | refused u party user unknown same trades sales framed =>
    rw [known u party user] at unknown
    cases unknown
  | @made flags sale result parties trades sales terms exchanged framed =>
    unfold Exchanged at exchanged
    rw [pair] at exchanged
    have frame' : PassFrame [t] st st' := by cases result <;> exact frame
    refine ⟨st', flags, ?_, trades, frame', ?_⟩
    all_goals
      simp only at exchanged
      generalize st'.userStore.ledger = l' at exchanged ⊢
    · cases exchanged with
      | buyerShort short => exact absurd pays short
      | sellerShort _ short => exact absurd delivers short
      | negativeCost _ _ negative =>
        exact ⟨fun user => flag_of (pays user), fun _ => by simp,
          fun user => flag_of (delivers user)⟩
      | settled _ _ nonneg refunded refund' =>
        refine ⟨fun user => flag_of (pays user), fun user isFalse => ?_,
          fun user => flag_of (delivers user)⟩
        have short := refund' false isFalse
        rw [decide_eq_true (refunds user)] at short
        cases short
    · cases exchanged with
      | buyerShort short => exact absurd pays short
      | sellerShort _ short => exact absurd delivers short
      | negativeCost _ _ negative =>
        exact Or.inr ⟨neg_of_mul_neg_left negative proper.1.le, rfl, rfl⟩
      | settled _ _ nonneg refunded refund' =>
        exact Or.inl ⟨nonneg_of_mul_nonneg_left nonneg proper.1, rfl, rfl⟩

/-- A match of a product without two tokens fails with the wallets as they were. -/
theorem settleMatch_of_unpaired (currentTimestamp : Str) (st : PassState ℚ) {e : Exn}
    (pair : pairTokens invalidSaleProduct product = .error e)
    (proper : Proper t) (buyer : t.bid.entry.username = defaultUser)
    (seller : t.ask.entry.username = defaultUser) :
    ∃ st' flags, settleMatch product currentTimestamp st t = (st', .failed e) ∧
      st'.userStore.ledger = st.userStore.ledger ∧
      st'.trades = st.trades ++ [(tradeOf t, flags)] := by
  have ends := settleMatch_end product currentTimestamp st proper.1 proper.2
  generalize settleMatch product currentTimestamp st t = r at ends ⊢
  obtain ⟨st', v⟩ := r
  cases ends with
  | refused u party user unknown same trades sales framed =>
    rcases party with rfl | rfl
    · exact absurd buyer user
    · exact absurd seller user
  | @made flags sale result parties trades sales terms exchanged framed =>
    unfold Exchanged at exchanged
    rw [pair] at exchanged
    obtain ⟨ledger, -, rfl⟩ := exchanged
    exact ⟨st', flags, rfl, ledger, trades⟩

/-- Matches at prices of zero or more are all settled when the parties have locked what all of
them owe. The induction carries the coverage of the matches still to come. -/
theorem settleAll_complete (currentTimestamp : Str)
    (pair : pairTokens invalidSaleProduct product = .ok (base, quote'))
    {ts : List (Match (EntryPtr ℚ) ℚ)} (proper : ∀ t ∈ ts, Proper t)
    (prices : ∀ t ∈ ts, 0 ≤ t.ask.entry.price)
    (known : ∀ t ∈ ts, ∀ u, u = t.bid.entry.username ∨ u = t.ask.entry.username →
      u ≠ defaultUser → st.userStore.userExists u)
    (nonneg : ∀ t ∈ ts, ∀ u, u ≠ defaultUser → ∀ c, 0 ≤ (saleOf base quote' t).owed u c)
    (covered : Covers (· ≠ defaultUser) st.userStore.ledger
      ((ts.map (saleOf base quote')).map Sale.owed).sum) :
    let r := settleAll (settleMatch product currentTimestamp) st ts
    r.2 = (ts, none) ∧
      r.1.userStore.ledger = (ts.map (saleOf base quote')).foldl Ledger.settle st.userStore.ledger ∧
      ∀ trade ∈ r.1.trades, trade ∈ st.trades ∨ Clean trade := by
  induction ts generalizing st with
  | nil => exact ⟨rfl, rfl, fun _ member => Or.inl member⟩
  | cons t ts ih =>
    have properHead := proper t (by simp)
    have nonneg' : ∀ s ∈ ts.map (saleOf base quote'), ∀ u, u ≠ defaultUser →
        ∀ c, 0 ≤ s.owed u c := by
      intro s member
      obtain ⟨t', inList, rfl⟩ := List.mem_map.mp member
      exact nonneg t' (by simp [inList])
    obtain ⟨amount, refund⟩ := properHead.sale base quote'
    rw [List.map_cons, List.map_cons, List.sum_cons] at covered
    obtain ⟨head, tail⟩ :=
      covered.split amount refund fun u user c => sum_owed_nonneg nonneg' user c
    obtain ⟨st', flags, clean, trades, frame, settled | ⟨price, -⟩⟩ :=
      settleMatch_of_covered currentTimestamp pair properHead
        (known t (by simp)) head
    swap
    · exact absurd price (not_lt_of_ge (prices t (by simp)))
    obtain ⟨-, step, ledger⟩ := settled
    rw [← ledger] at tail
    have known' : ∀ t' ∈ ts, ∀ u, u = t'.bid.entry.username ∨ u = t'.ask.entry.username →
        u ≠ defaultUser → st'.userStore.userExists u := by
      intro t' member u party user
      rcases frame.users u with same | ⟨-, there⟩
      · rw [same]
        exact known t' (by simp [member]) u party user
      · exact there
    obtain ⟨made, ledger', cleaned⟩ := ih (fun t member => proper t (by simp [member]))
      (fun t member => prices t (by simp [member])) known'
      (fun t member => nonneg t (by simp [member])) tail
    simp only [settleAll, step, made, List.map_cons, List.foldl_cons, ← ledger]
    refine ⟨trivial, ledger', fun trade member => ?_⟩
    rcases cleaned trade member with earlier | clean'
    · rw [trades] at earlier
      rcases List.mem_append.mp earlier with old | new
      · exact Or.inl old
      · obtain rfl := List.mem_singleton.mp new
        exact Or.inr clean
    · exact Or.inr clean'

end Covered

section Plan

variable {product : Str} {l : List (OrderBookEntry ℚ)} {store : UserStore ℚ}
  {std : StdSort (EntryPtr ℚ)}

theorem passPlan_sound {t : Match (EntryPtr ℚ) ℚ} (member : t ∈ passPlan std l) :
    Sound (sortedAsks std l) (sortedBids std l) t :=
  crossList_sound std l accept () t member

theorem Affordable.known (affordable : Affordable std product l store) {t : Match (EntryPtr ℚ) ℚ}
    (member : t ∈ passPlan std l) (u : Str)
    (party : u = t.bid.entry.username ∨ u = t.ask.entry.username) (user : u ≠ defaultUser) :
    store.userExists u := by
  rcases party with rfl | rfl
  · obtain ⟨o, inList, -, ⟨x, same⟩, -⟩ := bid_order_of_sound (passPlan_sound member)
    rw [same] at user ⊢
    exact (affordable.admitted o inList user).owner
  · obtain ⟨o, inList, -, ⟨x, same⟩, -⟩ := ask_order_of_sound (passPlan_sound member)
    rw [same] at user ⊢
    exact (affordable.admitted o inList user).owner

/-- A product without two tokens has orders of `default` only. -/
theorem Affordable.default_of_unpaired (affordable : Affordable std product l store) {e : Exn}
    (unpaired : pairTokens invalidSaleProduct product = .error e) :
    ∀ o ∈ l, o.username = defaultUser := by
  intro o inList
  by_contra user
  have token := (affordable.admitted o inList user).token
  rw [reservedToken_of_error (affordable.filed o inList) unpaired] at token
  cases token

/-- A user who is party to a match of covered orders has a product with two tokens. -/
theorem Affordable.paired (affordable : Affordable std product l store) {t : Match (EntryPtr ℚ) ℚ}
    (member : t ∈ passPlan std l) {e : Exn} (unpaired : pairTokens invalidSaleProduct product = .error e) :
    t.bid.entry.username = defaultUser ∧ t.ask.entry.username = defaultUser := by
  have isDefault := affordable.default_of_unpaired unpaired
  obtain ⟨o, inList, -, ⟨x, same⟩, -⟩ := bid_order_of_sound (passPlan_sound member)
  obtain ⟨o', inList', -, ⟨x', same'⟩, -⟩ := ask_order_of_sound (passPlan_sound member)
  rw [same, same']
  exact ⟨isDefault o inList, isDefault o' inList'⟩

/-- A bid of a user that is matched has a price of zero or more: it has a positive amount and
needs nothing negative. -/
theorem Affordable.bid_price (affordable : Affordable std product l store) {t : Match (EntryPtr ℚ) ℚ}
    (member : t ∈ passPlan std l) (user : t.bid.entry.username ≠ defaultUser) :
    0 ≤ t.bid.entry.price := by
  obtain ⟨o, inList, bid, ⟨x, same⟩, positive⟩ := bid_order_of_sound (passPlan_sound member)
  rw [same] at user ⊢
  have nonneg := (affordable.admitted o inList user).nonneg
  rw [need_of_bid bid] at nonneg
  exact nonneg_of_mul_nonneg_right nonneg positive

theorem Affordable.owed_nonneg (affordable : Affordable std product l store) (base quote' : Str)
    {t : Match (EntryPtr ℚ) ℚ} (member : t ∈ passPlan std l) (u : Str) (user : u ≠ defaultUser)
    (c : Str) : 0 ≤ (saleOf base quote' t).owed u c := by
  have positive := (passPlan_sound member).positive
  rw [owed_saleOf, Pi.add_apply, Pi.add_apply]
  refine add_nonneg ?_ (single_nonneg _ _ positive.le _ _)
  by_cases party : u = t.bid.entry.username
  · rw [party] at user
    exact single_nonneg _ _ (mul_nonneg positive.le (affordable.bid_price member user)) _ _
  · rw [single_of_ne party]

/-- What the matches of a pass can owe is claimed by any orders of the list among which all the
matched ones are. -/
theorem plan_owed_le (std : StdSort (EntryPtr ℚ)) (filed : ∀ o ∈ l, o.product = product)
    (admitted : ∀ o ∈ l, o.username ≠ defaultUser → Admitted store o) (keep : OrderBookEntry ℚ → Bool)
    (fixed : ∀ o x, keep (o.withAmount x) = keep o)
    (selected : ∀ t ∈ passPlan std l, keep t.bid.entry ∧ keep t.ask.entry) {u : Str}
    (user : u ≠ defaultUser) (c : Str) :
    ((passPlan std l).map (fun t => owedBy product t u c)).sum ≤ claims (l.filter keep) u c := by
  have balance := claims_crossWritten_filter std filed keep fixed accept () selected u c
  have left : 0 ≤ claims ((crossWritten std l accept ()).filter keep) u c := by
    refine claims_nonneg (fun o' member owner => ?_) c
    obtain ⟨o, inList, shrunk⟩ := ListFacts.forall₂_mem_right (crossWritten_shrunk std l accept ())
      (List.mem_of_mem_filter member)
    refine shrunk.need_nonneg (admitted o inList ?_).nonneg
    obtain ⟨x, rfl, -⟩ := shrunk
    rw [← withAmount_username o x, owner]
    exact user
  have same : (crossList std l accept ()).made = passPlan std l := rfl
  rw [same] at balance
  linarith

/-- All that the matches of a pass can owe is claimed by the orders of the list. -/
theorem Covered.plan_owed_le (covered : Covered product l store) {u : Str}
    (user : u ≠ defaultUser) (c : Str) :
    ((passPlan std l).map (fun t => owedBy product t u c)).sum ≤ claims l u c := by
  have all := OrderBook.plan_owed_le std covered.filed covered.admitted (fun _ => true)
    (fun _ _ => rfl) (fun _ _ => ⟨rfl, rfl⟩) user c
  rwa [List.filter_true] at all

theorem Covered.affordable (covered : Covered product l store) (std : StdSort (EntryPtr ℚ)) :
    Affordable std product l store :=
  ⟨covered.filed, covered.admitted, fun u user c => (covered.plan_owed_le user c).trans (covered.covers u user c)⟩

theorem sum_owedBy {base quote' : Str}
    (pair : pairTokens invalidSaleProduct product = .ok (base, quote'))
    (ts : List (Match (EntryPtr ℚ) ℚ)) (u c : Str) :
    ((ts.map (saleOf base quote')).map Sale.owed).sum u c =
      (ts.map (fun t => owedBy product t u c)).sum := by
  induction ts with
  | nil => rfl
  | cons t ts ih =>
    simp only [List.map_cons, List.sum_cons, Pi.add_apply, ih, owedBy_of_pair pair]

end Plan

section Run

variable {product : Str} {l : List (OrderBookEntry ℚ)} {store : UserStore ℚ}

/-- The crossing that a pass over a list is. -/
def passCross (std : StdSort (EntryPtr ℚ)) (l : List (OrderBookEntry ℚ))
    (product currentTimestamp : Str) (store : UserStore ℚ) (nextId : Nat) :
    Outcome (EntryPtr ℚ) ℚ (PassState ℚ) Exn :=
  crossList std l (settleMatch product currentTimestamp) ⟨store, nextId, [], []⟩

theorem passLoop_eq (std : StdSort (EntryPtr ℚ)) (l : List (OrderBookEntry ℚ))
    (product currentTimestamp : Str) (store : UserStore ℚ) (nextId : Nat) :
    passLoop std l product currentTimestamp store nextId =
      ofOutcome (passCross std l product currentTimestamp store nextId) :=
  askLoop_eq_cross _ _ _ _ _

theorem passCross_settleAll (std : StdSort (EntryPtr ℚ)) (l : List (OrderBookEntry ℚ))
    (product currentTimestamp : Str) (store : UserStore ℚ) (nextId : Nat) :
    let r := passCross std l product currentTimestamp store nextId
    (r.state, r.made, r.error) =
      settleAll (settleMatch product currentTimestamp) ⟨store, nextId, [], []⟩ (passPlan std l) :=
  (cross_settleAll _ _ _ _).1

theorem passCross_frame (std : StdSort (EntryPtr ℚ)) (l : List (OrderBookEntry ℚ))
    (product currentTimestamp : Str) (store : UserStore ℚ) (nextId : Nat) :
    let r := passCross std l product currentTimestamp store nextId
    PassFrame r.made ⟨store, nextId, [], []⟩ r.state := by
  have run := passCross_settleAll std l product currentTimestamp store nextId
  have frame := settleAll_frame product currentTimestamp
    (fun t (member : t ∈ passPlan std l) => proper_of_sound (passPlan_sound member))
    ⟨store, nextId, [], []⟩
  rw [← run] at frame
  exact frame

/-- The end of a pass over orders whose matches can be paid. -/
theorem passCross_run {std : StdSort (EntryPtr ℚ)} (affordable : Affordable std product l store)
    (currentTimestamp : Str) (nextId : Nat) :
    let r := passCross std l product currentTimestamp store nextId
    PassRun product store (passPlan std l) r.made r.state.userStore.ledger (ofOutcome r).result ∧
      ∀ trade ∈ r.state.trades, Clean trade := by
  have run := passCross_settleAll std l product currentTimestamp store nextId
  generalize passCross std l product currentTimestamp store nextId = r at run ⊢
  obtain ⟨asks, bids, st, made, error⟩ := r
  simp only at run ⊢
  cases first : passPlan std l with
  | nil =>
    rw [first, settleAll] at run
    obtain ⟨rfl, rfl, rfl⟩ := Prod.mk.injEq .. ▸ run
    exact ⟨.idle rfl, by simp⟩
  | cons t ts =>
    have inPlan : t ∈ passPlan std l := by simp [first]
    have proper : ∀ t ∈ passPlan std l, Proper t :=
      fun t member => proper_of_sound (passPlan_sound member)
    cases pair : pairTokens invalidSaleProduct product with
    | error e =>
      obtain ⟨buyer, seller⟩ := affordable.paired inPlan pair
      obtain ⟨st', flags, step, ledger, trades⟩ :=
        settleMatch_of_unpaired currentTimestamp ⟨store, nextId, [], []⟩ pair (proper t inPlan)
          buyer seller
      rw [first] at run
      simp only [settleAll, step] at run
      obtain ⟨rfl, rfl, rfl⟩ := Prod.mk.injEq .. ▸ run
      refine ⟨?_, ?_⟩
      · rw [ledger]
        exact .unpaired pair rfl buyer seller
      · rw [trades]
        rintro trade member
        obtain rfl := List.mem_singleton.mp member
        exact ⟨fun user => absurd buyer user, fun user => absurd buyer user,
          fun user => absurd seller user⟩
    | ok tokens =>
      obtain ⟨base, quote'⟩ := tokens
      have nonneg : ∀ t ∈ passPlan std l, ∀ u, u ≠ defaultUser → ∀ c,
          0 ≤ (saleOf base quote' t).owed u c :=
        fun t member u user c => affordable.owed_nonneg base quote' member u user c
      have covers : Covers (· ≠ defaultUser) store.ledger
          (((passPlan std l).map (saleOf base quote')).map Sale.owed).sum := by
        intro u user c
        rw [sum_owedBy pair]
        exact affordable.enough u user c
      by_cases price : t.ask.entry.price < 0
      · have rest : ∀ s ∈ ts.map (saleOf base quote'), ∀ u, u ≠ defaultUser → ∀ c,
            0 ≤ s.owed u c := by
          intro s member
          obtain ⟨t', inList, rfl⟩ := List.mem_map.mp member
          exact nonneg t' (by simp [first, inList])
        obtain ⟨amount, refund⟩ := (proper t inPlan).sale base quote'
        rw [first, List.map_cons, List.map_cons, List.sum_cons] at covers
        obtain ⟨head, -⟩ := covers.split amount refund fun u user c => sum_owed_nonneg rest user c
        obtain ⟨st', flags, clean, trades, -, ⟨nonneg', -⟩ | ⟨-, step, ledger⟩⟩ :=
          @settleMatch_of_covered _ _ _ ⟨store, nextId, [], []⟩ _ currentTimestamp pair
            (proper t inPlan) (affordable.known inPlan) head
        · exact absurd price (not_lt_of_ge nonneg')
        · rw [first] at run
          simp only [settleAll, step] at run
          obtain ⟨rfl, rfl, rfl⟩ := Prod.mk.injEq .. ▸ run
          refine ⟨?_, ?_⟩
          · rw [ledger]
            exact .negative pair rfl price
          · rw [trades]
            rintro trade member
            obtain rfl := List.mem_singleton.mp member
            exact clean
      · -- the asks come in order of price, so no later match is priced below zero either
        have prices : ∀ t' ∈ passPlan std l, 0 ≤ t'.ask.entry.price := by
          have sorted := passPlan_sorted std l
          rw [first] at sorted ⊢
          intro t' member
          rcases List.mem_cons.mp member with rfl | later
          · exact not_lt.mp price
          · exact (not_lt.mp price).trans ((List.pairwise_cons.mp sorted).1 t' later)
        obtain ⟨all, ledger, clean⟩ := @settleAll_complete _ _ _
          ⟨store, nextId, [], []⟩ currentTimestamp pair _ proper prices
          (fun t member => affordable.known member)
          nonneg covers
        rw [← run] at all ledger clean
        obtain ⟨rfl, rfl⟩ := Prod.mk.injEq .. ▸ all
        refine ⟨?_, fun trade member => ?_⟩
        · rw [← first, ledger]
          exact .complete pair prices
        · rcases clean trade member with none' | clean
          · simp at none'
          · exact clean

end Run

section Whole

variable (std : StdSort (EntryPtr ℚ)) (book : OrderBook ℚ) (product currentTimestamp : Str)
  (store : UserStore ℚ) (nextId : Nat)

theorem passCross_nil : passCross std [] product currentTimestamp store nextId =
    ⟨[], [], ⟨store, nextId, [], []⟩, [], none⟩ := by
  have asks : sortedAsks std ([] : List (OrderBookEntry ℚ)) = [] :=
    List.Perm.eq_nil (std.perm _ _)
  have bids : sortedBids std ([] : List (OrderBookEntry ℚ)) = [] :=
    List.Perm.eq_nil (std.perm _ _)
  rw [passCross, crossList, asks, bids]
  rfl

/-- The list of the product as the loops of a pass leave it. -/
def passWritten : List (OrderBookEntry ℚ) :=
  crossWritten std (book.orders product) (settleMatch product currentTimestamp)
    ⟨store, nextId, [], []⟩

/-- A whole pass, by its crossing: what it does to the lists, the index, the sales, the store
and the ids, and its result. -/
theorem matchAsksToBids_cross :
    let r := passCross std (book.orders product) product currentTimestamp store nextId
    let p := book.matchAsksToBids std product currentTimestamp store nextId
    ∃ middle, book.Written product middle (passWritten std book product currentTimestamp store nextId) ∧
      p.userStore = r.state.userStore ∧ p.nextId = r.state.nextId ∧ p.trades = r.state.trades ∧
      match r.error with
      | none => p.result = .ok r.state.sales ∧ p.book = middle.removeMatchedOrders product ∧
        middle.finalizedSales = book.finalizedSales ++ r.state.sales
      | some e => p.result = .error e ∧ p.book = middle ∧
        middle.finalizedSales = book.finalizedSales := by
  have same := writeBack_sameOrder (crossList_sameNode std (book.orders product)
    (settleMatch product currentTimestamp) ⟨store, nextId, [], []⟩)
  unfold matchAsksToBids
  cases found : book.orderMap.lookup product with
  | none =>
    have empty := orders_of_lookup_none found
    have whole := getAllOrders_perm book product
    have written : passWritten std book product currentTimestamp store nextId = [] := by
      have := same.length_eq
      rw [empty] at this
      unfold passWritten
      rw [empty]
      exact List.length_eq_zero_iff.mp this.symm
    simp only [empty, passCross_nil, written]
    refine ⟨book.insertSales [], ⟨?_, ?_, ?_, rfl⟩, trivial, trivial, trivial, trivial, ?_, rfl⟩
    · rw [empty]
      exact .nil
    · rwa [empty] at whole
    · intro p
      split
      · subst_vars
        exact empty
      · rfl
    · simp [removeMatchedOrders, insertSales, found]
  | some orderList =>
    have list := orders_of_lookup found
    simp only [passLoop_eq, ← list]
    let r := passCross std (book.orders product) product currentTimestamp store nextId
    have replaced : ∀ book' : OrderBook ℚ, book'.orderMap = book.orderMap.insert product
        (passWritten std book product currentTimestamp store nextId) →
        book'.userOrders = book.userOrders →
        book.Written product book' (passWritten std book product currentTimestamp store nextId) :=
      fun book' map index => ⟨same, getAllOrders_insert_perm book map, orders_insert book map, index⟩
    cases failed : r.error with
    | none =>
      have failed' := failed
      simp only [r] at failed'
      simp only [ofOutcome, failed']
      refine ⟨_, ?_, trivial, trivial, trivial, trivial, rfl, ?_⟩
      · exact replaced _ rfl rfl
      · rfl
    | some e =>
      have failed' := failed
      simp only [r] at failed'
      simp only [ofOutcome, failed']
      refine ⟨_, ?_, trivial, trivial, trivial, trivial, rfl, ?_⟩
      · exact replaced _ rfl rfl
      · rfl

end Whole

end OrderBook

end MiniATS
