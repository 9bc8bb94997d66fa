import MiniATS.Proofs.Reservation
import MiniATS.Proofs.SerialBook
import MiniATS.Proofs.WalletLedger

/-!
# Which commands are refused

`ASK`, `BID`, `CANCEL`, `DEPOSIT` and `WITHDRAW` are decided by what `std::stod` and `std::stoi` read
in their tokens, by the wallet of the user and by the user's orders (`Accepts`). A command that is not
accepted is answered with `ERR` and moves nothing; one that is accepted never is. This holds for any
type of numbers.
-/

namespace MiniATS

open Str CSVHandler OrderBook

variable {R : Type}

/-- Whether a reply begins with a word. -/
def Reply.begins (word : Str) : Reply → Bool
  | .text line => word.isPrefixOf line
  | _ => false

@[simp] theorem Reply.begins_text (word line : Str) :
    (Reply.text line).begins word = word.isPrefixOf line := rfl

/-- A reply does not begin with both words. -/
theorem Reply.not_ok_of_err {reply : Reply} (err : reply.begins (str "ERR")) :
    ¬ reply.begins (str "OK") = true := by
  intro ok
  cases reply with
  | text line =>
    obtain ⟨rest, rfl⟩ := List.isPrefixOf_iff_prefix.mp err
    cases ok
  | silent => cases err
  | closed => cases err

/-- No wallet, order, index entry or pending product has changed. -/
structure Server.NothingMoved (srv srv' : Server R) : Prop where
  users : ∀ v, srv'.userStore.users.lookup v = srv.userStore.users.lookup v
  book : srv'.orderBook = srv.orderBook
  pending : srv'.pendingProducts = srv.pendingProducts

theorem Server.NothingMoved.refl (srv : Server R) : srv.NothingMoved srv := ⟨fun _ => rfl, rfl, rfl⟩

/-- The end of a call that needs funds: it returns true when there are enough; otherwise it returns
false or throws, and what is there stays the same. -/
inductive FundsCall {S : Type} (same : S → Prop) (enough : Prop) : Except Exn (Bool × S) → Prop
  | done {s : S} (yes : enough) : FundsCall same enough (.ok (true, s))
  | short {s : S} (no : ¬ enough) (kept : same s) : FundsCall same enough (.ok (false, s))
  | thrown {e : Exn} (no : ¬ enough) : FundsCall same enough (.error e)

section Wallets

variable [Zero R] [LT R] [LE R] [DecidableLT R] [DecidableLE R]

namespace Wallet

/-- `containsAmmount` returns true. -/
def Has (w : Wallet R) (type : Str) (amount : R) : Prop := w.containsAmmount type amount = .ok true

/-- The product of an order has two tokens, and the wallet has what the order locks. -/
def CanLock [Mul R] (w : Wallet R) (o : OrderBookEntry R) : Prop :=
  ∃ base quote', extractTokens o.product 47 = .ok [base, quote'] ∧
    if o.orderType = .ask then w.Has base o.amount else w.Has quote' (o.amount * o.price)

variable (w : Wallet R) (type : Str) (amount : R)

theorem removeCurrency_call [Sub R] :
    FundsCall (· = w) (w.Has type amount) (w.removeCurrency type amount) := by
  unfold removeCurrency Has
  split
  · rename_i negative
    apply FundsCall.thrown
    intro yes
    rw [containsAmmount, if_pos negative] at yes
    cases yes
  · cases w.containsAmmount type amount with
    | error e => exact .thrown fun yes => by cases yes
    | ok enough =>
      cases enough with
      | true => exact .done rfl
      | false => exact .short (fun yes => by cases yes) rfl

theorem lockCurrency_call [Add R] [Sub R] :
    FundsCall (· = w) (w.Has type amount) (w.lockCurrency type amount) := by
  unfold lockCurrency Has
  cases w.containsAmmount type amount with
  | error e => exact .thrown fun yes => by cases yes
  | ok enough =>
    cases enough with
    | true => exact .done rfl
    | false => exact .short (fun yes => by cases yes) rfl

variable {w}

theorem canLock_iff [Mul R] {o : OrderBookEntry R} {base quote' : Str}
    (tokens : extractTokens o.product 47 = .ok [base, quote']) :
    w.CanLock o ↔ if o.orderType = .ask then w.Has base o.amount else w.Has quote' (o.amount * o.price) := by
  constructor
  · rintro ⟨base', quote'', tokens', has⟩
    obtain ⟨rfl, rfl⟩ : base' = base ∧ quote'' = quote' := by
      simpa using Except.ok.inj (tokens'.symm.trans tokens)
    exact has
  · exact fun has => ⟨base, quote', tokens, has⟩

theorem fulfillOrder_call [Add R] [Sub R] [Mul R] {o : OrderBookEntry R} (open' : o.orderType ≠ .sale) :
    FundsCall (· = w) (w.CanLock o) (w.fulfillOrder o) := by
  unfold fulfillOrder
  cases pair : pairTokens invalidProduct o.product with
  | error e =>
    apply FundsCall.thrown
    rintro ⟨base, quote', tokens, -⟩
    rw [pairTokens, tokens] at pair
    cases pair
  | ok both =>
    obtain ⟨base, quote'⟩ := both
    rw [canLock_iff (OrderBookEntry.extractTokens_of_pairTokens pair)]
    cases type : o.orderType with
    | ask => exact lockCurrency_call w base o.amount
    | bid => exact lockCurrency_call w quote' (o.amount * o.price)
    | sale => exact absurd type open'

end Wallet

namespace UserStore

omit [Zero R] [LT R] [LE R] [DecidableLT R] [DecidableLE R] in
/-- Writing a wallet back changes nothing. -/
theorem lookup_setWallet_wallet (store : UserStore R) (u v : Str) :
    (store.setWallet u (store.wallet u)).users.lookup v = store.users.lookup v := by
  cases found : store.users.lookup u with
  | none =>
    unfold setWallet
    split
    · rename_i user found'
      cases found.symm.trans found'
    · rfl
  | some user =>
    have own : store.wallet u = user.wallet := by
      unfold wallet
      rw [found]
    rw [setWallet_eq_put found, own, put, KeyedMap.lookup_insert_eq]
    split
    · subst_vars
      exact found.symm
    · rfl

variable {store : UserStore R} {u : Str}

/-- The stores with the same users and wallets. -/
def SameUsers (store store' : UserStore R) : Prop := ∀ v, store'.users.lookup v = store.users.lookup v

theorem removeCurrency_call [Sub R] (store : UserStore R) (u type : Str) (amount : R) :
    FundsCall store.SameUsers ((store.wallet u).Has type amount) (store.removeCurrency u type amount) := by
  unfold removeCurrency
  have ends := (store.wallet u).removeCurrency_call type amount
  generalize (store.wallet u).removeCurrency type amount = r at ends
  cases ends with
  | done yes => exact .done yes
  | short no kept =>
    subst kept
    exact .short no (store.lookup_setWallet_wallet u)
  | thrown no => exact .thrown no

theorem fulfillOrder_call [Add R] [Sub R] [Mul R] (store : UserStore R) (u : Str) {o : OrderBookEntry R}
    (open' : o.orderType ≠ .sale) :
    FundsCall store.SameUsers ((store.wallet u).CanLock o) (store.fulfillOrder u o) := by
  unfold fulfillOrder
  have ends := Wallet.fulfillOrder_call (w := store.wallet u) open'
  generalize (store.wallet u).fulfillOrder o = r at ends
  cases ends with
  | done yes => exact .done yes
  | short no kept =>
    subst kept
    exact .short no (store.lookup_setWallet_wallet u)
  | thrown no => exact .thrown no

end UserStore

end Wallets

namespace Server

variable [Zero R] [Add R] [Sub R] [Mul R] [LT R] [LE R] [DecidableLT R] [DecidableLE R]

/-- `DEPOSIT` and `WITHDRAW` read an amount that the wallet takes or has. -/
def AcceptsFunds (env : Env R) (w : Wallet R) (command : Str) (tokens : List Str) : Prop :=
  ∃ first token amountStr amount, tokens = [first, token, amountStr] ∧ env.stod amountStr = some amount ∧
    if command = str "WITHDRAW" then w.Has (toUpper token) amount else ¬ amount < 0

/-- `ASK` and `BID` read an amount and a price of an order whose funds the wallet can lock. -/
def AcceptsOrder (env : Env R) (w : Wallet R) (command : Str) (tokens : List Str) : Prop :=
  ∃ first token amountStr priceStr amount price base quote', tokens = [first, token, amountStr, priceStr] ∧
    env.stod amountStr = some amount ∧ env.stod priceStr = some price ∧
    extractTokens (toUpper token) 47 = .ok [base, quote'] ∧
    if command = str "ASK" then w.Has base amount else w.Has quote' (amount * price)

/-- `CANCEL` reads the id of an open order of the user. -/
def AcceptsCancel (book : OrderBook R) (u : Str) (tokens : List Str) : Prop :=
  ∃ first idStr id, tokens = [first, idStr] ∧ stoi idStr = some id ∧
    ∃ o ∈ book.getOrdersForUser u, o.id = toSizeT id

/-- A user who is logged in gives a command that is accepted on what is read in its tokens. -/
def Accepts (env : Env R) (srv : Server R) (u : Str) (tokens : List Str) : Prop :=
  u ≠ [] ∧ srv.userStore.userExists u ∧
    if commandOf tokens = str "ASK" ∨ commandOf tokens = str "BID" then
      AcceptsOrder env (srv.userStore.wallet u) (commandOf tokens) tokens
    else if commandOf tokens = str "CANCEL" then AcceptsCancel srv.orderBook u tokens
    else AcceptsFunds env (srv.userStore.wallet u) (commandOf tokens) tokens

/-- The end of a command: it is accepted and not answered with an error, or refused with one, and then
nothing has moved. -/
inductive Decided (srv : Server R) (accepted : Prop) : Server R × Reply → Prop
  | carriedOut {srv' : Server R} {reply : Reply} (answer : reply.begins (str "ERR") = false) (yes : accepted) :
    Decided srv accepted (srv', reply)
  | refused {srv' : Server R} {reply : Reply} (answer : reply.begins (str "ERR")) (no : ¬ accepted)
    (kept : srv.NothingMoved srv') : Decided srv accepted (srv', reply)

variable {env : Env R} {now : Int} {srv : Server R} {u command : Str} {tokens : List Str}

omit [Add R] [Mul R] in
theorem withdraw_call (user : u ≠ defaultUser) (srv : Server R) (product : Str) (amount : R) :
    FundsCall srv.NothingMoved (srv.userStore.userExists u ∧ (srv.userStore.wallet u).Has product amount)
      (srv.withdraw u product amount) := by
  unfold withdraw
  by_cases known : srv.userStore.userExists u
  · rw [UserStore.getUser_of_known known]
    have ends := srv.userStore.removeCurrency_call u product amount
    dsimp only
    generalize srv.userStore.removeCurrency u product amount = r at ends
    cases ends with
    | done yes => exact .done ⟨known, yes⟩
    | short no kept => exact .short (fun yes => no yes.2) ⟨kept, rfl, rfl⟩
    | thrown no => exact .thrown fun yes => no yes.2
  · rw [UserStore.getUser_of_unknown (by simpa using known) user]
    exact .thrown fun yes => known yes.1

omit [Sub R] [Mul R] [LE R] [DecidableLE R] in
theorem deposit_call (user : u ≠ defaultUser) (srv : Server R) (product : Str) (amount : R) :
    if srv.userStore.userExists u ∧ ¬ amount < 0 then ∃ srv', srv.deposit u product amount = .ok srv'
    else ∃ e, srv.deposit u product amount = .error e := by
  unfold deposit
  by_cases known : srv.userStore.userExists u
  · rw [UserStore.getUser_of_known known]
    dsimp only [UserStore.insertCurrency, Wallet.insertCurrency]
    by_cases negative : amount < 0
    · rw [if_neg (fun yes => yes.2 negative), if_pos negative]
      exact ⟨_, rfl⟩
    · rw [if_pos ⟨known, negative⟩, if_neg negative]
      exact ⟨_, rfl⟩
  · rw [UserStore.getUser_of_unknown (by simpa using known) user, if_neg (fun yes => known yes.1)]
    exact ⟨_, rfl⟩

omit [Mul R] in
theorem handleFunds_decided (user : u ≠ defaultUser) :
    Decided srv (u ≠ [] ∧ srv.userStore.userExists u ∧
        AcceptsFunds env (srv.userStore.wallet u) command tokens) (srv.handleFunds env u command tokens) := by
  unfold handleFunds
  split
  · rename_i loggedOut
    exact .refused rfl (fun yes => yes.1 loggedOut) (.refl srv)
  rename_i loggedIn
  split
  swap
  · rename_i wrong
    refine .refused rfl ?_ (.refl srv)
    rintro ⟨-, -, first, token, amountStr, amount, rfl, -⟩
    exact wrong _ _ _ rfl
  rename_i first token amountStr
  dsimp only
  cases read : env.stod amountStr with
  | none =>
    refine .refused rfl ?_ (.refl srv)
    rintro ⟨-, -, _, _, _, amount, is, read', -⟩
    cases is
    cases read.symm.trans read'
  | some amount =>
    have accepts : AcceptsFunds env (srv.userStore.wallet u) command [first, token, amountStr] ↔
        if command = str "WITHDRAW" then (srv.userStore.wallet u).Has (toUpper token) amount
        else ¬ amount < 0 := by
      constructor
      · rintro ⟨_, _, _, amount', is, read', taken⟩
        cases is
        obtain rfl := Option.some.inj (read.symm.trans read')
        exact taken
      · exact fun taken => ⟨_, _, _, amount, rfl, read, taken⟩
    rw [accepts]
    dsimp only
    by_cases isWithdraw : command = str "WITHDRAW"
    · rw [if_pos isWithdraw, if_pos isWithdraw]
      have ends := withdraw_call user srv (toUpper token) amount
      generalize srv.withdraw u (toUpper token) amount = r at ends
      cases ends with
      | done yes => exact .carriedOut rfl ⟨loggedIn, yes⟩
      | short no kept => exact .refused rfl (fun yes => no yes.2) kept
      | thrown no => exact .refused rfl (fun yes => no yes.2) (.refl srv)
    · rw [if_neg isWithdraw, if_neg isWithdraw]
      have ends := deposit_call user srv (toUpper token) amount
      split at ends
      · rename_i taken
        obtain ⟨srv', ran⟩ := ends
        rw [ran]
        exact .carriedOut rfl ⟨loggedIn, taken⟩
      · rename_i taken
        obtain ⟨e, ran⟩ := ends
        rw [ran]
        exact .refused rfl (fun yes => taken yes.2) (.refl srv)

/-- The end of the part of `ASK` and `BID` that may refuse the order. -/
inductive Admission (srv : Server R) (accepted : Prop) : Server R × (Reply ⊕ OrderBookEntry R) → Prop
  | admitted {srv' : Server R} {o : OrderBookEntry R} (yes : accepted) : Admission srv accepted (srv', .inr o)
  | refused {srv' : Server R} {reply : Reply} (answer : reply.begins (str "ERR")) (no : ¬ accepted)
    (kept : srv.NothingMoved srv') : Admission srv accepted (srv', .inl reply)

theorem reserveFunds_admission (user : u ≠ defaultUser) (srv : Server R) (command : Str)
    {o : OrderBookEntry R} (open' : o.orderType ≠ .sale) :
    Admission srv (srv.userStore.userExists u ∧ (srv.userStore.wallet u).CanLock o)
      (srv.reserveFunds u command o) := by
  unfold reserveFunds
  by_cases known : srv.userStore.userExists u
  · rw [UserStore.getUser_of_known known]
    have ends := srv.userStore.fulfillOrder_call u open'
    dsimp only
    generalize srv.userStore.fulfillOrder u o = r at ends
    cases ends with
    | done yes => exact .admitted ⟨known, yes⟩
    | short no kept =>
      exact .refused rfl (fun yes => no yes.2) ⟨kept, rfl, rfl⟩
    | thrown no => exact .refused rfl (fun yes => no yes.2) (.refl srv)
  · rw [UserStore.getUser_of_unknown (by simpa using known) user]
    exact .refused rfl (fun yes => known yes.1) (.refl srv)

omit [Add R] [Sub R] in
/-- The order that `ASK` and `BID` construct can be locked when the command is accepted. -/
theorem canLock_iff_acceptsOrder {w : Wallet R} {o : OrderBookEntry R} (first : Str)
    {token amountStr priceStr : Str} {amount price : R} (read : env.stod amountStr = some amount)
    (read' : env.stod priceStr = some price) (product : o.product = toUpper token)
    (amount' : o.amount = amount) (price' : o.price = price)
    (type : o.orderType = if command = str "ASK" then .ask else .bid) :
    w.CanLock o ↔ AcceptsOrder env w command [first, token, amountStr, priceStr] := by
  subst amount' price'
  have isAsk : o.orderType = .ask ↔ command = str "ASK" := by
    rw [type]
    split <;> simp [*]
  constructor
  · rintro ⟨base, quote', pair, has⟩
    rw [if_congr isAsk rfl rfl] at has
    exact ⟨_, _, _, _, o.amount, o.price, base, quote', rfl, read, read', product ▸ pair, has⟩
  · rintro ⟨_, _, _, _, _, _, base, quote', is, again, again', pair, has⟩
    cases is
    obtain rfl := Option.some.inj (read.symm.trans again)
    obtain rfl := Option.some.inj (read'.symm.trans again')
    refine ⟨base, quote', product ▸ pair, ?_⟩
    rwa [if_congr isAsk rfl rfl]

theorem admitOrder_admission (user : u ≠ defaultUser) :
    Admission srv (u ≠ [] ∧ srv.userStore.userExists u ∧
        AcceptsOrder env (srv.userStore.wallet u) command tokens)
      (srv.admitOrder env now u command tokens) := by
  unfold admitOrder
  split
  · rename_i loggedOut
    exact .refused rfl (fun yes => yes.1 loggedOut) (.refl srv)
  rename_i loggedIn
  split
  swap
  · rename_i wrong
    refine .refused rfl ?_ (.refl srv)
    rintro ⟨-, -, first, token, amountStr, priceStr, _, _, _, _, rfl, -⟩
    exact wrong _ _ _ _ rfl
  rename_i first token amountStr priceStr
  split
  swap
  · rename_i unread
    refine .refused rfl ?_ (.refl srv)
    rintro ⟨-, -, _, _, _, _, amount, price, _, _, is, read, read', -⟩
    cases is
    exact unread _ _ read read'
  rename_i amount price read read'
  dsimp only [OrderBookEntry.make]
  have ends := reserveFunds_admission user { srv with nextId := srv.nextId + 1 } command
    (o := ⟨price, amount, getCurrentTimestamp env now, toUpper token,
      if command = str "ASK" then .ask else .bid, u, srv.nextId⟩) (by dsimp only; split <;> simp)
  rw [canLock_iff_acceptsOrder first read read' rfl rfl rfl rfl] at ends
  generalize reserveFunds { srv with nextId := srv.nextId + 1 } u command _ = r at ends ⊢
  cases ends with
  | admitted yes => exact .admitted ⟨loggedIn, yes⟩
  | refused answer no kept => exact .refused answer (fun yes => no yes.2) ⟨kept.users, kept.book, kept.pending⟩

theorem handleOrder_decided (user : u ≠ defaultUser) :
    Decided srv (u ≠ [] ∧ srv.userStore.userExists u ∧
        AcceptsOrder env (srv.userStore.wallet u) command tokens)
      (srv.handleOrder env now u command tokens) := by
  unfold handleOrder
  have ends : Admission srv _ (srv.admitOrder env now u command tokens) := admitOrder_admission user
  generalize srv.admitOrder env now u command tokens = r at ends
  cases ends with
  | admitted yes => exact .carriedOut rfl yes
  | refused answer no kept => exact .refused answer no kept

/-- The end of the part of `CANCEL` that may refuse the id. -/
inductive OwnOrder (srv : Server R) (u : Str) (tokens : List Str) : Reply ⊕ OrderBookEntry R → Prop
  | found {o : OrderBookEntry R} (loggedIn : u ≠ []) (own : o ∈ srv.orderBook.getOrdersForUser u)
    (parsed : ∃ first idStr id, tokens = [first, idStr] ∧ stoi idStr = some id ∧ o.id = toSizeT id) :
    OwnOrder srv u tokens (.inr o)
  | missing {reply : Reply} (answer : reply.begins (str "ERR"))
    (no : ¬ (u ≠ [] ∧ AcceptsCancel srv.orderBook u tokens)) : OwnOrder srv u tokens (.inl reply)

omit [Zero R] [Add R] [Sub R] [Mul R] [LT R] [LE R] [DecidableLT R] [DecidableLE R] in
theorem findOwnOrder_own (srv : Server R) (u : Str) (tokens : List Str) :
    OwnOrder srv u tokens (srv.findOwnOrder u tokens) := by
  unfold findOwnOrder
  split
  · rename_i loggedOut
    apply OwnOrder.missing rfl
    intro yes
    exact yes.1 loggedOut
  rename_i loggedIn
  split
  swap
  · rename_i wrong
    apply OwnOrder.missing rfl
    rintro ⟨-, first, idStr, id, rfl, -⟩
    exact wrong _ _ rfl
  rename_i first idStr
  split
  · rename_i read
    apply OwnOrder.missing rfl
    rintro ⟨-, _, _, id, is, read', -⟩
    cases is
    cases read.symm.trans read'
  rename_i id read
  split
  · rename_i none'
    apply OwnOrder.missing rfl
    rintro ⟨-, _, _, id', is, read', o, own, same⟩
    cases is
    obtain rfl := Option.some.inj (read.symm.trans read')
    exact List.find?_eq_none.mp none' o own (beq_iff_eq.mpr same.symm)
  · rename_i o found
    have own := List.mem_of_find?_eq_some found
    have same := List.find?_some found
    exact .found loggedIn own ⟨first, idStr, id, rfl, read, (beq_iff_eq.mp same).symm⟩

omit [LT R] [DecidableLT R] in
theorem cancelFunds_call (srv : Server R) (user : u ≠ defaultUser) {o : OrderBookEntry R}
    (pair : ∃ base quote', extractTokens o.product 47 = .ok [base, quote']) :
    if srv.userStore.userExists u then
      ∃ done store, srv.cancelFunds u o = .ok (done, { srv with userStore := store })
    else ∃ e, srv.cancelFunds u o = .error e := by
  unfold cancelFunds
  by_cases known : srv.userStore.userExists u
  · rw [if_pos known, UserStore.getUser_of_known known]
    obtain ⟨base, quote', tokens⟩ := pair
    dsimp only [UserStore.cancelOrder, Wallet.cancelOrder, pairTokens]
    rw [tokens]
    cases o.orderType with
    | _ => exact ⟨_, _, rfl⟩
  · rw [if_neg known, UserStore.getUser_of_unknown (by simpa using known) user]
    exact ⟨_, rfl⟩

omit [LT R] [DecidableLT R] in
/-- The products of a user's orders have two tokens and the book finds them by their ids, so `CANCEL`
does not fail halfway. -/
theorem handleCancel_decided (mirrored : srv.orderBook.Mirrored) (user : u ≠ defaultUser)
    (paired : ∀ o ∈ srv.orderBook.getAllOrders, o.username = u →
      ∃ base quote', extractTokens o.product 47 = .ok [base, quote']) :
    Decided srv (u ≠ [] ∧ srv.userStore.userExists u ∧ AcceptsCancel srv.orderBook u tokens)
      (srv.handleCancel u tokens) := by
  unfold handleCancel
  have ends := findOwnOrder_own srv u tokens
  generalize srv.findOwnOrder u tokens = r at ends
  cases ends with
  | missing answer no => exact .refused answer (fun yes => no ⟨yes.1, yes.2.2⟩) (.refl srv)
  | @found o loggedIn own parsed =>
    obtain ⟨first, idStr, id, is, read, same⟩ := parsed
    have accepts : AcceptsCancel srv.orderBook u tokens := ⟨first, idStr, id, is, read, o, own, same⟩
    obtain ⟨inBook, rfl⟩ := (mem_getOrdersForUser mirrored user).mp own
    have ends := srv.cancelFunds_call user (paired o inBook rfl)
    dsimp only
    split at ends
    · rename_i known
      obtain ⟨done, store, ran⟩ := ends
      obtain ⟨book', removed, -⟩ := removeOrderById_of_listed mirrored inBook (mirrored.complete o inBook user)
      rw [ran]
      dsimp only [removeOrderById]
      rw [removed]
      exact .carriedOut rfl ⟨loggedIn, known, accepts⟩
    · rename_i unknown
      obtain ⟨e, ran⟩ := ends
      rw [ran]
      exact .refused rfl (fun yes => unknown yes.2.1) (.refl srv)

section Message

variable [Div R] [BEq R] {data : Str}

/-- Each of the five commands is accepted and not answered with an error, or refused. -/
theorem handleMessage_decided (env : Env R) (now : Int) (mirrored : srv.orderBook.Mirrored)
    (user : u ≠ defaultUser)
    (paired : ∀ o ∈ srv.orderBook.getAllOrders, o.username = u →
      ∃ base quote', extractTokens o.product 47 = .ok [base, quote'])
    (command : commandOf (tokenise data) ∈
      [str "ASK", str "BID", str "CANCEL", str "DEPOSIT", str "WITHDRAW"]) :
    Decided srv (Accepts env srv u (tokenise data))
      ((srv.handleMessage env now u data).1, (srv.handleMessage env now u data).2.2) := by
  unfold Accepts
  simp only [List.mem_cons, List.not_mem_nil, or_false] at command
  refine handleMessage_cases (motive := fun r => Decided srv _ (r.1, r.2.2)) (fun is => ?_) (fun is => ?_)
    (fun is => ?_) (fun is => ?_) (fun is => ?_) (fun notOrder notFunds notCancel _ => ?_)
  · rw [is] at command
    exact absurd command (by decide)
  · rw [is] at command
    exact absurd command (by decide)
  · rw [if_pos is]
    exact handleOrder_decided user
  · rw [if_neg (by rw [is]; decide), if_pos is]
    exact handleCancel_decided mirrored user paired
  · rw [if_neg (by rcases is with is | is <;> rw [is] <;> decide),
      if_neg (by rcases is with is | is <;> rw [is] <;> decide)]
    exact handleFunds_decided user
  · tauto

end Message

end Server

end MiniATS
