import MiniATS.Server.ServerMain

/-!
# The queue is the engine's

What a command does to everything but the queue of pending products does not depend on the queue:
only `startMatchingProduct` reads it, and only to add to it (`ServerMain.cpp:395-403`).
-/

namespace MiniATS

namespace Server

variable {R : Type}

/-- The server with another queue. -/
def withQueue (srv : Server R) (products : List Str) : Server R := { srv with pendingProducts := products }

theorem startMatchingProduct_withQueue (srv : Server R) (products : List Str) (product : Str) :
    ∃ products', (srv.withQueue products).startMatchingProduct product =
      (srv.startMatchingProduct product).withQueue products' := by
  refine ⟨((srv.withQueue products).startMatchingProduct product).pendingProducts, ?_⟩
  unfold startMatchingProduct
  split <;> split <;> rfl

variable [Zero R]

theorem handleRegister_withQueue (srv : Server R) (products : List Str) (username : Str)
    (tokens : List Str) : (srv.withQueue products).handleRegister username tokens =
      ((srv.handleRegister username tokens).1.withQueue products,
        (srv.handleRegister username tokens).2) := by
  unfold handleRegister
  split
  · rename_i first u p
    by_cases reserved : u = defaultUser
    · simp only [if_pos reserved]
    by_cases known : srv.userStore.userExists u
    · have known' : (srv.withQueue products).userStore.userExists u := known
      simp only [if_neg reserved, if_pos known, if_pos known']
    · have known' : ¬ (srv.withQueue products).userStore.userExists u := known
      simp only [if_neg reserved, if_neg known, if_neg known']
      rfl
  · rfl

omit [Zero R] in
theorem handleLogin_withQueue (srv : Server R) (products : List Str) (username : Str)
    (tokens : List Str) : (srv.withQueue products).handleLogin username tokens =
      ((srv.handleLogin username tokens).1.withQueue products,
        (srv.handleLogin username tokens).2) := by
  have store : (srv.withQueue products).userStore = srv.userStore := rfl
  unfold handleLogin
  rw [store]
  split
  · rename_i first u p
    by_cases reserved : u = defaultUser
    · simp only [if_pos reserved]
    by_cases known : srv.userStore.userExists u
    · by_cases valid : srv.userStore.validatePassword u p
      · simp only [if_neg reserved, if_pos known, if_pos valid]
      · simp only [if_neg reserved, if_pos known, if_neg valid]
    · simp only [if_neg reserved, if_neg known]
  · rfl

section Funds

variable [Add R] [Sub R] [LT R] [LE R] [DecidableLT R] [DecidableLE R]

omit [Sub R] [LE R] [DecidableLE R] in
theorem deposit_withQueue (srv : Server R) (products : List Str) (username product : Str) (amount : R) :
    (srv.withQueue products).deposit username product amount =
      (srv.deposit username product amount).map (fun srv => srv.withQueue products) := by
  have store : (srv.withQueue products).userStore = srv.userStore := rfl
  unfold deposit
  rw [store]
  cases srv.userStore.getUser username with
  | error e => rfl
  | ok store =>
    dsimp only
    cases store.insertCurrency username product amount <;> rfl

omit [Add R] in
theorem withdraw_withQueue (srv : Server R) (products : List Str) (username product : Str) (amount : R) :
    (srv.withQueue products).withdraw username product amount =
      (srv.withdraw username product amount).map (fun r => (r.1, r.2.withQueue products)) := by
  have store : (srv.withQueue products).userStore = srv.userStore := rfl
  unfold withdraw
  rw [store]
  cases srv.userStore.getUser username with
  | error e => rfl
  | ok store =>
    dsimp only
    cases store.removeCurrency username product amount <;> rfl

theorem handleFunds_withQueue (env : Env R) (srv : Server R) (products : List Str)
    (username command : Str) (tokens : List Str) :
    (srv.withQueue products).handleFunds env username command tokens =
      ((srv.handleFunds env username command tokens).1.withQueue products,
        (srv.handleFunds env username command tokens).2) := by
  unfold handleFunds
  by_cases loggedOut : username = []
  · simp only [if_pos loggedOut]
  simp only [if_neg loggedOut]
  split
  · rename_i first token amountStr
    cases env.stod amountStr with
    | none => rfl
    | some amount =>
      dsimp only
      by_cases is : command = str "WITHDRAW"
      · simp only [if_pos is, withdraw_withQueue]
        cases srv.withdraw username (Str.toUpper token) amount with
        | error e => rfl
        | ok r =>
          obtain ⟨removed, srv'⟩ := r
          cases removed <;> rfl
      · simp only [if_neg is, deposit_withQueue]
        cases srv.deposit username (Str.toUpper token) amount <;> rfl
  · rfl

end Funds

section Orders

variable [Add R] [Sub R] [Mul R] [LT R] [LE R] [DecidableLT R] [DecidableLE R]

theorem reserveFunds_withQueue (srv : Server R) (products : List Str) (username command : Str)
    (obe : OrderBookEntry R) : (srv.withQueue products).reserveFunds username command obe =
      ((srv.reserveFunds username command obe).1.withQueue products,
        (srv.reserveFunds username command obe).2) := by
  have store : (srv.withQueue products).userStore = srv.userStore := rfl
  unfold reserveFunds
  rw [store]
  cases srv.userStore.getUser username with
  | error e => rfl
  | ok store =>
    dsimp only
    cases store.fulfillOrder username obe with
    | error e => rfl
    | ok r =>
      obtain ⟨fulfilled, store'⟩ := r
      cases fulfilled <;> rfl

theorem admitOrder_withQueue (env : Env R) (now : Int) (srv : Server R) (products : List Str)
    (username command : Str) (tokens : List Str) :
    (srv.withQueue products).admitOrder env now username command tokens =
      ((srv.admitOrder env now username command tokens).1.withQueue products,
        (srv.admitOrder env now username command tokens).2) := by
  unfold admitOrder
  by_cases loggedOut : username = []
  · simp only [if_pos loggedOut]
  simp only [if_neg loggedOut]
  split
  · rename_i first token amountStr priceStr
    cases env.stod amountStr with
    | none => rfl
    | some amount =>
      cases env.stod priceStr with
      | none => rfl
      | some price =>
        exact reserveFunds_withQueue { srv with nextId := srv.nextId + 1 } products username command _
  · rfl

theorem handleOrder_withQueue (env : Env R) (now : Int) (srv : Server R) (products : List Str)
    (username command : Str) (tokens : List Str) : ∃ products',
    (srv.withQueue products).handleOrder env now username command tokens =
      ((srv.handleOrder env now username command tokens).1.withQueue products',
        (srv.handleOrder env now username command tokens).2) := by
  unfold handleOrder
  rw [admitOrder_withQueue]
  obtain ⟨srv', outcome⟩ := srv.admitOrder env now username command tokens
  cases outcome with
  | inl reply => exact ⟨products, rfl⟩
  | inr obe =>
    obtain ⟨products', same⟩ :=
      startMatchingProduct_withQueue (srv'.insertOrder obe) products obe.product
    exact ⟨products', congrArg (fun srv => (srv, _)) same⟩

omit [LT R] [DecidableLT R] in
theorem cancelFunds_withQueue (srv : Server R) (products : List Str) (username : Str)
    (order : OrderBookEntry R) : (srv.withQueue products).cancelFunds username order =
      (srv.cancelFunds username order).map (fun r => (r.1, r.2.withQueue products)) := by
  have store : (srv.withQueue products).userStore = srv.userStore := rfl
  unfold cancelFunds
  rw [store]
  cases srv.userStore.getUser username with
  | error e => rfl
  | ok store =>
    dsimp only
    cases store.cancelOrder username order <;> rfl

omit [LT R] [DecidableLT R] in
theorem handleCancel_withQueue (srv : Server R) (products : List Str) (username : Str)
    (tokens : List Str) : (srv.withQueue products).handleCancel username tokens =
      ((srv.handleCancel username tokens).1.withQueue products,
        (srv.handleCancel username tokens).2) := by
  have found : (srv.withQueue products).findOwnOrder username tokens = srv.findOwnOrder username tokens := rfl
  unfold handleCancel
  rw [found]
  cases srv.findOwnOrder username tokens with
  | inl reply => rfl
  | inr order =>
    dsimp only
    rw [cancelFunds_withQueue]
    cases srv.cancelFunds username order with
    | error e => rfl
    | ok r =>
      have removed : (r.2.withQueue products).removeOrderById username order.id =
        ((r.2.removeOrderById username order.id).1,
          (r.2.removeOrderById username order.id).2.withQueue products) := rfl
      dsimp only [Except.map]
      rw [removed]
      obtain ⟨done, srv'⟩ := r.2.removeOrderById username order.id
      cases done <;> rfl

variable [Div R] [BEq R]

/-- A command does the same whatever the queue holds. -/
theorem handleMessage_withQueue (env : Env R) (now : Int) (srv : Server R) (products : List Str)
    (username data : Str) : ∃ products',
    (srv.withQueue products).handleMessage env now username data =
      ((srv.handleMessage env now username data).1.withQueue products',
        (srv.handleMessage env now username data).2) := by
  unfold handleMessage
  dsimp only
  by_cases empty : tokenise data = []
  · simp only [if_pos empty]
    exact ⟨products, rfl⟩
  simp only [if_neg empty]
  by_cases is : commandOf (tokenise data) = str "REGISTER"
  · simp only [if_pos is, handleRegister_withQueue]
    exact ⟨products, rfl⟩
  simp only [if_neg is]
  by_cases is : commandOf (tokenise data) = str "LOGIN"
  · simp only [if_pos is, handleLogin_withQueue]
    exact ⟨products, rfl⟩
  simp only [if_neg is]
  by_cases is : commandOf (tokenise data) = str "ASK" ∨ commandOf (tokenise data) = str "BID"
  · simp only [if_pos is]
    obtain ⟨products', same⟩ := srv.handleOrder_withQueue env now products username
      (commandOf (tokenise data)) (tokenise data)
    rw [same]
    exact ⟨products', rfl⟩
  simp only [if_neg is]
  by_cases is : commandOf (tokenise data) = str "ORDERS"
  · simp only [if_pos is]
    exact ⟨products, rfl⟩
  simp only [if_neg is]
  by_cases is : commandOf (tokenise data) = str "CANCEL"
  · simp only [if_pos is, handleCancel_withQueue]
    exact ⟨products, rfl⟩
  simp only [if_neg is]
  by_cases is : commandOf (tokenise data) = str "WALLET"
  · simp only [if_pos is]
    exact ⟨products, rfl⟩
  simp only [if_neg is]
  by_cases is : commandOf (tokenise data) = str "DEPOSIT" ∨ commandOf (tokenise data) = str "WITHDRAW"
  · simp only [if_pos is, handleFunds_withQueue]
    exact ⟨products, rfl⟩
  simp only [if_neg is]
  refine ⟨products, ?_⟩
  by_cases is : commandOf (tokenise data) = str "MARKET"
  · simp only [if_pos is]
    rfl
  simp only [if_neg is]
  by_cases is : commandOf (tokenise data) = str "STATS"
  · simp only [if_pos is]
    rfl
  simp only [if_neg is]
  by_cases is : commandOf (tokenise data) = str "EXIT"
  · simp only [if_pos is]
  · simp only [if_neg is]

end Orders

end Server

end MiniATS
