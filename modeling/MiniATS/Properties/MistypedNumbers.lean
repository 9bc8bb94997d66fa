import MiniATS.Proofs.Numeral
import MiniATS.Proofs.Refusals
import MiniATS.Properties.StorableOrders

/-!
# Mistyped numbers

`std::stod` and `std::stoi` convert the longest numeric prefix of a token, and no handler asks how
much of the token that is. A token that is not a number in its entirety is refused only where the
number in front of it would be; otherwise the command does what it does with that number alone.
-/

namespace MiniATS

open Str CSVHandler OrderBook

variable {R : Type}

/-- The platform reads a number as `std::stod` does, and keeps it as it may. -/
def Env.Converts (env : Env R) : Prop :=
  ∃ value : Numeral → Option R, ∀ s, env.stod s = (strtod s).bind value

theorem exactEnv_converts : exactEnv.Converts := ⟨Numeral.exact, fun _ => rfl⟩

theorem doubleEnv_converts : doubleEnv.Converts := ⟨Numeral.toDouble, fun _ => rfl⟩

/-- What is read in a token is a number in front of it. -/
theorem Env.Converts.numeral {env : Env R} (converts : env.Converts) {s : Str} {x : R}
    (read : env.stod s = some x) : ∃ numeral, numeral <+: s ∧ IsNumeral numeral ∧ env.stod numeral = some x := by
  obtain ⟨value, same⟩ := converts
  rw [same] at read
  obtain ⟨v, number, -⟩ := Option.bind_eq_some_iff.mp read
  have some' : (stodEnd s).isSome := by rw [stodEnd_isSome, number, Option.isSome_some]
  obtain ⟨rest, left⟩ := Option.isSome_iff_exists.mp some'
  obtain ⟨numeral, split, whole, value'⟩ := strtod_numeral left
  refine ⟨numeral, ⟨rest, split.symm⟩, whole, ?_⟩
  rw [same, value', read]

namespace Server

/-- The tokens that a command converts: amount and price of `ASK` and `BID`, the id of `CANCEL`, the
amount of `DEPOSIT` and `WITHDRAW`. -/
def numberTokens (tokens : List Str) : List Str :=
  if commandOf tokens = str "ASK" ∨ commandOf tokens = str "BID" then (tokens.drop 2).take 2
  else if commandOf tokens = str "CANCEL" then (tokens.drop 1).take 1
  else if commandOf tokens = str "DEPOSIT" ∨ commandOf tokens = str "WITHDRAW" then (tokens.drop 2).take 1
  else []

/-- Some token that is converted is not a number in its entirety. -/
def Mistyped (tokens : List Str) : Prop :=
  ∃ token ∈ numberTokens tokens,
    ¬ if commandOf tokens = str "CANCEL" then IsInteger token else IsNumeral token

instance (tokens : List Str) : Decidable (Mistyped tokens) := by
  unfold Mistyped
  infer_instance

theorem Mistyped.command {tokens : List Str} (mistyped : Mistyped tokens) :
    commandOf tokens ∈ [str "ASK", str "BID", str "CANCEL", str "DEPOSIT", str "WITHDRAW"] := by
  obtain ⟨token, member, -⟩ := mistyped
  unfold numberTokens at member
  simp only [List.mem_cons, List.not_mem_nil, or_false]
  split at member
  · tauto
  split at member
  · tauto
  split at member
  · tauto
  · cases member

theorem mistyped_order {tokens : List Str}
    (is : commandOf tokens = str "ASK" ∨ commandOf tokens = str "BID") :
    Mistyped tokens ↔ ∃ token ∈ (tokens.drop 2).take 2, ¬ IsNumeral token := by
  have notCancel : commandOf tokens ≠ str "CANCEL" := by rcases is with is | is <;> rw [is] <;> decide
  rw [Mistyped, numberTokens, if_pos is]
  simp only [if_neg notCancel]

theorem mistyped_cancel {tokens : List Str} (is : commandOf tokens = str "CANCEL") :
    Mistyped tokens ↔ ∃ token ∈ (tokens.drop 1).take 1, ¬ IsInteger token := by
  rw [Mistyped, numberTokens, if_neg (by rw [is]; decide), if_pos is]
  simp only [if_pos is]

theorem mistyped_funds {tokens : List Str}
    (is : commandOf tokens = str "DEPOSIT" ∨ commandOf tokens = str "WITHDRAW") :
    Mistyped tokens ↔ ∃ token ∈ (tokens.drop 2).take 1, ¬ IsNumeral token := by
  have notCancel : commandOf tokens ≠ str "CANCEL" := by rcases is with is | is <;> rw [is] <;> decide
  have notOrder : ¬ (commandOf tokens = str "ASK" ∨ commandOf tokens = str "BID") := by
    rcases is with is | is <;> rw [is] <;> decide
  rw [Mistyped, numberTokens, if_neg notOrder, if_neg notCancel, if_pos is]
  simp only [if_neg notCancel]

variable [Zero R] [Add R] [Sub R] [Mul R] [Div R] [LT R] [LE R] [DecidableLT R] [DecidableLE R] [BEq R]

/-- The reply to a message begins with `ERR`, and the message has moved nothing. -/
def Refuses (env : Env R) (now : Int) (srv : Server R) (u data : Str) : Prop :=
  (srv.handleMessage env now u data).2.2.begins (str "ERR") ∧
    srv.NothingMoved (srv.handleMessage env now u data).1

theorem refuses_iff {env : Env R} {srv : Server R} {u data : Str} (now : Int)
    (decided : Decided srv (Accepts env srv u (tokenise data))
      ((srv.handleMessage env now u data).1, (srv.handleMessage env now u data).2.2)) :
    Refuses env now srv u data ↔ ¬ Accepts env srv u (tokenise data) := by
  unfold Refuses
  generalize (srv.handleMessage env now u data).1 = srv', (srv.handleMessage env now u data).2.2 = reply
    at decided
  cases decided with
  | carriedOut answer yes => simp [yes, answer]
  | refused answer no kept => exact iff_of_true ⟨answer, kept⟩ no

section AsRead

variable {env : Env R} {now : Int} {srv : Server R} {u data data' : Str}

theorem handleMessage_order
    (is : commandOf (tokenise data) = str "ASK" ∨ commandOf (tokenise data) = str "BID") :
    srv.handleMessage env now u data =
      ((srv.handleOrder env now u (commandOf (tokenise data)) (tokenise data)).1, u,
        (srv.handleOrder env now u (commandOf (tokenise data)) (tokenise data)).2) := by
  refine handleMessage_cases (motive := fun r => r = _) (fun other => ?_) (fun other => ?_) (fun _ => rfl)
    (fun other => ?_) (fun other => ?_) fun notOrder _ _ _ => absurd is notOrder
  · rw [other] at is
    exact absurd is (by decide)
  · rw [other] at is
    exact absurd is (by decide)
  · rw [other] at is
    exact absurd is (by decide)
  · rcases other with other | other <;> rw [other] at is <;> exact absurd is (by decide)

theorem handleMessage_cancel (is : commandOf (tokenise data) = str "CANCEL") :
    srv.handleMessage env now u data =
      ((srv.handleCancel u (tokenise data)).1, u, (srv.handleCancel u (tokenise data)).2) := by
  refine handleMessage_cases (motive := fun r => r = _) (fun other => ?_) (fun other => ?_) (fun other => ?_)
    (fun _ => rfl) (fun other => ?_) fun _ _ notCancel _ => absurd is notCancel
  · exact absurd (is.symm.trans other) (by decide)
  · exact absurd (is.symm.trans other) (by decide)
  · rw [is] at other
    exact absurd other (by decide)
  · rw [is] at other
    exact absurd other (by decide)

theorem handleMessage_funds
    (is : commandOf (tokenise data) = str "DEPOSIT" ∨ commandOf (tokenise data) = str "WITHDRAW") :
    srv.handleMessage env now u data =
      ((srv.handleFunds env u (commandOf (tokenise data)) (tokenise data)).1, u,
        (srv.handleFunds env u (commandOf (tokenise data)) (tokenise data)).2) := by
  refine handleMessage_cases (motive := fun r => r = _) (fun other => ?_) (fun other => ?_) (fun other => ?_)
    (fun other => ?_) (fun _ => rfl) fun _ notFunds _ _ => absurd is notFunds
  · rw [other] at is
    exact absurd is (by decide)
  · rw [other] at is
    exact absurd is (by decide)
  · rcases other with other | other <;> rw [other] at is <;> exact absurd is (by decide)
  · rw [other] at is
    exact absurd is (by decide)

/-- An accepted command does what the same command does with the numbers in front of its tokens, and in
those nothing is mistyped. -/
theorem accepted_as_read (converts : env.Converts)
    (command : commandOf (tokenise data) ∈
      [str "ASK", str "BID", str "CANCEL", str "DEPOSIT", str "WITHDRAW"])
    (accepts : Accepts env srv u (tokenise data)) :
    ∃ tokens, List.Forall₂ (· <+: ·) tokens (tokenise data) ∧
      commandOf tokens = commandOf (tokenise data) ∧ ¬ Mistyped tokens ∧
      ∀ data', tokenise data' = tokens →
        srv.handleMessage env now u data' = srv.handleMessage env now u data := by
  simp only [List.mem_cons, List.not_mem_nil, or_false] at command
  obtain ⟨-, -, accepts⟩ := accepts
  split at accepts
  · rename_i is
    obtain ⟨first, token, amountStr, priceStr, amount, price, -, -, whole, read, read', -⟩ := accepts
    obtain ⟨x, front, isX, same⟩ := converts.numeral read
    obtain ⟨y, front', isY, same'⟩ := converts.numeral read'
    have order : commandOf [first, token, x, y] = str "ASK" ∨ commandOf [first, token, x, y] = str "BID" := by
      rw [whole] at is
      exact is
    refine ⟨[first, token, x, y], ?_, by rw [whole]; rfl, ?_, fun data' other => ?_⟩
    · rw [whole]
      simp [front, front', List.prefix_rfl]
    · rw [mistyped_order order]
      simp [isX, isY]
    · rw [← other] at order
      have admits : srv.admitOrder env now u (commandOf [first, token, x, y]) [first, token, x, y] =
          srv.admitOrder env now u (commandOf [first, token, amountStr, priceStr])
            [first, token, amountStr, priceStr] := by
        dsimp only [admitOrder]
        rw [same, same', read, read']
        rfl
      rw [handleMessage_order is, handleMessage_order order, whole, other]
      simp only [handleOrder, admits]
      rfl
  rename_i notOrder
  split at accepts
  · rename_i is
    obtain ⟨first, idStr, id, whole, read, -⟩ := accepts
    obtain ⟨rest, left⟩ := Option.isSome_iff_exists.mp (stoiEnd_isSome read)
    obtain ⟨x, split', isX, same⟩ := stoi_numeral left
    have cancel : commandOf [first, x] = str "CANCEL" := by
      rw [whole] at is
      exact is
    refine ⟨[first, x], ?_, by rw [whole]; rfl, ?_, fun data' other => ?_⟩
    · rw [whole]
      simp [split', List.prefix_rfl]
    · rw [mistyped_cancel cancel]
      simp [isX]
    · rw [← other] at cancel
      have finds : srv.findOwnOrder u [first, x] = srv.findOwnOrder u [first, idStr] := by
        dsimp only [findOwnOrder]
        rw [same]
      rw [handleMessage_cancel is, handleMessage_cancel cancel, whole, other, handleCancel, handleCancel, finds]
  · rename_i notCancel
    have is : commandOf (tokenise data) = str "DEPOSIT" ∨ commandOf (tokenise data) = str "WITHDRAW" := by
      tauto
    obtain ⟨first, token, amountStr, amount, whole, read, -⟩ := accepts
    obtain ⟨x, front, isX, same⟩ := converts.numeral read
    have funds : commandOf [first, token, x] = str "DEPOSIT" ∨ commandOf [first, token, x] = str "WITHDRAW" := by
      rw [whole] at is
      exact is
    refine ⟨[first, token, x], ?_, by rw [whole]; rfl, ?_, fun data' other => ?_⟩
    · rw [whole]
      simp [front, List.prefix_rfl]
    · rw [mistyped_funds funds]
      simp [isX]
    · rw [← other] at funds
      rw [handleMessage_funds is, handleMessage_funds funds, whole, other]
      dsimp only [handleFunds]
      rw [same, read]
      rfl

end AsRead

end Server

namespace Threads

variable [Zero R] [Add R] [Sub R] [Mul R] [Div R] [LT R] [LE R] [DecidableLT R] [DecidableLE R] [BEq R]

/-- In every state of every run a command of a session with a mistyped number is refused exactly when
it is not accepted on what is read of its numbers. -/
theorem mistyped_refused_iff (env : Env R) {filename : Str} {file : Option Str} {book : OrderBook R}
    {nextId : Nat} (made : OrderBook.make env filename file 1 = .ok (book, nextId)) (store : UserStore R)
    (actions : List (Action R)) {s : Threads R}
    (ran : Machine.exec (next env) (start book nextId store) actions = some s) {c : Session R}
    (connected : c ∈ s.sessions) (now : Int) (data : Str) :
    (Server.Mistyped (Server.tokenise data) → s.server.Refuses env now c.username data) ↔
      ¬ (Server.Mistyped (Server.tokenise data) ∧
        Server.Accepts env s.server c.username (Server.tokenise data)) := by
  rw [not_and]
  apply imp_congr_right
  intro mistyped
  apply Server.refuses_iff now
  have loaded := make_loaded made
  have user := (notDefault_run ran c connected).user
  have filed := (Filed.start loaded store).run ran
  have paired : s.Every fun o => o.username ≠ defaultUser →
      ∃ base quote', extractTokens o.product 47 = .ok [base, quote'] := by
    refine every_run (fun o x holds => holds) (fun admitted _ => admitOrder_pair admitted)
      (.start loaded store) ⟨fun _ none' => absurd none' List.not_mem_nil, fun o member other => ?_⟩ ran
    exact absurd (loaded.default' o member) other
  exact Server.handleMessage_decided env now filed.mirrored user
    (fun o inBook owner => paired.booked o inBook (owner ▸ user)) mistyped.command

theorem mistyped_refused_deposit : ∃ s c,
    Machine.exec (next exactEnv) fresh (depositAndAsk "btc" "btc/usd") = some s ∧
    c ∈ s.sessions ∧ c.username = str "alice" ∧ Server.Mistyped (Server.tokenise (str "DEPOSIT usd -1x")) ∧
    s.server.Refuses exactEnv 0 c.username (str "DEPOSIT usd -1x") := by
  obtain ⟨s, ran, found⟩ := (Option.any_eq_true _ _).mp
    (show (Machine.exec (next exactEnv) fresh (depositAndAsk "btc" "btc/usd")).any (fun s =>
      s.sessions.any fun c => decide (c.username = str "alice")) = true by decide +kernel)
  obtain ⟨c, connected, alice⟩ := List.any_eq_true.mp found
  have tokens : Server.tokenise (str "DEPOSIT usd -1x") = [str "DEPOSIT", str "usd", str "-1x"] := by
    decide +kernel
  have mistyped : Server.Mistyped (Server.tokenise (str "DEPOSIT usd -1x")) := by decide +kernel
  refine ⟨s, c, ran, connected, of_decide_eq_true alice, mistyped,
    (mistyped_refused_iff exactEnv (System.fresh_book exactEnv) .empty _ ran connected 0 _).mpr ?_ mistyped⟩
  rintro ⟨-, -, -, accepts⟩
  rw [tokens, if_neg (by decide +kernel), if_neg (by decide +kernel)] at accepts
  obtain ⟨_, _, _, amount, is, read, nonneg⟩ := accepts
  cases is
  have number : exactEnv.stod (str "-1x") = some (-1) := by decide +kernel
  obtain rfl : -1 = amount := Option.some.inj (number.symm.trans read)
  rw [if_neg (by decide +kernel)] at nonneg
  exact nonneg (by decide)

/-- Alice's `1,000` is deposited as `1`, and her `CANCEL 1x` cancels the order with the id `1`. -/
theorem mistyped_accepted : ∃ s c,
    Machine.exec (next exactEnv) fresh (depositAndAsk "btc" "btc/usd") = some s ∧
    c ∈ s.sessions ∧ Server.Mistyped (Server.tokenise (str "DEPOSIT usd 1,000")) ∧
    Server.Mistyped (Server.tokenise (str "CANCEL 1x")) ∧
    (s.server.handleMessage exactEnv 0 c.username (str "DEPOSIT usd 1,000")).2.2 =
      .text (str "OK Deposited 1.000000 USD") ∧
    (s.server.handleMessage exactEnv 0 c.username (str "DEPOSIT usd 1,000")).1.userStore.available
      (str "alice") (str "USD") = 1 ∧
    (s.server.handleMessage exactEnv 0 c.username (str "CANCEL 1x")).2.2 = .text (str "OK Order cancelled.") ∧
    ¬ ∀ now data, Server.Mistyped (Server.tokenise data) → s.server.Refuses exactEnv now c.username data := by
  obtain ⟨s, ran, found⟩ := (Option.any_eq_true _ _).mp
    (show (Machine.exec (next exactEnv) fresh (depositAndAsk "btc" "btc/usd")).any (fun s =>
      s.sessions.any fun c =>
        decide ((s.server.handleMessage exactEnv 0 c.username (str "DEPOSIT usd 1,000")).2.2 =
          .text (str "OK Deposited 1.000000 USD")) &&
        decide ((s.server.handleMessage exactEnv 0 c.username (str "DEPOSIT usd 1,000")).1.userStore.available
          (str "alice") (str "USD") = 1) &&
        decide ((s.server.handleMessage exactEnv 0 c.username (str "CANCEL 1x")).2.2 =
          .text (str "OK Order cancelled."))) = true by decide +kernel)
  obtain ⟨c, connected, found⟩ := List.any_eq_true.mp found
  simp only [Bool.and_eq_true, decide_eq_true_eq] at found
  obtain ⟨⟨deposited, credited⟩, cancelled⟩ := found
  have mistyped : Server.Mistyped (Server.tokenise (str "DEPOSIT usd 1,000")) := by decide +kernel
  refine ⟨s, c, ran, connected, mistyped, by decide +kernel, deposited, credited, cancelled, fun all => ?_⟩
  have refused := (all 0 _ mistyped).1
  rw [deposited] at refused
  exact absurd refused (by decide +kernel)

end Threads

end MiniATS
