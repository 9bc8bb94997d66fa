import MiniATS.Proofs.Storage
import MiniATS.Properties.SavedBook
import MiniATS.Server.Serial

/-!
# The users in their file

`UserStore::save` truncates the file before it has the text (`UserStore.cpp:39-50`), and `load` keeps
the users it has when the text is not read (`UserStore.cpp:52-67`). So one name that is not UTF-8 or
one balance that is not finite costs every user their account, and without them nothing is lost.
-/

namespace MiniATS

namespace UserStore

variable {R Text : Type} {json : JsonText R Text}

/-- A process that starts without users has them after `load`, with their passwords and balances. -/
def Survives (json : JsonText R Text) (store : UserStore R) : Prop :=
  ∀ name, Option.Rel User.Same (store.users.lookup name)
    ((load json ∅ (some (store.save json))).lookup name)

/-- The file is loaded exactly when every user can be stored. -/
theorem survives_iff (lossless : json.Lossless) (store : UserStore R) :
    store.Survives json ↔ store.Storable json := by
  constructor
  · intro survives name u found
    by_contra bad
    have rel := survives name
    rw [load_lost lossless found bad, found, AList.lookup_empty] at rel
    cases rel
  · exact load_save lossless

end UserStore

namespace System

/-- Alice has an account with 5 BTC, and Bob one with another name for the same letters. -/
def twoAccounts (name : Str) : List (Event ℚ) :=
  [.line 0 "REGISTER alice pw", .line 0 "DEPOSIT btc 5", .message 1 0 (str "REGISTER " ++ name ++ str " pw")]

theorem survives_accented :
    (run exactEnv fresh (twoAccounts [98, 195, 182, 98])).server.userStore.Survives BookRun.exactFiles :=
  (UserStore.survives_iff (documents_lossless _ _ _) _).mpr (by decide +kernel)

/-- A name that is not UTF-8 costs Alice her account. -/
theorem account_lost :
    let store := (run exactEnv fresh (twoAccounts [98, 246, 98])).server.userStore
    store.available (str "alice") (str "BTC") = 5 ∧
      (UserStore.load BookRun.exactFiles ∅ (some (store.save BookRun.exactFiles))).lookup (str "alice") = none ∧
      ¬ store.Survives BookRun.exactFiles := by
  intro store
  have lost : ((UserStore.load BookRun.exactFiles ∅ (some (store.save BookRun.exactFiles))).lookup
      (str "alice")).isNone = true := by
    decide +kernel
  have there : (store.users.lookup (str "alice")).isSome = true := by decide +kernel
  refine ⟨by decide +kernel, Option.isNone_iff_eq_none.mp lost, fun survives => ?_⟩
  obtain ⟨u, found⟩ := Option.isSome_iff_exists.mp there
  have rel := survives (str "alice")
  rw [found, Option.isNone_iff_eq_none.mp lost] at rel
  cases rel

end System

end MiniATS
