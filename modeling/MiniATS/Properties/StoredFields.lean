import MiniATS.Proofs.WrittenFile

/-!
# What a file keeps of its entries

`cleanup` writes the whole book with `entriesToCSV` (`CSVHandler.cpp:79-93`) and the next start reads
it with `readCSV`. Prices and amounts are printed with six significant digits, so the file keeps an
entry exactly when neither has more.
-/

namespace MiniATS

open Str CSVHandler OrderBookEntry

namespace CSVHandler

/-- `readCSV` of the file that `entriesToCSV` writes gives, for every product, its entries sorted by
timestamp with the same timestamp, product, type, price and amount. -/
def RoundTrips (old : Str) (entries : List (OrderBookEntry ℚ)) (first : Nat) : Prop :=
  ∃ book nextId, readCSV exactEnv (some (entriesToCSV exactEnv old entries false)) first =
    .ok (book, nextId) ∧ ∀ product, (book.get product []).map stored =
      (sortByTimestamp (entries.filter fun o => o.product = product)).map stored

/-- A file keeps its entries exactly when no price and no amount has more than six significant
digits. -/
theorem round_trip_iff (old : Str) (entries : List (OrderBookEntry ℚ)) (first : Nat)
    (storable : ∀ o ∈ entries, o.Storable) (narrow : ∀ o ∈ entries, Narrow 44 (entryToLine exactEnv o)) :
    RoundTrips old entries first ↔ ∀ o ∈ entries, SixDigits o.price ∧ SixDigits o.amount := by
  obtain ⟨read, eq, same⟩ := readEntries_written exactEnv_prints old entries storable narrow first
  obtain ⟨book, opened, lists⟩ := readCSV_of_readEntries eq
  have back : ∀ product, (book.get product []).map stored = (sortByTimestamp
      ((entries.map (reread roundSix)).filter fun o => o.product = product)).map stored := fun product => by
    rw [lists product]
    exact sortByTimestamp_congr same product
  constructor
  · rintro ⟨book', nextId, opened', kept⟩ o member
    obtain ⟨rfl, rfl⟩ := Prod.mk.inj (Except.ok.inj (opened.symm.trans opened'))
    -- the entry is among those read back, whose numbers are rounded
    have listed : stored o ∈ (book.get o.product []).map stored := by
      rw [kept o.product]
      exact List.mem_map_of_mem ((sortByTimestamp_perm _).mem_iff.mpr
        (List.mem_filter.mpr ⟨member, decide_eq_true rfl⟩))
    rw [back] at listed
    obtain ⟨r, inList, eq'⟩ := List.mem_map.mp listed
    obtain ⟨o', -, rfl⟩ := List.mem_map.mp
      (List.mem_of_mem_filter ((sortByTimestamp_perm _).mem_iff.mp inList))
    simp only [stored, reread, Prod.mk.injEq] at eq'
    obtain ⟨-, -, -, price, amount⟩ := eq'
    rw [← price, ← amount]
    exact ⟨sixDigits_roundSix _, sixDigits_roundSix _⟩
  · intro few
    refine ⟨book, _, opened, fun product => ?_⟩
    have kept : entries.map (reread roundSix) = entries := by
      refine (List.map_congr_left fun o member => ?_).trans (List.map_id' entries)
      obtain ⟨price, amount⟩ := few o member
      unfold reread
      rw [(roundSix_eq_iff _).mpr price, (roundSix_eq_iff _).mpr amount]
    rw [back, kept]

/-- Two orders with at most six digits. -/
def shortOrders : List (OrderBookEntry ℚ) :=
  [⟨9720, 1 / 8, str "2020/03/17 17:01:27", str "BTC/USDT", .ask, defaultUser, 4⟩,
    ⟨3 / 200, 250000, str "2020/03/17 17:01:24", str "ETH/BTC", .bid, defaultUser, 9⟩]

theorem round_trip_short : RoundTrips [] shortOrders 1 :=
  (round_trip_iff [] shortOrders 1 (by decide +kernel)
    (fun o member => narrow_of_length (by
      have short : ∀ o ∈ shortOrders, (entryToLine exactEnv o).length < 2 ^ 31 := by decide +kernel
      exact short o member))).mpr (by decide +kernel)

/-- A bid of `src/orders.csv`: its price is written as `0.0218731`. -/
def shippedBid : OrderBookEntry ℚ :=
  ⟨2187308 / 100000000, 744564869 / 100000000, str "2020/03/17 17:01:24.884492", str "ETH/BTC", .bid,
    defaultUser, 1⟩

/-- The file of one shipped order gives it back with another price and another amount. -/
theorem shipped_bid_rounded : shippedBid.Storable ∧
    (readCSV exactEnv (some (entriesToCSV exactEnv [] [shippedBid] false)) 1).toOption.map
      (fun r => (r.1.get (str "ETH/BTC") []).map fun o => (o.price, o.amount)) =
        some [(218731 / 10000000, 744565 / 100000)] ∧
    ¬ RoundTrips [] [shippedBid] 1 := by
  have found : (readCSV exactEnv (some (entriesToCSV exactEnv [] [shippedBid] false)) 1).toOption.map
      (fun r => (r.1.get (str "ETH/BTC") []).map fun o => (o.price, o.amount)) =
        some [(218731 / 10000000, 744565 / 100000)] := by decide +kernel
  refine ⟨by decide +kernel, found, ?_⟩
  rintro ⟨book, nextId, opened, kept⟩
  rw [opened] at found
  have listed := congrArg (List.map fun x : Str × Str × OrderBookType × ℚ × ℚ => (x.2.2.2.1, x.2.2.2.2))
    (kept (str "ETH/BTC"))
  simp only [List.map_map, Function.comp_def, stored] at listed
  rw [Except.toOption, Option.map_some, Option.some.injEq] at found
  rw [found] at listed
  exact absurd listed (by decide +kernel)

end CSVHandler

end MiniATS
