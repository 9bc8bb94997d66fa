import MiniATS.Misc.ListFacts
import MiniATS.Server.ServerMain
import Mathlib.Algebra.BigOperators.Ring.List
import Mathlib.Algebra.Order.Field.Rat
import Mathlib.Algebra.Order.BigOperators.Group.List

/-!
# What the figures of `STATS` and `MARKET` are

The highest price is one of the prices and none is above it, the lowest likewise, and the average
weighs the prices by the amounts, so that it lies between them (`OrderBook.cpp:46-86`).
-/

namespace MiniATS

namespace Server

variable {orders : List (EntryPtr ℚ)}

theorem getHighPrice_best (some' : orders ≠ []) :
    (∀ e ∈ orders, e.entry.price ≤ getHighPrice orders) ∧
      ∃ e ∈ orders, getHighPrice orders = e.entry.price := by
  cases orders with
  | nil => exact absurd rfl some'
  | cons first orders =>
    have best := ListFacts.foldl_best (r := fun a b : ℚ => a < b) (fun _ _ => not_lt_of_gt)
      (fun a b c ab bc => not_lt.mpr ((not_lt.mp bc).trans (not_lt.mp ab)))
      (fun e : EntryPtr ℚ => e.entry.price) (first :: orders) first.entry.price
    refine ⟨fun e member => not_lt.mp (best.2.1 e member), ?_⟩
    rcases best.2.2 with same | found
    · exact ⟨first, List.mem_cons_self, same⟩
    · exact found

theorem getLowPrice_best (some' : orders ≠ []) :
    (∀ e ∈ orders, getLowPrice orders ≤ e.entry.price) ∧
      ∃ e ∈ orders, getLowPrice orders = e.entry.price := by
  cases orders with
  | nil => exact absurd rfl some'
  | cons first orders =>
    have best := ListFacts.foldl_best (r := fun a b : ℚ => b < a) (fun _ _ => not_lt_of_gt)
      (fun a b c ab bc => not_lt.mpr ((not_lt.mp ab).trans (not_lt.mp bc)))
      (fun e : EntryPtr ℚ => e.entry.price) (first :: orders) first.entry.price
    refine ⟨fun e member => not_lt.mp (best.2.1 e member), ?_⟩
    rcases best.2.2 with same | found
    · exact ⟨first, List.mem_cons_self, same⟩
    · exact found

theorem getTotalVolume_eq (orders : List (EntryPtr ℚ)) :
    getTotalVolume orders = (orders.map (fun e => e.entry.amount)).sum := by
  rw [List.sum_eq_foldl, List.foldl_map]
  rfl

theorem getTotalVolume_pos (some' : orders ≠ []) (positive : ∀ e ∈ orders, 0 < e.entry.amount) :
    0 < getTotalVolume orders := by
  rw [getTotalVolume_eq]
  apply List.sum_pos
  · intro x member
    obtain ⟨e, inOrders, rfl⟩ := List.mem_map.mp member
    exact positive e inOrders
  · simpa using some'

theorem getAvgPrice_eq (orders : List (EntryPtr ℚ)) (some' : getTotalVolume orders ≠ 0) :
    getAvgPrice orders =
      (orders.map (fun e => e.entry.price * e.entry.amount)).sum / getTotalVolume orders := by
  unfold getAvgPrice
  dsimp only
  rw [if_neg (by simpa using some'), List.sum_eq_foldl, List.foldl_map]

/-- The average of positive amounts is between any bounds of the prices. -/
theorem getAvgPrice_between (some' : orders ≠ []) (positive : ∀ e ∈ orders, 0 < e.entry.amount)
    {low high : ℚ} (within : ∀ e ∈ orders, low ≤ e.entry.price ∧ e.entry.price ≤ high) :
    low ≤ getAvgPrice orders ∧ getAvgPrice orders ≤ high := by
  have volume := getTotalVolume_pos some' positive
  have scaled : ∀ x : ℚ, x * getTotalVolume orders = (orders.map (fun e => x * e.entry.amount)).sum := by
    intro x
    rw [getTotalVolume_eq, List.sum_map_mul_left]
  rw [getAvgPrice_eq orders volume.ne', le_div_iff₀ volume, div_le_iff₀ volume, scaled, scaled]
  constructor
  · apply List.sum_le_sum
    intro e member
    exact mul_le_mul_of_nonneg_right (within e member).1 (positive e member).le
  · apply List.sum_le_sum
    intro e member
    exact mul_le_mul_of_nonneg_right (within e member).2 (positive e member).le

end Server

end MiniATS
