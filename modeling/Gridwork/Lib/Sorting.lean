import Mathlib.Algebra.Order.Ring.Nat
import Mathlib.Data.List.Sort
import Mathlib.Data.List.Destutter

/-!
# Sorting by a comparison

Sorting is stable and by a three-way comparison, as the standard library of the source
has it.  Sorting and then removing adjacent repetitions leaves the distinct items in
strictly ascending order.
-/

namespace Gridwork.Lib

open Std List

variable {α : Type} {items : List α}

def sortBy (compare : α → α → Ordering) (items : List α) : List α :=
  items.insertionSort fun left right => (compare left right).isLE = true

theorem perm_sortBy (compare : α → α → Ordering) (items : List α) :
    (sortBy compare items).Perm items :=
  perm_insertionSort _ items

section Ordered

variable (compare : α → α → Ordering) [TransCmp compare]

instance totalOfCompare : Std.Total fun left right => (compare left right).isLE = true where
  total left right := by
    have swap : compare right left = (compare left right).swap := OrientedCmp.eq_swap
    rw [swap]
    cases compare left right <;> simp

instance transOfCompare : IsTrans α fun left right => (compare left right).isLE = true where
  trans _ _ _ := TransCmp.isLE_trans

variable {compare}

theorem pairwise_lt_of_sorted [LawfulEqCmp compare]
    (sorted : items.Pairwise fun left right => (compare left right).isLE = true)
    (apart : items.IsChain (· ≠ ·)) :
    items.Pairwise fun left right => compare left right = .lt := by
  induction items with
  | nil => exact .nil
  | cons first rest ih =>
    have later := ih sorted.of_cons apart.tail
    refine .cons ?_ later
    cases rest with
    | nil => simp
    | cons second rest =>
      have step : compare first second = .lt := by
        have le := rel_of_pairwise_cons sorted mem_cons_self
        have ne : first ≠ second := by
          rw [isChain_cons_cons] at apart
          exact apart.1
        cases order : compare first second with
        | lt => rfl
        | eq => exact absurd (LawfulEqCmp.eq_of_compare order) ne
        | gt => simp [order] at le
      intro item mem
      rcases mem_cons.mp mem with rfl | inRest
      · exact step
      · exact TransCmp.lt_trans step (rel_of_pairwise_cons later inRest)

end Ordered

def sortDedup [Ord α] [DecidableEq α] (items : List α) : List α :=
  (sortBy compare items).destutter (· ≠ ·)

theorem pairwise_lt_sortDedup [Ord α] [TransOrd α] [LawfulEqOrd α] [DecidableEq α]
    (items : List α) : (sortDedup items).Pairwise fun left right => compare left right = .lt :=
  pairwise_lt_of_sorted ((pairwise_insertionSort _ items).sublist (destutter_sublist _ _))
    (isChain_destutter _ _)

theorem mem_of_mem_sortDedup [Ord α] [DecidableEq α] {item : α}
    (mem : item ∈ sortDedup items) : item ∈ items :=
  (perm_sortBy compare items).mem_iff.mp ((destutter_sublist _ _).mem mem)

end Gridwork.Lib
