import Mathlib.Algebra.Order.Ring.Nat

/-!
# Machine words

Rust gives a counter three ways to take its next value.  `checked_add(1)`
answers nothing at the ceiling.  A plain `+ 1` panics at the ceiling where
overflow checks are compiled in, and wraps to zero where they are not.  Away from
the ceiling the three agree.
-/

namespace Gridwork.Lib

/-- Cargo's `overflow-checks` setting: on in the `dev` and `test` profiles, off in
`release`. -/
inductive OverflowChecks where
  | on | off
  deriving DecidableEq

section Words

variable {Word : Type} [Add Word] [OfNat Word 0] [OfNat Word 1] [DecidableEq Word]

/-- `checked_add(1)`. -/
def checkedSucc (value : Word) : Option Word :=
  if value + 1 = 0 then none else some (value + 1)

/-- A plain `value + 1`; `none` is the overflow panic. -/
def plainSucc : OverflowChecks → Word → Option Word
  | .on, value => checkedSucc value
  | .off, value => some (value + 1)

theorem checkedSucc_iff {toNat : Word → Nat} {size : Nat} (injective : toNat.Injective)
    (zero : toNat 0 = 0) (below : ∀ value, toNat value < size)
    (succ : ∀ value, toNat (value + 1) = (toNat value + 1) % size) (value next : Word) :
    checkedSucc value = some next ↔ toNat next = toNat value + 1 := by
  have bound := below value
  have nextBound := below next
  by_cases ceiling : value + 1 = 0
  · have full : (toNat value + 1) % size = 0 := by rw [← succ, ceiling, zero]
    have wraps : toNat value + 1 = size := by
      by_contra room
      rw [Nat.mod_eq_of_lt (by omega)] at full
      omega
    simp only [checkedSucc, if_pos ceiling, reduceCtorEq, false_iff]
    omega
  · have notFull : toNat value + 1 ≠ size := by
      intro full
      refine ceiling (injective ?_)
      rw [succ, full, Nat.mod_self, zero]
    simp only [checkedSucc, if_neg ceiling, Option.some.injEq]
    rw [← injective.eq_iff, succ, Nat.mod_eq_of_lt (by omega)]
    exact eq_comm

end Words

theorem toNat_succ {value : UInt32} (room : value.toNat + 1 < 2 ^ 32) :
    (value + 1).toNat = value.toNat + 1 := by
  rw [UInt32.toNat_add]
  simp only [UInt32.reduceToNat]
  omega

theorem checkedSucc_some (value next : UInt32) :
    checkedSucc value = some next ↔ next.toNat = value.toNat + 1 :=
  checkedSucc_iff (fun _ _ => UInt32.toNat_inj.mp) rfl UInt32.toNat_lt
    (fun value => value.toNat_add 1) value next

theorem checkedSucc64_some (value next : UInt64) :
    checkedSucc value = some next ↔ next.toNat = value.toNat + 1 :=
  checkedSucc_iff (fun _ _ => UInt64.toNat_inj.mp) rfl UInt64.toNat_lt
    (fun value => value.toNat_add 1) value next

theorem plainSucc_eq_checkedSucc (checks : OverflowChecks) {value : UInt32}
    (room : value.toNat + 1 < 2 ^ 32) : plainSucc checks value = checkedSucc value := by
  cases checks with
  | on => rfl
  | off => exact ((checkedSucc_some _ _).mpr (toNat_succ room)).symm

/-! ## The larger of two words -/

theorem lawfulOrderMax_of_ite {Word : Type} [LE Word] [DecidableLE Word] [Std.IsLinearOrder Word]
    [Max Word] (isMax : ∀ low high : Word, max low high = if low ≤ high then high else low) :
    Std.LawfulOrderMax Word where
  max_eq_or low high := by
    rw [isMax]
    by_cases ordered : low ≤ high
    · exact .inr (if_pos ordered)
    · exact .inl (if_neg ordered)
  max_le_iff low high bound := by
    rw [isMax]
    by_cases ordered : low ≤ high
    · rw [if_pos ordered]
      exact ⟨fun below => ⟨Std.le_trans ordered below, below⟩, And.right⟩
    · rw [if_neg ordered]
      have reversed : high ≤ low := (Std.le_total).resolve_left ordered
      exact ⟨fun below => ⟨below, Std.le_trans reversed below⟩, And.left⟩

instance lawfulOrderMaxUInt32 : Std.LawfulOrderMax UInt32 := lawfulOrderMax_of_ite fun _ _ => rfl

instance lawfulOrderMaxUInt64 : Std.LawfulOrderMax UInt64 := lawfulOrderMax_of_ite fun _ _ => rfl

instance linearOrderUInt64 : LinearOrder UInt64 where
  le_refl := UInt64.le_refl
  le_trans _ _ _ := UInt64.le_trans
  lt_iff_le_not_ge low high := by
    rw [UInt64.lt_iff_toNat_lt, UInt64.le_iff_toNat_le, UInt64.le_iff_toNat_le]
    omega
  le_antisymm _ _ := UInt64.le_antisymm
  le_total := UInt64.le_total
  toDecidableLE := inferInstance
  toDecidableEq := inferInstance
  toDecidableLT := inferInstance
  compare_eq_compareOfLessAndEq _ _ := rfl

end Gridwork.Lib
