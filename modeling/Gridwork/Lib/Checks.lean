import Mathlib.Algebra.Order.Ring.Nat
import Mathlib.Data.List.Basic

/-!
# Computations that may fail

A computation in `Except` succeeds exactly when its parts do.  The lemmas here take a
chain of checks and reads apart without unfolding the monad; `require` is a check that
answers its own error.
-/

namespace Gridwork.Lib

open List

variable {ε δ α β Item : Type} {error other : ε} {first computation : Except ε α}
  {next : α → Except ε β} {value : α} {items : List Item} {check : Item → Except ε Unit}
  {condition : Prop}

def require (condition : Prop) [Decidable condition] (error : ε) : Except ε Unit :=
  if condition then .ok () else .error error

def refuseSome : Option ε → Except ε Unit
  | some error => .error error
  | none => .ok ()

@[simp] theorem require_ok [Decidable condition] :
    require condition error = .ok () ↔ condition := by
  by_cases holds : condition
  · simp [require, holds]
  · simp [require, holds]

theorem require_error [Decidable condition] :
    require condition error = .error other ↔ ¬ condition ∧ other = error := by
  by_cases holds : condition
  · simp [require, holds]
  · simp [require, holds, eq_comm]

theorem ok_bind (value : α) (next : α → Except ε β) : (Except.ok value >>= next) = next value :=
  rfl

theorem bind_ok {result : β} :
    (first >>= next) = .ok result ↔ ∃ value, first = .ok value ∧ next value = .ok result := by
  cases first with
  | error error =>
    constructor
    · intro failed
      cases failed
    · rintro ⟨value, failed, -⟩
      cases failed
  | ok value =>
    constructor
    · intro succeeded
      exact ⟨value, rfl, succeeded⟩
    · rintro ⟨other, eq, succeeded⟩
      cases eq
      exact succeeded

theorem bind_error : (first >>= next) = .error error ↔
      first = .error error ∨ ∃ value, first = .ok value ∧ next value = .error error := by
  cases first with
  | error failure =>
    simp only [bind, Except.bind, Except.error.injEq, reduceCtorEq, false_and, exists_false,
      or_false]
  | ok value =>
    simp only [bind, Except.bind, reduceCtorEq, Except.ok.injEq, exists_eq_left', false_or]

/-- `Unique.exists_iff` at `Unit`, with `()` for `default`, as the lemmas on checks have it. -/
theorem exists_unit {holds : Unit → Prop} : (∃ answer, holds answer) ↔ holds () :=
  Unique.exists_iff

theorem pure_ok {result : α} : (pure value : Except ε α) = .ok result ↔ result = value := by
  constructor
  · intro eq
    cases eq
    rfl
  · rintro rfl
    rfl

theorem map_ok {f : α → β} {result : β} :
    computation.map f = .ok result ↔ ∃ value, computation = .ok value ∧ result = f value := by
  cases computation with
  | error error => simp [Except.map]
  | ok value => simp [Except.map, eq_comm]

theorem mapError_ok {rename : ε → δ} :
    computation.mapError rename = .ok value ↔ computation = .ok value := by
  cases computation with
  | error | ok => simp [Except.mapError]

theorem toOption_some : computation.toOption = some value ↔ computation = .ok value := by
  cases computation with
  | error | ok => simp [Except.toOption]

theorem forM_ok : items.forM check = .ok () ↔ ∀ item ∈ items, check item = .ok () := by
  induction items with
  | nil => simp [pure, Except.pure]
  | cons item rest ih =>
    rw [forM_eq_forM, forM_cons, bind_ok, ← forM_eq_forM, ih, forall_mem_cons]
    constructor
    · rintro ⟨⟨⟩, first, later⟩
      exact ⟨first, later⟩
    · rintro ⟨first, later⟩
      exact ⟨(), first, later⟩

theorem exists_of_forM_eq_error
    (failed : items.forM check = .error error) : ∃ item ∈ items, check item = .error error := by
  induction items with
  | nil => cases failed
  | cons item rest ih =>
    rw [forM_eq_forM, forM_cons] at failed
    rcases bind_error.mp failed with first | ⟨-, -, later⟩
    · exact ⟨item, mem_cons_self, first⟩
    · obtain ⟨other, mem, refused⟩ := ih later
      exact ⟨other, mem_cons_of_mem _ mem, refused⟩

theorem elim_ok {hit : Option α} :
    hit.elim (Except.error error) Except.ok = .ok value ↔ hit = some value := by
  cases hit with
  | none | some other => simp

theorem mapM_eq_ok {compute : Item → Except ε α} {answer : Item → α}
    (each : ∀ item ∈ items, compute item = .ok (answer item)) :
    items.mapM compute = .ok (items.map answer) := by
  induction items with
  | nil => rfl
  | cons item rest ih =>
    rw [mapM_cons, each item mem_cons_self,
      ih fun other mem => each other (mem_cons_of_mem _ mem)]
    rfl

theorem forM_require_ok {condition : α → Prop} [DecidablePred condition]
    {error : α → ε} {value : Option α} :
    (value.forM fun item => require (condition item) (error item)) = .ok () ↔
      ∀ item ∈ value, condition item := by
  cases value with
  | none => simp [pure, Except.pure]
  | some item => simp

end Gridwork.Lib
