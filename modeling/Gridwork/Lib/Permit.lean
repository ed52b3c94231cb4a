import Mathlib.Data.List.Nodup
import Mathlib.Logic.Function.Basic

/-!
# Permits for one use

Every key has one permit, and with it the key may be used once.  The permit lies free, is in
the hands of a holder, or is spent; a holder may put it back unused.  However permits are
taken, returned and spent, the keys used are pairwise different (`Sound.step`).
-/

namespace Gridwork.Lib

open List Function

theorem update_eq_some {Index Task : Type} [DecidableEq Index] {tasks : Index → Option Task}
    {index other : Index} {task : Option Task} {hit : Task}
    (isFound : update tasks index task other = some hit) :
    other = index ∧ task = some hit ∨ other ≠ index ∧ tasks other = some hit := by
  by_cases eq : other = index
  · subst eq
    rw [update_self] at isFound
    exact .inl ⟨rfl, isFound⟩
  · rw [update_of_ne eq] at isFound
    exact .inr ⟨eq, isFound⟩

inductive Place (Holder : Type) where
  | free
  | held (holder : Holder)
  | spent

/-- All permits, and the keys used so far, oldest first. -/
structure Permits (Key Holder : Type) where
  place : Key → Place Holder
  spent : List Key

namespace Permits

variable {Key Holder : Type} {permits before after : Permits Key Holder} {key other : Key}
  {place : Place Holder}

def initial : Permits Key Holder := ⟨fun _ => .free, []⟩

/-- No key was used twice, and the permit of a used key is spent. -/
structure Sound (permits : Permits Key Holder) : Prop where
  apart : permits.spent.Nodup
  spent : ∀ key ∈ permits.spent, permits.place key = .spent

theorem Sound.initial : Sound (initial : Permits Key Holder) :=
  ⟨nodup_nil, fun _ mem => by cases mem⟩

theorem Sound.notMem (sound : permits.Sound)
    (unspent : permits.place key ≠ .spent) : key ∉ permits.spent :=
  fun used => unspent (sound.spent key used)

variable [DecidableEq Key]

def move (permits : Permits Key Holder) (key : Key) (place : Place Holder) : Permits Key Holder :=
  { permits with place := Function.update permits.place key place }

def spend (permits : Permits Key Holder) (key : Key) : Permits Key Holder :=
  ⟨Function.update permits.place key .spent, permits.spent ++ [key]⟩

inductive Step : Permits Key Holder → Permits Key Holder → Prop where
  | stay (permits : Permits Key Holder) : Step permits permits
  | take {permits : Permits Key Holder} {key : Key} (holder : Holder)
      (isFree : permits.place key = .free) : Step permits (permits.move key (.held holder))
  | back {permits : Permits Key Holder} {key : Key} {holder : Holder}
      (isHeld : permits.place key = .held holder) : Step permits (permits.move key .free)
  | spend {permits : Permits Key Holder} {key : Key} {holder : Holder}
      (isHeld : permits.place key = .held holder) : Step permits (permits.spend key)

@[simp] theorem move_self : (permits.move key place).place key = place :=
  update_self ..

theorem move_of_ne (ne : other ≠ key) :
    (permits.move key place).place other = permits.place other :=
  update_of_ne ne ..

@[simp] theorem spend_self : (permits.spend key).place key = .spent :=
  update_self ..

theorem spend_of_ne (ne : other ≠ key) :
    (permits.spend key).place other = permits.place other :=
  update_of_ne ne ..

/-- **No key is used twice.** -/
theorem Sound.step (sound : before.Sound) (step : Step before after) : after.Sound := by
  have moved {key : Key} {place : Place Holder} (unspent : before.place key ≠ .spent) :
      (before.move key place).Sound := by
    refine ⟨sound.apart, fun other used => ?_⟩
    have ne : other ≠ key := by
      rintro rfl
      exact sound.notMem unspent used
    exact (move_of_ne ne).trans (sound.spent other used)
  cases step with
  | stay => exact sound
  | take holder isFree => exact moved (by simp [isFree])
  | back isHeld => exact moved (by simp [isHeld])
  | @spend key holder isHeld =>
    have fresh : key ∉ before.spent := sound.notMem (by simp [isHeld])
    refine ⟨sound.apart.append (nodup_singleton key) (by simpa using fresh), ?_⟩
    intro other used
    by_cases eq : other = key
    · subst eq
      exact spend_self
    · rw [spend_of_ne eq]
      rcases mem_append.mp used with prior | last
      · exact sound.spent other prior
      · exact absurd (mem_singleton.mp last) eq

end Permits

end Gridwork.Lib
