import Mathlib.Algebra.Order.Ring.Nat
import Mathlib.Data.List.Basic

/-!
# Writes that overwrite

A family of writes is last-writer-wins when of any two of them the later overwrites the earlier, or
the two commute.  Only the last write to each place of a state then matters, so a word of such
writes can be replayed over a state it has already been applied to, and nothing changes.
-/

namespace Gridwork.Lib

open List

variable {Write State : Type} {write : State → Write → State}

/-- Of two writes the later overwrites the earlier, or they commute. -/
structure LastWriterWins (write : State → Write → State) : Prop where
  overwrites_or_commutes : ∀ prior later,
    (∀ state, write (write state prior) later = write state later) ∨
      ∀ state, write (write state prior) later = write (write state later) prior
  again : ∀ state item, write (write state item) item = write state item

namespace LastWriterWins

theorem foldl_absorbs (wins : LastWriterWins write) (items : List Write) (item : Write)
    (state : State) :
    write (items.foldl write (write state item)) item = write (items.foldl write state) item := by
  induction items generalizing state with
  | nil => exact wins.again state item
  | cons first rest ih =>
    simp only [foldl_cons]
    rcases wins.overwrites_or_commutes item first with overwrites | commutes
    · rw [overwrites]
    · rw [commutes, ih]

theorem replay_snoc (wins : LastWriterWins write) {items : List Write} {item : Write}
    {state : State} (settled : items.foldl write state = state) :
    (items ++ [item]).foldl write (write state item) = write state item := by
  rw [foldl_append, foldl_cons, foldl_nil, wins.foldl_absorbs, settled]

end LastWriterWins

end Gridwork.Lib
