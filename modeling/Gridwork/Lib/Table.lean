import Mathlib.Algebra.Order.Ring.Nat
import Mathlib.Data.List.AList

/-!
# Keyed tables

A table holds at most one row under each key.  It is Mathlib's `AList`, whose
`Nodup` field is the primary key: two rows under one key cannot be built.  Hash
maps and database tables are both modelled by it, since neither the order of a
hash map nor the physical order of a table is observed.
-/

namespace Gridwork.Lib

open AList

/-- Rows of type `Row`, at most one under each `Key`. -/
abbrev Table (Key Row : Type) := AList fun _ : Key => Row

namespace Table

variable {Key Row : Type} [DecidableEq Key]

theorem lookup_insert_eq (table : Table Key Row) (key other : Key) (row : Row) :
    lookup other (insert key row table) =
      if other = key then some row else lookup other table := by
  by_cases eq : other = key
  · subst eq
    simp
  · rw [if_neg eq, lookup_insert_ne eq]

def eraseAll (keys : List Key) (table : Table Key Row) : Table Key Row :=
  keys.foldl (fun table key => table.erase key) table

theorem lookup_eraseAll (keys : List Key) (table : Table Key Row) (key : Key) :
    lookup key (eraseAll keys table) =
      if key ∈ keys then none else lookup key table := by
  induction keys generalizing table with
  | nil => simp [eraseAll]
  | cons first rest ih =>
    have unfolded : eraseAll (first :: rest) table = eraseAll rest (table.erase first) := rfl
    rw [unfolded, ih]
    by_cases eq : key = first
    · subst eq
      simp
    · rw [lookup_erase_ne eq]
      simp [eq]

end Table

end Gridwork.Lib
