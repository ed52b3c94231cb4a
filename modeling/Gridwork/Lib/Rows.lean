import Gridwork.Lib.Checks

/-!
# Keyed rows with integrity checks

A relational table with a text primary key, read in key order.  `insertNew` is an `INSERT` that
refuses a taken key, `updateOne` is an `UPDATE` that must find its row, and `references` is a
foreign key.
-/

namespace Gridwork.Lib

open List

open Std (TreeMap)

abbrev Rows (Row : Type) := TreeMap String Row

namespace Rows

variable {ε Row : Type} {rows part whole result : Rows Row} {owned : String → Prop} {key : String}
  {row : Row}

def insertNew (taken : ε) (key : String) (row : Row) (rows : Rows Row) : Except ε (Rows Row) :=
  if rows.contains key then .error taken else .ok (rows.insert key row)

def updateOne (missing : ε) (key : String) (change : Row → Except ε Row) (rows : Rows Row) :
    Except ε (Rows Row) :=
  match rows[key]? with
  | none => .error missing
  | some row => (change row).map fun changed => rows.insert key changed

def references (unresolved : ε) (key : Option String) (rows : Rows Row) : Except ε Unit :=
  require (∀ named ∈ key, rows.contains named) unresolved

def unique {Value : Type} [DecidableEq Value] (taken : ε) (column : Row → Value) (value : Value)
    (rows : Rows Row) : Except ε Unit :=
  require (∀ row ∈ rows.values, column row ≠ value) taken

theorem getElem?_insert_eq (rows : Rows Row) (key other : String) (row : Row) :
    (rows.insert key row)[other]? = if key = other then some row else rows[other]? := by
  rw [TreeMap.getElem?_insert]
  simp only [Std.compare_eq_iff_eq]

theorem insertNew_ok {taken : ε} :
    insertNew taken key row rows = .ok result ↔ rows[key]? = none ∧ result =
      rows.insert key row := by
  rw [insertNew, TreeMap.contains_eq_isSome_getElem?]
  cases hit : rows[key]? with
  | none => simp [eq_comm]
  | some present => simp

theorem updateOne_ok {missing : ε} {change : Row → Except ε Row} :
    updateOne missing key change rows = .ok result ↔
      ∃ row changed, rows[key]? = some row ∧ change row = .ok changed ∧
        result = rows.insert key changed := by
  cases hit : rows[key]? with
  | none => simp [updateOne, hit]
  | some row =>
    cases outcome : change row with
    | error error => simp [updateOne, hit, outcome, Except.map]
    | ok changed => simp [updateOne, hit, outcome, Except.map, eq_comm]

theorem values_eq (rows : Rows Row) : rows.values = rows.toList.map (·.2) := by
  have folded : rows.values = rows.foldr (fun _ row listed => row :: listed) [] := rfl
  rw [folded, TreeMap.foldr_eq_foldr_toList, ← foldr_map, foldr_cons_nil]

theorem mem_values_iff : row ∈ rows.values ↔ ∃ key : String, rows[key]? = some row := by
  simp only [values_eq, mem_map, Prod.exists, exists_eq_right,
    TreeMap.mem_toList_iff_getElem?_eq_some]

theorem values_insert_perm (unused : rows.contains key = false) (row : Row) :
    (rows.insert key row).values.Perm (row :: rows.values) := by
  rw [values_eq, values_eq]
  have listed : (rows.insert key row).toList.Perm _ := TreeMap.toList_insert_perm
  refine (listed.map (·.2)).trans ?_
  rw [map_cons, filter_eq_self.mpr]
  rintro ⟨other, present⟩ listed
  rw [TreeMap.mem_toList_iff_getElem?_eq_some] at listed
  rw [decide_eq_true_iff, beq_iff_eq]
  rintro rfl
  rw [TreeMap.contains_eq_isSome_getElem?, listed] at unused
  cases unused

theorem eq_empty_of_toList_eq_nil (none : rows.toList = []) : rows = ∅ := by
  have empty : rows.isEmpty = true := by rw [← TreeMap.isEmpty_toList, none]; rfl
  obtain ⟨⟨tree, wellFormed⟩⟩ := rows
  cases tree with
  | leaf => rfl
  | inner => cases empty

/-! ## Parts -/

/-- One table holds exactly the rows of another whose keys are owned. -/
def PartOf (owned : String → Prop) (part whole : Rows Row) : Prop :=
  ∀ key row, part[key]? = some row ↔ owned key ∧ whole[key]? = some row

namespace PartOf

theorem empty : PartOf owned (∅ : Rows Row) whole ↔
    ∀ key row, owned key → whole[key]? ≠ some row := by
  simp [PartOf]

section

variable (holds : PartOf owned part whole)
include holds

theorem change (mine : owned key) : PartOf owned (part.insert key row) (whole.insert key row) := by
  intro other present
  rw [getElem?_insert_eq, getElem?_insert_eq]
  split
  next eq => simp [eq ▸ mine]
  next => exact holds other present

theorem own : PartOf (fun other => owned other ∨ other = key) (part.insert key row)
      (whole.insert key row) := by
  intro other present
  rw [getElem?_insert_eq, getElem?_insert_eq]
  split
  next eq => simp [eq]
  next ne =>
    rw [holds other present]
    simp [Ne.symm ne]

theorem grow (other : ¬ owned key) : PartOf owned part (whole.insert key row) := by
  intro sought present
  rw [getElem?_insert_eq, holds sought present]
  split
  next eq => simp [← eq, other]
  next => rfl

end

end PartOf

end Rows

end Gridwork.Lib
