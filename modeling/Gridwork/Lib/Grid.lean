import Mathlib.Algebra.Order.Ring.Nat
import Mathlib.Data.List.Basic
import Mathlib.Data.List.Forall2

/-!
# Rectangular grids

A screen is a list of rows, and `Rect rows cols grid` says that it has that many rows, all of
that width.  Grids are changed one cell at a time, by `List.set` in a row and in the list of
rows, which keeps the shape; what is read row by row is related by `List.Forall₂`.
-/

namespace Gridwork.Lib

open List Option

variable {Cell Item Answer : Type} {rows cols row : Nat} {grid : List (List Cell)}
  {items : List Item} {answers : List Answer} {related weaker : Item → Answer → Prop}

/-- A grid of `rows` rows, each of `cols` cells. -/
structure Rect (rows cols : Nat) (grid : List (List Cell)) : Prop where
  height : grid.length = rows
  width : ∀ row ∈ grid, row.length = cols

namespace Rect

theorem replicate (rows cols : Nat) (cell : Cell) :
    Rect rows cols (List.replicate rows (List.replicate cols cell)) where
  height := length_replicate
  width := by
    intro row mem
    rw [eq_of_mem_replicate mem, length_replicate]

theorem exists_row (rect : Rect rows cols grid) (inside : row < rows) :
    ∃ cells, grid[row]? = some cells ∧ cells.length = cols := by
  have bound : row < grid.length := rect.height ▸ inside
  exact ⟨grid[row], getElem?_eq_getElem bound, rect.width _ (getElem_mem bound)⟩

theorem set (rect : Rect rows cols grid) (row : Nat) {cells : List Cell}
    (width : cells.length = cols) : Rect rows cols (grid.set row cells) where
  height := by rw [length_set, rect.height]
  width := by
    intro other mem
    rcases mem_or_eq_of_mem_set mem with old | rfl
    · exact rect.width other old
    · exact width

theorem head_width (rect : Rect rows cols grid) (some : 0 < rows) :
    (grid.head?.map List.length).getD 0 = cols := by
  cases grid with
  | nil =>
    have none : ([] : List (List Cell)).length = rows := rect.height
    rw [← none] at some
    exact absurd some (Nat.lt_irrefl 0)
  | cons first rest => exact rect.width first mem_cons_self

end Rect

/-! ## Computing row by row -/

theorem mapM_some {compute : Item → Option Answer} : items.mapM compute = some answers ↔
      List.Forall₂ (fun item answer => compute item = some answer) items answers := by
  induction items generalizing answers with
  | nil =>
    rw [mapM_nil, Option.pure_def, Option.some.injEq, List.forall₂_nil_left_iff]
    exact eq_comm
  | cons item rest ih =>
    simp only [mapM_cons, bind_eq_bind, Option.pure_def, bind_eq_some_iff,
      Option.some.injEq, ih, List.forall₂_cons_left_iff]
    constructor
    · rintro ⟨answer, first, others, later, rfl⟩
      exact ⟨answer, others, first, later, rfl⟩
    · rintro ⟨answer, others, first, later, rfl⟩
      exact ⟨answer, first, others, later, rfl⟩

theorem forall₂_exists_left (rowwise : List.Forall₂ related items answers)
    {answer : Answer} (mem : answer ∈ answers) : ∃ item ∈ items, related item answer := by
  induction rowwise with
  | nil => cases mem
  | cons first rest ih =>
    rcases mem_cons.mp mem with rfl | later
    · exact ⟨_, mem_cons_self, first⟩
    · obtain ⟨item, hit, holds⟩ := ih later
      exact ⟨item, mem_cons_of_mem _ hit, holds⟩

theorem forall₂_imp_of_mem (rowwise : List.Forall₂ related items answers)
    (weaken : ∀ item answer, item ∈ items → related item answer → weaker item answer) :
    List.Forall₂ weaker items answers := by
  induction rowwise with
  | nil => exact .nil
  | cons first rest ih =>
    refine .cons (weaken _ _ mem_cons_self first) (ih ?_)
    exact fun item answer mem => weaken item answer (mem_cons_of_mem _ mem)

end Gridwork.Lib
