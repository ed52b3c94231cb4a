import Mathlib.Algebra.BigOperators.Group.List.Basic
import Mathlib.Data.List.SplitBy
import Gridwork.Pty.Mirror

/-!
# Interning loses nothing

A frame or a batch under construction grows one style table.  An index handed out while the
table grows keeps its meaning, since the table only grows at its end, and no style enters it
twice.  `strictFrame_fromCells` is the round trip: the frame that `PtyFrame.fromCells` makes
of a bounded grid passes the hub's strict decode and expands to that grid again.
-/

namespace Gridwork.Pty

open Domain Lib List UInt32 PtyFrame

/-! ## The table -/

/-- How a table grows: at its end, and never by a style it has. -/
structure Grows (table after : List CellStyle) : Prop where
  start : table <+: after
  nodup : table.Nodup → after.Nodup

namespace Grows

theorem refl (table : List CellStyle) : Grows table table :=
  ⟨prefix_refl table, id⟩

theorem trans {table mid after : List CellStyle} (first : Grows table mid)
    (second : Grows mid after) : Grows table after :=
  ⟨first.start.trans second.start, second.nodup ∘ first.nodup⟩

theorem resolve {table after : List CellStyle} (grows : Grows table after) {index : Nat}
    {style : CellStyle} (hit : table[index]? = some style) : after[index]? = some style := by
  obtain ⟨inside, isStyle⟩ := List.getElem?_eq_some_iff.mp hit
  rw [prefix_iff_getElem?.mp grows.start index inside, isStyle]

end Grows

theorem intern_grows (table : List CellStyle) (style : CellStyle) :
    Grows table (intern table style).2 := by
  unfold intern
  cases hit : table.idxOf? style with
  | some index => exact .refl table
  | none =>
    refine ⟨prefix_append table [style], fun nodup => ?_⟩
    rw [← concat_eq_append]
    exact nodup.concat (idxOf?_eq_none_iff.mp hit)

theorem length_intern_le (table : List CellStyle) (style : CellStyle) :
    (intern table style).2.length ≤ table.length + 1 := by
  unfold intern
  cases table.idxOf? style with
  | some index => exact Nat.le_succ _
  | none => exact (length_append).le

variable {table after : List CellStyle} {cells rest group : List StyledCell} {row : List PtyRun}
  {rows cols : UInt16} {cursor : Option PtyCursor}

theorem intern_resolves (room : table.length < size) (style : CellStyle) :
    (intern table style).2[(intern table style).1.toNat]? = some style := by
  unfold intern
  cases hit : table.idxOf? style with
  | some index =>
    obtain ⟨inside, isStyle, -⟩ := idxOf?_eq_some_iff.mp hit
    have fits : index < size := inside.trans room
    rw [toNat_ofNat_of_lt' fits, getElem?_eq_getElem inside, isStyle]
  | none =>
    rw [toNat_ofNat_of_lt' room]
    exact getElem?_concat_length

/-! ## Runs -/

/-- A run that covers something and stands for these cells under a table. -/
def Stands (table : List CellStyle) (run : PtyRun) (cells : List StyledCell) : Prop :=
  run.width ≠ 0 ∧ ∃ style, table[run.styleIndex.toNat]? = some style ∧ cells = run.expand style

theorem Stands.grow (grows : Grows table after) {run : PtyRun}
    (stands : Stands table run cells) : Stands after run cells := by
  obtain ⟨covers, style, hit, expanded⟩ := stands
  exact ⟨covers, style, grows.resolve hit, expanded⟩

theorem styleIndex_packRun (index : UInt32) (first : StyledCell) (rest : List StyledCell) :
    (packRun index first rest).styleIndex = index := by
  unfold packRun
  split
  · rfl
  · rfl

theorem expand_packRun (index : UInt32) {first : StyledCell}
    (uniform : ∀ cell ∈ rest, cell.style = first.style)
    (short : rest.length + 1 < size) :
    (packRun index first rest).expand first.style = first :: rest := by
  unfold packRun
  split
  · rename_i repeated
    have eq : ∀ cell ∈ first :: rest, cell = first := by
      intro cell mem
      rcases mem_cons.mp mem with rfl | later
      · rfl
      · have glyph : cell.glyph = first.glyph := by simpa using all_eq_true.mp repeated cell later
        have style := uniform cell later
        cases cell
        cases first
        simp_all
    simp only [PtyRun.expand, toNat_ofNat_of_lt' short]
    exact (eq_replicate_iff.mpr ⟨rfl, eq⟩).symm
  · simp only [PtyRun.expand, map_map]
    refine (map_congr_left (fun cell mem => ?_)).trans (map_id _)
    have style : cell.style = first.style := by
      rcases mem_cons.mp mem with rfl | later
      · rfl
      · exact uniform cell later
    simp [← style]

/-- A group of cells one run can stand for: some cells, all of one style. -/
structure Uniform (group : List StyledCell) : Prop where
  nonempty : group ≠ []
  one_style : ∀ left ∈ group, ∀ right ∈ group, left.style = right.style
  short : group.length < UInt32.size

theorem internRun_stands (room : table.length < size) (uniform : Uniform group) :
    ∃ run, (internRun table group).1 = some run ∧ Stands (internRun table group).2 run group := by
  cases group with
  | nil => exact absurd rfl uniform.nonempty
  | cons first rest =>
    have oneStyle : ∀ cell ∈ rest, cell.style = first.style := fun cell mem =>
      uniform.one_style cell (mem_cons_of_mem _ mem) first mem_cons_self
    have expanded := expand_packRun (intern table first.style).1 oneStyle uniform.short
    refine ⟨packRun (intern table first.style).1 first rest, rfl, ?_, first.style, ?_,
      expanded.symm⟩
    · rw [← length_expand _ first.style, expanded]
      exact Nat.succ_ne_zero _
    · rw [styleIndex_packRun]
      exact intern_resolves room first.style

theorem internRun_grows (table : List CellStyle) (group : List StyledCell) :
    Grows table (internRun table group).2 ∧
      (internRun table group).2.length ≤ table.length + 1 := by
  cases group with
  | nil => exact ⟨.refl table, Nat.le_succ _⟩
  | cons first rest => exact ⟨intern_grows table first.style, length_intern_le table first.style⟩

/-! ## Rows -/

def internGroup (made : List PtyRun × List CellStyle) (group : List StyledCell) :
    List PtyRun × List CellStyle :=
  (made.1 ++ (internRun made.2 group).1.toList, (internRun made.2 group).2)

theorem internRow_eq (table : List CellStyle) (row : List StyledCell) : internRow table row =
      (row.splitBy fun left right => left.style = right.style).foldl internGroup ([], table) :=
  rfl

theorem foldl_internGroup {groups : List (List StyledCell)}
    (uniform : ∀ group ∈ groups, Uniform group) (runs : List PtyRun) (table : List CellStyle)
    (room : table.length + groups.length ≤ size) :
    ∃ added after, groups.foldl internGroup (runs, table) = (runs ++ added, after) ∧
      Grows table after ∧ after.length ≤ table.length + groups.length ∧
      List.Forall₂ (Stands after) added groups := by
  induction groups generalizing runs table with
  | nil => exact ⟨[], table, by simp, .refl table, Nat.le_refl _, .nil⟩
  | cons group rest ih =>
    rw [length_cons] at room
    obtain ⟨run, packed, stands⟩ :=
      internRun_stands (by omega : table.length < size) (uniform group mem_cons_self)
    obtain ⟨grows, grown⟩ := internRun_grows table group
    obtain ⟨added, after, folded, growsMore, grownMore, rowwise⟩ := ih
      (fun other mem => uniform other (mem_cons_of_mem _ mem)) (runs ++ [run])
      (internRun table group).2 (by omega)
    refine ⟨run :: added, after, ?_, grows.trans growsMore, ?_,
      .cons (stands.grow growsMore) rowwise⟩
    · rw [foldl_cons, internGroup, packed, Option.toList_some, folded, append_assoc,
        singleton_append]
    · rw [length_cons]
      omega

theorem length_splitBy_le (related : StyledCell → StyledCell → Bool) (row : List StyledCell) :
    (row.splitBy related).length ≤ row.length := by
  have parts : ∀ part ∈ (row.splitBy related).map List.length, 1 ≤ part := by
    intro part mem
    obtain ⟨group, isGroup, rfl⟩ := mem_map.mp mem
    exact length_pos_of_ne_nil (ne_nil_of_mem_splitBy isGroup)
  have total := length_le_sum_of_one_le _ parts
  rwa [length_map, ← length_flatten, flatten_splitBy] at total

theorem uniform_of_mem_splitBy {row : List StyledCell}
    (mem : group ∈ row.splitBy fun left right => left.style = right.style)
    (short : row.length < size) : Uniform group where
  nonempty := ne_nil_of_mem_splitBy mem
  one_style := by
    have chain := isChain_of_mem_splitBy mem
    simp only [decide_eq_true_eq] at chain
    have pairs := isChain_iff_pairwise.mp chain
    have symmetric : Std.Symm fun left right : StyledCell => left.style = right.style :=
      ⟨fun _ _ eq => eq.symm⟩
    have alike := List.Pairwise.forall_of_forall
      (R := fun left right : StyledCell => left.style = right.style) (fun _ _ => rfl) pairs
    exact fun left isLeft right isRight => alike isLeft isRight
  short := by
    refine lt_of_le_of_lt ?_ short
    have part := sublist_flatten_of_mem mem
    rw [flatten_splitBy] at part
    exact part.length_le

theorem internRow_expands {row : List StyledCell} (short : row.length < size)
    (room : table.length + row.length ≤ size) :
    Grows table (internRow table row).2 ∧
      (internRow table row).2.length ≤ table.length + row.length ∧
      ∃ groups, List.Forall₂ (Stands (internRow table row).2) (internRow table row).1 groups ∧
        groups.flatten = row := by
  have few := length_splitBy_le (fun left right => left.style = right.style) row
  obtain ⟨added, after, folded, grows, grown, rowwise⟩ := foldl_internGroup
    (fun group (mem : group ∈ row.splitBy fun left right => left.style = right.style) =>
      uniform_of_mem_splitBy mem short) [] table (by omega)
  rw [internRow_eq, folded]
  exact ⟨grows, grown.trans (Nat.add_le_add_left few _), _, rowwise, flatten_splitBy _ _⟩

/-! ## Frames -/

def StandsRow (table : List CellStyle) (row : List PtyRun) (cells : List StyledCell) : Prop :=
  ∃ groups, List.Forall₂ (Stands table) row groups ∧ groups.flatten = cells

theorem StandsRow.grow (grows : Grows table after) (stands : StandsRow table row cells) :
    StandsRow after row cells := by
  obtain ⟨groups, rowwise, flat⟩ := stands
  exact ⟨groups, rowwise.imp fun _ _ stands => stands.grow grows, flat⟩

theorem StandsRow.expandRow (stands : StandsRow table row cells) :
    expandRow table row = some cells := by
  obtain ⟨groups, rowwise, flat⟩ := stands
  exact expandRow_some.mpr ⟨groups, rowwise.imp fun _ _ stands => stands.2, flat.symm⟩

theorem StandsRow.checked
    (stands : StandsRow table row cells) : ∀ run ∈ row, checkRun table run = .ok () := by
  intro run mem
  obtain ⟨groups, rowwise, -⟩ := stands
  obtain ⟨group, -, covers, style, hit, -⟩ := forall₂_exists_left rowwise.flip mem
  exact checkRun_ok.mpr ⟨covers, (List.getElem?_eq_some_iff.mp hit).1⟩

def internNext (made : List (List PtyRun) × List CellStyle) (row : List StyledCell) :
    List (List PtyRun) × List CellStyle :=
  (made.1 ++ [(internRow made.2 row).1], (internRow made.2 row).2)

theorem fromCells_eq (cells : Cells) (cursor : Option PtyCursor) : fromCells cells cursor =
      { styles := (cells.foldl internNext ([], [])).2
        rows := (cells.foldl internNext ([], [])).1
        cursor } :=
  rfl

theorem foldl_internNext {cells : Cells} {cols : Nat} (narrow : cols < size)
    (width : ∀ row ∈ cells, row.length = cols) (rows : List (List PtyRun))
    (table : List CellStyle) (room : table.length + cells.length * cols ≤ size) :
    ∃ added after, cells.foldl internNext (rows, table) = (rows ++ added, after) ∧
      Grows table after ∧ List.Forall₂ (StandsRow after) added cells := by
  induction cells generalizing rows table with
  | nil => exact ⟨[], table, by simp, .refl table, .nil⟩
  | cons row rest ih =>
    have wide := width row mem_cons_self
    rw [length_cons, Nat.succ_mul] at room
    obtain ⟨grows, grown, stands⟩ := internRow_expands (wide ▸ narrow)
      (by omega : table.length + row.length ≤ size)
    obtain ⟨added, after, folded, growsMore, rowwise⟩ := ih
      (fun other mem => width other (mem_cons_of_mem _ mem))
      (rows ++ [(internRow table row).1]) (internRow table row).2 (by omega)
    refine ⟨(internRow table row).1 :: added, after, ?_, grows.trans growsMore,
      .cons (StandsRow.grow growsMore stands) rowwise⟩
    rw [foldl_cons, internNext, folded, append_assoc, singleton_append]

theorem fromCells_stands {cells : Cells} (rect : Rect rows.toNat cols.toNat cells)
    (cursor : Option PtyCursor) :
    (fromCells cells cursor).styles.Nodup ∧ List.Forall₂ (StandsRow (fromCells cells cursor).styles)
        (fromCells cells cursor).rows cells := by
  have narrow : cols.toNat < size := by
    have := cols.toNat_lt
    exact this.trans (by decide)
  have area : rows.toNat * cols.toNat ≤ size := by
    have := Nat.mul_le_mul rows.toNat_lt.le cols.toNat_lt.le
    exact this.trans (by decide)
  obtain ⟨added, after, folded, grows, rowwise⟩ := foldl_internNext narrow rect.width [] []
    (by rw [rect.height, length_nil, Nat.zero_add]; exact area)
  rw [fromCells_eq, folded]
  exact ⟨grows.nodup nodup_nil, rowwise⟩

/-- **Interning loses nothing.**  The frame of a bounded grid passes the strict decode, and
expands to the grid. -/
theorem strictFrame_fromCells {cells : Cells} (bounded : ptyGridDimensionsAreBounded cols rows)
    (rect : Rect rows.toNat cols.toNat cells)
    (inside : ∀ shown ∈ cursor, shown.row < rows ∧ shown.col < cols) :
    strictFrame (fromCells cells cursor) = .ok (rows, cols, cells) := by
  obtain ⟨nodup, rowwise⟩ := fromCells_stands rect cursor
  have sameCursor : (fromCells cells cursor).cursor = cursor := rfl
  generalize fromCells cells cursor = frame at nodup rowwise sameCursor ⊢
  have height : frame.rows.length = rows.toNat := rowwise.length_eq.trans rect.height
  have widths : ∀ row ∈ frame.rows, rowWidth row = cols.toNat := by
    intro row mem
    obtain ⟨part, isPart, stands⟩ := forall₂_exists_left rowwise.flip mem
    rw [← length_of_expandRow (StandsRow.expandRow stands), rect.width part isPart]
  have width : frame.width = cols.toNat := by
    unfold width
    cases first : frame.rows.head? with
    | none =>
      rw [head?_eq_none_iff.mp first, length_nil] at height
      exact absurd height (pos_of_bounded bounded).1.ne
    | some row => exact widths row (mem_of_head? first)
  refine strictFrame_ok.mpr ⟨nodup, ?_, bounded, height, width, ?_⟩
  · intro row mem
    obtain ⟨part, -, stands⟩ := forall₂_exists_left rowwise.flip mem
    exact StandsRow.checked stands
  · refine cells_some.mpr ⟨height ▸ rows.toNat_lt, ?_, ?_⟩
    · refine forall₂_imp_of_mem rowwise fun row part isRow stands => ⟨stands.expandRow, ?_, ?_⟩
      · rw [widths row isRow]
        exact cols.toNat_lt
      · rw [widths row isRow, width]
    · rw [sameCursor, height, width]
      intro shown isShown
      obtain ⟨inRow, inCol⟩ := inside shown isShown
      exact ⟨UInt16.lt_iff_toNat_lt.mp inRow, UInt16.lt_iff_toNat_lt.mp inCol⟩

theorem eq_of_cells_fromCells {cells other : Cells} (rect : Rect rows.toNat cols.toNat cells)
    (expanded : (fromCells cells cursor).cells = some other) : other = cells := by
  obtain ⟨-, rowwise⟩ := fromCells_stands rect cursor
  obtain ⟨-, expandedRows, -⟩ := cells_some.mp expanded
  have eq := mapM_some.mpr (rowwise.imp fun _ _ stands => StandsRow.expandRow stands)
  rw [mapM_some.mpr (expandedRows.imp fun _ _ hit => hit.1)] at eq
  exact Option.some.inj eq

end Gridwork.Pty
