import Gridwork.Lib.Grid
import Gridwork.Pty.Attach

/-!
# Mirrors of a screen

Everyone who holds a session's screen keeps a grid of cells and applies delta batches to it:
a resize gives a blank grid of the new size, and a cell update sets one cell, with its style
resolved in the batch's own table.  `applyCells` is that for one delta and `applyBatch` for a
batch; nothing is answered where a coordinate or a style index is out of range.
-/

namespace Gridwork.Pty

open Domain Lib List Option UInt16 PtyFrame

/-! ## Applying deltas -/

/-- The cells of a screen, row by row. -/
abbrev Cells := List (List StyledCell)

def blankCells (rows cols : UInt16) : Cells :=
  List.replicate rows.toNat (List.replicate cols.toNat blank)

def applyCells (cells : Cells) : PtyDelta → Option Cells
  | .resized rows cols => some (blankCells rows cols)
  | .cellsChanged styles updates => updates.foldlM (applyUpdate styles) cells

def applyBatch (cells : Cells) (deltas : List PtyDelta) : Option Cells :=
  deltas.foldlM applyCells cells

/-- What a consumer that shows `cells` shows after the batches. -/
def follow {Batch : Type} (deltas : Batch → List PtyDelta) (cells : Cells) (batches : List Batch) :
    Option Cells :=
  batches.foldlM (fun cells batch => applyBatch cells (deltas batch)) cells

theorem foldlM_applyDelta (deltas : List PtyDelta) (cells : Cells) (cursor : Option PtyCursor) :
    (deltas.foldlM applyDelta (cells, cursor)).map Prod.fst = applyBatch cells deltas := by
  induction deltas generalizing cells cursor with
  | nil => rfl
  | cons delta rest ih =>
    cases delta with
    | resized rows cols => exact ih (blankCells rows cols) none
    | cellsChanged styles updates =>
      simp only [applyBatch, foldlM_cons, applyDelta, applyCells]
      cases updates.foldlM (applyUpdate styles) cells with
      | none => rfl
      | some after => exact ih after cursor

variable {styles : List CellStyle} {update : PtyCellUpdate} {id : PtySessionId}
  {rows cols newCols newRows : UInt16} {size : UInt16 × UInt16} {updates : List PtyCellUpdate}
  {cells : Cells} {deltas : List PtyDelta} {row : List PtyRun} {session : Session}

theorem applyUpdate_some {cells after : Cells} : applyUpdate styles cells update = some after ↔
      ∃ style row, styles[update.style.toNat]? = some style ∧
        cells[update.row.toNat]? = some row ∧ update.col.toNat < row.length ∧
        after = cells.set update.row.toNat
          (row.set update.col.toNat { glyph := update.glyph, style }) := by
  simp only [applyUpdate, bind_eq_bind, bind_eq_some_iff, guard_eq_some',
    Option.pure_def, Option.some.injEq]
  constructor
  · rintro ⟨style, resolved, row, hit, -, inside, rfl⟩
    exact ⟨style, row, resolved, hit, inside, rfl⟩
  · rintro ⟨style, row, resolved, hit, inside, rfl⟩
    exact ⟨style, resolved, row, hit, (), inside, rfl⟩

/-! ## What the check pass asks -/

/-- An update inside a grid, with a style of the table. -/
structure Lands (styles : List CellStyle) (rows cols : Nat) (update : PtyCellUpdate) : Prop where
  indexed : update.style.toNat < styles.length
  row_lt : update.row.toNat < rows
  col_lt : update.col.toNat < cols

theorem checkUpdate_ok :
    checkUpdate id styles cols rows update = .ok () ↔ Lands styles rows.toNat cols.toNat update ∧
        update.glyph.utf8ByteSize ≤ MAX_GLYPH_BYTES := by
  simp only [checkUpdate, bind_ok, exists_unit, require_ok]
  constructor
  · rintro ⟨indexed, ⟨inRow, inCol⟩, short⟩
    exact ⟨⟨indexed, lt_iff_toNat_lt.mp inRow, lt_iff_toNat_lt.mp inCol⟩, short⟩
  · rintro ⟨⟨indexed, inRow, inCol⟩, short⟩
    exact ⟨indexed, ⟨lt_iff_toNat_lt.mpr inRow, lt_iff_toNat_lt.mpr inCol⟩, short⟩

theorem checkDelta_resized_ok {after : UInt16 × UInt16} :
    checkDelta id size (.resized rows cols) = .ok after ↔
      ptyGridDimensionsAreBounded cols rows ∧ blankGridBytes rows cols ≤ PUBLISH_BYTE_BUDGET ∧
        after = (cols, rows) := by
  simp only [checkDelta, boundedGrid, bind_ok, exists_unit, require_ok, pure_ok]

theorem checkDelta_cellsChanged_ok {after : UInt16 × UInt16} :
    checkDelta id (cols, rows) (.cellsChanged styles updates) = .ok after ↔ styles.Nodup ∧
        (∀ update ∈ updates, Lands styles rows.toNat cols.toNat update ∧
          update.glyph.utf8ByteSize ≤ MAX_GLYPH_BYTES) ∧
        after = (cols, rows) := by
  simp only [checkDelta, duplicateFree, bind_ok, exists_unit, require_ok,
    pure_ok, forM_ok, checkUpdate_ok]

/-! ## Checked batches apply -/

theorem exists_applyUpdate {rows cols : Nat} (rect : Rect rows cols cells)
    (lands : Lands styles rows cols update) :
    ∃ after, applyUpdate styles cells update = some after ∧ Rect rows cols after := by
  obtain ⟨row, hit, width⟩ := rect.exists_row lands.row_lt
  refine ⟨_, applyUpdate_some.mpr ⟨styles.get ⟨_, lands.indexed⟩, row, ?_, hit,
    width ▸ lands.col_lt, rfl⟩, ?_⟩
  · exact getElem?_eq_getElem lands.indexed
  · exact rect.set _ (by rw [length_set, width])

theorem exists_applyUpdates {rows cols : Nat}
    (lands : ∀ update ∈ updates, Lands styles rows cols update) (rect : Rect rows cols cells) :
    ∃ after, updates.foldlM (applyUpdate styles) cells = some after ∧ Rect rows cols after := by
  induction updates generalizing cells with
  | nil => exact ⟨cells, rfl, rect⟩
  | cons update rest ih =>
    obtain ⟨mid, applied, rect⟩ := exists_applyUpdate rect (lands update mem_cons_self)
    obtain ⟨after, finished, rect⟩ := ih
      (fun other mem => lands other (mem_cons_of_mem _ mem)) rect
    exact ⟨after, by rw [foldlM_cons, applied, bind_eq_bind, bind_some, finished], rect⟩

theorem exists_applyCells {delta : PtyDelta}
    (checked : checkDelta id (cols, rows) delta = .ok (newCols, newRows))
    (bounded : ptyGridDimensionsAreBounded cols rows) (rect : Rect rows.toNat cols.toNat cells) :
    ∃ after, applyCells cells delta = some after ∧ ptyGridDimensionsAreBounded newCols newRows ∧
      Rect newRows.toNat newCols.toNat after := by
  cases delta with
  | resized toRows toCols =>
    obtain ⟨fits, -, eq⟩ := checkDelta_resized_ok.mp checked
    cases eq
    exact ⟨_, rfl, fits, Rect.replicate _ _ blank⟩
  | cellsChanged styles updates =>
    obtain ⟨-, lands, eq⟩ := checkDelta_cellsChanged_ok.mp checked
    cases eq
    obtain ⟨after, applied, rect⟩ :=
      exists_applyUpdates (fun update mem => (lands update mem).1) rect
    exact ⟨after, applied, bounded, rect⟩

/-- **A checked batch applies.** -/
theorem exists_applyBatch
    (checked : deltas.foldlM (checkDelta id) (cols, rows) = .ok (newCols, newRows))
    (bounded : ptyGridDimensionsAreBounded cols rows) (rect : Rect rows.toNat cols.toNat cells) :
    ∃ after, applyBatch cells deltas = some after ∧ ptyGridDimensionsAreBounded newCols newRows ∧
      Rect newRows.toNat newCols.toNat after := by
  induction deltas generalizing cols rows cells with
  | nil =>
    cases checked
    exact ⟨cells, rfl, bounded, rect⟩
  | cons delta rest ih =>
    rw [foldlM_cons] at checked
    obtain ⟨⟨middleCols, middleRows⟩, first, checked⟩ := bind_ok.mp checked
    obtain ⟨mid, applied, bounded, rect⟩ := exists_applyCells first bounded rect
    obtain ⟨after, finished, shape⟩ := ih checked bounded rect
    refine ⟨after, ?_, shape⟩
    rw [applyBatch, foldlM_cons, applied]
    exact finished

def Inside (rows cols : UInt16) (cursor : Option PtyCursor) : Prop :=
  ∀ shown ∈ cursor, shown.row < rows ∧ shown.col < cols

theorem inside_foldlM_applyDelta {cells after : Cells} {cursor newCursor : Option PtyCursor}
    (checked : deltas.foldlM (checkDelta id) (cols, rows) = .ok (newCols, newRows))
    (applied : deltas.foldlM applyDelta (cells, cursor) = some (after, newCursor))
    (inside : Inside rows cols cursor) : Inside newRows newCols newCursor := by
  induction deltas generalizing cols rows cells cursor with
  | nil =>
    cases checked
    cases applied
    exact inside
  | cons delta rest ih =>
    rw [foldlM_cons] at checked applied
    obtain ⟨⟨middleCols, middleRows⟩, first, checked⟩ := bind_ok.mp checked
    obtain ⟨⟨mid, middleCursor⟩, step, applied⟩ := bind_eq_some_iff.mp applied
    refine ih checked applied ?_
    cases delta with
    | resized toRows toCols =>
      cases step
      rintro shown ⟨⟩
    | cellsChanged styles updates =>
      obtain ⟨-, -, sameSize⟩ := checkDelta_cellsChanged_ok.mp first
      obtain ⟨changed, -, made⟩ := map_eq_some_iff.mp step
      cases sameSize
      cases made
      exact inside

/-! ## Decoded frames -/

theorem length_expand (run : PtyRun) (style : CellStyle) :
    (run.expand style).length = run.width := by
  cases run with
  | cells index glyphs => exact length_map _
  | fill index glyph count => exact length_replicate

theorem expandRow_some {cells : List StyledCell} : expandRow styles row = some cells ↔
      ∃ runs, List.Forall₂ (fun run part => ∃ style,
          styles[run.styleIndex.toNat]? = some style ∧ part = run.expand style) row runs ∧
        cells = runs.flatten := by
  simp only [expandRow, Option.map_eq_map, map_eq_some_iff, mapM_some]
  refine exists_congr fun runs => and_congr ?_ eq_comm
  refine iff_of_eq (congrArg (fun related => List.Forall₂ related row runs) ?_)
  funext run part
  exact propext (exists_congr fun style => and_congr_right fun _ => eq_comm)

theorem length_of_expandRow {cells : List StyledCell}
    (expanded : expandRow styles row = some cells) :
    cells.length = rowWidth row := by
  obtain ⟨runs, related, rfl⟩ := expandRow_some.mp expanded
  rw [length_flatten, rowWidth]
  clear expanded
  induction related with
  | nil => rfl
  | cons first rest ih =>
    obtain ⟨style, -, rfl⟩ := first
    rw [map_cons, map_cons, sum_cons, sum_cons, length_expand, ih]

def PtyFrame.width (frame : PtyFrame) : Nat :=
  (frame.rows.head?.map rowWidth).getD 0

variable {frame : PtyFrame}

theorem PtyFrame.cells_some : frame.cells = some cells ↔ frame.rows.length < UInt16.size ∧
      List.Forall₂ (fun row part => expandRow frame.styles row = some part ∧
        rowWidth row < UInt16.size ∧ rowWidth row = frame.width) frame.rows cells ∧
      ∀ cursor ∈ frame.cursor, cursor.row.toNat < frame.rows.length ∧
        cursor.col.toNat < frame.width := by
  simp only [PtyFrame.cells, bind_eq_bind, bind_eq_some_iff, guard_eq_some',
    exists_unit, Option.pure_def, Option.some.injEq, mapM_some]
  have rowwise : (fun (row : List PtyRun) (part : List StyledCell) =>
        ∃ expanded, expandRow frame.styles row = some expanded ∧ rowWidth row < UInt16.size ∧
          rowWidth row = (frame.rows.head?.map rowWidth).getD 0 ∧ expanded = part) =
      fun row part => expandRow frame.styles row = some part ∧
        rowWidth row < UInt16.size ∧ rowWidth row = frame.width := by
    funext row part
    refine propext ⟨?_, ?_⟩
    · rintro ⟨expanded, hit, fits, straight, rfl⟩
      exact ⟨hit, fits, straight⟩
    · rintro ⟨hit, fits, straight⟩
      exact ⟨part, hit, fits, straight, rfl⟩
  rw [rowwise]
  constructor
  · rintro ⟨short, grid, expanded, inside, rfl⟩
    exact ⟨short, expanded, inside⟩
  · rintro ⟨short, expanded, inside⟩
    exact ⟨short, cells, expanded, inside, rfl⟩

theorem PtyFrame.rect_of_cells
    (expanded : frame.cells = some cells) : Rect frame.rows.length frame.width cells := by
  obtain ⟨-, rowwise, -⟩ := cells_some.mp expanded
  refine ⟨rowwise.length_eq.symm, ?_⟩
  intro row mem
  obtain ⟨runs, -, hit, -, straight⟩ := forall₂_exists_left rowwise mem
  rw [length_of_expandRow hit, straight]

theorem checkRun_ok {run : PtyRun} :
    checkRun styles run = .ok () ↔ run.width ≠ 0 ∧ run.styleIndex.toNat < styles.length := by
  simp only [checkRun, bind_ok, exists_unit, require_ok]

theorem checkRow_ok {cols : Nat} : checkRow styles cols row = .ok () ↔
      (∀ run ∈ row, checkRun styles run = .ok ()) ∧ rowWidth row < UInt16.size ∧
        rowWidth row = cols := by
  simp only [checkRow, bind_ok, exists_unit, require_ok, forM_ok]

theorem strictFrame_ok : strictFrame frame = .ok (rows, cols, cells) ↔
      frame.styles.Nodup ∧ (∀ row ∈ frame.rows, ∀ run ∈ row, checkRun frame.styles run = .ok ()) ∧
      ptyGridDimensionsAreBounded cols rows ∧ frame.rows.length = rows.toNat ∧
      frame.width = cols.toNat ∧ frame.cells = some cells := by
  have widthFits (rowwise : ∀ row ∈ frame.rows,
      checkRow frame.styles frame.width row = .ok ()) : frame.width < size := by
    unfold width
    cases first : frame.rows.head? with
    | none => exact Nat.zero_lt_succ _
    | some row => exact (checkRow_ok.mp (rowwise row (mem_of_head? first))).2.1
  have decoded : strictFrame frame = .ok (rows, cols, cells) ↔
      frame.styles.Nodup ∧ frame.rows.length < size ∧
      (∀ row ∈ frame.rows, checkRow frame.styles frame.width row = .ok ()) ∧
      ptyGridDimensionsAreBounded (.ofNat frame.width) (.ofNat frame.rows.length) ∧
      (∀ cursor ∈ frame.cursor, cursor.row < .ofNat frame.rows.length ∧
        cursor.col < .ofNat frame.width) ∧
      frame.cells = some cells ∧ rows = .ofNat frame.rows.length ∧ cols = .ofNat frame.width := by
    unfold strictFrame duplicateFree boundedGrid
    simp only [bind_ok, exists_unit, require_ok, forM_ok, forM_require_ok, width]
    cases expanded : frame.cells with
    | none => simp [throw, throwThe, MonadExceptOf.throw]
    | some hit =>
      simp only [pure_ok, Prod.mk.injEq, Option.some.injEq]
      tauto
  rw [decoded]
  constructor
  · rintro ⟨nodup, short, rowwise, bounded, -, expanded, rfl, rfl⟩
    refine ⟨nodup, fun row mem => (checkRow_ok.mp (rowwise row mem)).1, bounded, ?_, ?_,
      expanded⟩
    · exact (toNat_ofNat_of_lt' short).symm
    · exact (toNat_ofNat_of_lt' (widthFits rowwise)).symm
  · rintro ⟨nodup, runs, bounded, height, width, expanded⟩
    obtain ⟨short, rowwise, inside⟩ := cells_some.mp expanded
    have sameRows : UInt16.ofNat frame.rows.length = rows := by rw [height, UInt16.ofNat_toNat]
    have sameCols : UInt16.ofNat frame.width = cols := by rw [width, UInt16.ofNat_toNat]
    rw [sameRows, sameCols]
    refine ⟨nodup, short, ?_, bounded, ?_, expanded, rfl, rfl⟩
    · intro row mem
      obtain ⟨part, -, -, fits, straight⟩ := forall₂_exists_left rowwise.flip mem
      exact checkRow_ok.mpr ⟨runs row mem, fits, straight⟩
    · intro cursor isCursor
      obtain ⟨inRow, inCol⟩ := inside cursor isCursor
      exact ⟨lt_iff_toNat_lt.mpr (height ▸ inRow), lt_iff_toNat_lt.mpr (width ▸ inCol)⟩

theorem rect_of_strictFrame (decoded : strictFrame frame = .ok (rows, cols, cells)) :
    ptyGridDimensionsAreBounded cols rows ∧ Rect rows.toNat cols.toNat cells := by
  obtain ⟨-, -, bounded, height, width, expanded⟩ := strictFrame_ok.mp decoded
  exact ⟨bounded, height ▸ width ▸ rect_of_cells expanded⟩

/-! ## Every session's cells are a grid -/

def Shaped (cells : Cells) : Prop :=
  ∃ rows cols : UInt16, ptyGridDimensionsAreBounded cols rows ∧ Rect rows.toNat cols.toNat cells

theorem pos_of_bounded (bounded : ptyGridDimensionsAreBounded cols rows) :
    0 < rows.toNat ∧ 0 < cols.toNat := by
  simp only [ptyGridDimensionsAreBounded, ne_eq, decide_not, Bool.and_eq_true,
    Bool.not_eq_true', decide_eq_false_iff_not] at bounded
  obtain ⟨⟨⟨⟨someCols, someRows⟩, -⟩, -⟩, -⟩ := bounded
  exact ⟨Nat.pos_of_ne_zero fun zero => someRows (UInt16.toNat_inj.mp zero),
    Nat.pos_of_ne_zero fun zero => someCols (UInt16.toNat_inj.mp zero)⟩

theorem size_of_rect (bounded : ptyGridDimensionsAreBounded cols rows)
    (rect : Rect rows.toNat cols.toNat session.cells) : session.size = (cols, rows) := by
  rw [Session.size, rect.head_width (pos_of_bounded bounded).1, rect.height, UInt16.ofNat_toNat,
    UInt16.ofNat_toNat]

namespace PtyHub

theorem cells_advanced (shaped : Shaped session.cells)
    (checked : deltas.foldlM (checkDelta id) session.size = .ok size) (seq : UInt64) (bytes : Nat) :
    applyBatch session.cells deltas = some (advanced session seq deltas bytes).cells ∧
      Shaped (advanced session seq deltas bytes).cells := by
  obtain ⟨rows, cols, bounded, rect⟩ := shaped
  rw [size_of_rect bounded rect] at checked
  obtain ⟨after, applied, shape⟩ := exists_applyBatch checked bounded rect
  have moved : (advanced session seq deltas bytes).cells = after := by
    have eq := foldlM_applyDelta deltas session.cells session.cursor
    rw [applied] at eq
    obtain ⟨⟨cells, cursor⟩, whole, rfl⟩ := map_eq_some_iff.mp eq
    rw [advanced, whole]
    rfl
  rw [moved]
  exact ⟨applied, size.2, size.1, shape⟩

/-! ## Screens a snapshot can show -/

def Displayed (session : Session) : Prop :=
  ∃ rows cols, ptyGridDimensionsAreBounded cols rows ∧ Rect rows.toNat cols.toNat session.cells ∧
    Inside rows cols session.cursor

theorem inside_of_strictFrame
    (decoded : strictFrame frame = .ok (rows, cols, cells)) : Inside rows cols frame.cursor := by
  obtain ⟨-, -, -, height, width, expanded⟩ := strictFrame_ok.mp decoded
  obtain ⟨-, -, inside⟩ := cells_some.mp expanded
  intro shown isShown
  obtain ⟨inRow, inCol⟩ := inside shown isShown
  exact ⟨lt_iff_toNat_lt.mpr (height ▸ inRow), lt_iff_toNat_lt.mpr (width ▸ inCol)⟩

theorem displayed_of_strictFrame (decoded : strictFrame frame = .ok (rows, cols, cells))
    (sameCells : session.cells = cells) (sameCursor : session.cursor = frame.cursor) :
    Displayed session := by
  obtain ⟨bounded, rect⟩ := rect_of_strictFrame decoded
  exact ⟨rows, cols, bounded, sameCells ▸ rect, sameCursor ▸ inside_of_strictFrame decoded⟩

theorem displayed_advanced (displayed : Displayed session)
    (checked : deltas.foldlM (checkDelta id) session.size = .ok size) (seq : UInt64) (bytes : Nat) :
    Displayed (advanced session seq deltas bytes) := by
  obtain ⟨rows, cols, bounded, rect, inside⟩ := displayed
  rw [size_of_rect bounded rect] at checked
  obtain ⟨after, applied, newBounded, newRect⟩ := exists_applyBatch checked bounded rect
  have eq := foldlM_applyDelta deltas session.cells session.cursor
  rw [applied] at eq
  obtain ⟨⟨cells, cursor⟩, whole, rfl⟩ := map_eq_some_iff.mp eq
  have moved : (advanced session seq deltas bytes).cells = cells ∧
      (advanced session seq deltas bytes).cursor = cursor := by
    rw [advanced, whole]
    exact ⟨rfl, rfl⟩
  refine ⟨size.2, size.1, newBounded, moved.1 ▸ newRect, ?_⟩
  rw [moved.2]
  exact inside_foldlM_applyDelta checked whole inside

theorem displayed_change {before after : Option Session} (changed : Change id before after)
    (displayed : ∀ session ∈ before, Displayed session) :
    ∀ session ∈ after, Displayed session := by
  cases changed with
  | eq => exact displayed
  | claim decoded =>
    rintro session ⟨⟩
    exact displayed_of_strictFrame decoded rfl rfl
  | @step prior next changed =>
    have shown : Displayed prior := displayed prior rfl
    rintro session ⟨⟩
    cases changed with
    | reseed decoded fits forward sameSize =>
      exact displayed_of_strictFrame decoded (cells_reseeded ..) (cursor_reseeded ..)
    | deltas fits forward checked => exact displayed_advanced shown checked _ _
    | rawSeed | raw => exact shown
  | ended session => rintro session ⟨⟩

/-- **Every session can be shown**, in every hub reached by any history of verbs. -/
theorem displayed_reached (writerEpoch : WriterEpoch) (history : List Action) :
    ∀ (id : PtySessionId), ∀ session ∈ (reached writerEpoch history).sessions.lookup id,
      Displayed session := by
  refine (Run.of_foldl perform history (PtyHub.new writerEpoch)).invariant_induction
    (fun hub => ∀ id, ∀ session ∈ hub.sessions.lookup id, Displayed session) ?_ ?_
  · intro id session hit
    cases hit
  · rintro action - before after holds rfl id
    exact displayed_change (perform_change before action id) (holds id)

end PtyHub

end Gridwork.Pty
