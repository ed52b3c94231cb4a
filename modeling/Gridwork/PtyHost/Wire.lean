import Gridwork.Pty.Interning

/-!
# The host's wire screen

The terminal engine reports the rows that changed.  The host keeps a mirror of the screen in the
wire's types, `WireScreen`, and turns each engine frame into the batch of deltas that moves a
consumer of the previous screen to the new one.

`applyBatch_apply` says what one frame does: the batch replays, on the mirror before it, to the
mirror after it; its style table is canonical; and every update is inside the grid and names a
style of the table.

The engine's `Row` and `Frame` carry what the engine documents about them: the
columns of a row's clusters strictly increase, and the changed rows are listed by ascending
position.  A frame's sequence number and its repaint flag are not read here and left out.
-/

namespace Gridwork.PtyHost

open Domain Lib Pty List Option Nat

/-! ## What the engine reports -/

inductive Color where
  | palette (index : UInt8)
  | rgb (r g b : UInt8)

inductive Underline where
  | single | double | curly | dotted | dashed

structure EngineStyle where
  fg : Option Color := none
  bg : Option Color := none
  underlineColor : Option Color := none
  bold : Bool := false
  dim : Bool := false
  italic : Bool := false
  underline : Option Underline := none
  blink : Bool := false
  inverse : Bool := false
  invisible : Bool := false
  strikethrough : Bool := false
  overline : Bool := false

/-- One changed row: its text, and a style and a starting column for each cluster in it. -/
structure Row where
  y : UInt16
  text : String
  styles : List EngineStyle
  cols : List UInt16
  increasing : cols.Pairwise (· < ·)

/-- What a surface has to redraw to be current with the grid.  The cursor is a column and
a row. -/
structure Frame where
  (cols rows : UInt16)
  cursor : Option (UInt16 × UInt16)
  changed : List Row
  ascending : (changed.map Row.y).Pairwise (· < ·)

/-! ## In the wire's vocabulary -/

def color : Color → CellColor
  | .palette index => .xterm256 index
  | .rgb r g b => .truecolor r g b

def underline : Underline → CellUnderline
  | .single => .single
  | .double => .double
  | .curly => .curly
  | .dotted => .dotted
  | .dashed => .dashed

def style (style : EngineStyle) : CellStyle where
  bold := style.bold
  dim := style.dim
  italic := style.italic
  blink := style.blink
  inverse := style.inverse
  invisible := style.invisible
  strikethrough := style.strikethrough
  overline := style.overline
  underline := style.underline.map PtyHost.underline
  fg := style.fg.map color
  bg := style.bg.map color
  underlineColor := style.underlineColor.map color

def blank : StyledCell where
  glyph := " "
  style :=
    { bold := false, dim := false, italic := false, blink := false, inverse := false
      invisible := false, strikethrough := false, overline := false, underline := none, fg := none
      bg := none, underlineColor := none }

/-! ## The mirror -/

structure WireScreen where
  cells : Cells
  cursor : Option PtyCursor

/-- A batch under construction: its own style table and its updates. -/
structure Batch where
  styles : List CellStyle := []
  updates : List PtyCellUpdate := []

/-- Write one cell into a mirror row and record the update, when it changes the cell.  The
source indexes the row; `rowWrites` names columns inside it only. -/
def setCell (y : UInt16) (made : List StyledCell × Batch) (col : Nat) (cell : StyledCell) :
    List StyledCell × Batch :=
  let (mirrorRow, batch) := made
  if mirrorRow[col]? = some cell then made
  else
    let (index, styles) := intern batch.styles cell.style
    (mirrorRow.set col cell,
      { styles
        updates := batch.updates ++
          [{ row := y, col := .ofNat col, glyph := cell.glyph, style := index }] })

/-- A row's text cut back into as many clusters as it has columns: one character each,
and the rest for the last.  Where the text has run out the source's iterator yields nothing,
which its caller reads as the empty string. -/
def splitClusters : (chars : List Char) → (clusters : Nat) → List String
  | _, 0 => []
  | chars, 1 => [String.ofList chars]
  | chars, clusters + 2 =>
    (chars.head?.map String.singleton).getD "" :: splitClusters chars.tail (clusters + 1)

/-- The cells a row's clusters write: each cluster at its column, then empty cells of its
style up to the next cluster or the edge.  A cluster past the edge ends the row. -/
def rowWrites (width : Nat) : (cols : List UInt16) → List EngineStyle → (clusters : List String) →
    List (Nat × StyledCell)
  | col :: cols, entry :: styles, clusters =>
    let glyph := clusters.head?.getD ""
    let finish := (cols.head?.map fun next => min next.toNat width).getD width
    let start := col.toNat
    if start ≥ width then []
    else
      (start, { glyph, style := style entry }) ::
        (List.range' (start + 1) (finish - (start + 1))).map
          (fun spacer => (spacer, { glyph := "", style := style entry })) ++
        rowWrites width cols styles clusters.tail
  | _, _, _ => []

def Row.writes (row : Row) (width : Nat) : List (Nat × StyledCell) :=
  rowWrites width row.cols row.styles (splitClusters row.text.toList row.cols.length)

def setCells (y : UInt16) (made : List StyledCell × Batch) (writes : List (Nat × StyledCell)) :
    List StyledCell × Batch :=
  writes.foldl (fun made write => setCell y made write.1 write.2) made

/-- Mirror one changed row.  A row outside the mirror is dropped. -/
def applyRow (made : Cells × Batch) (row : Row) : Cells × Batch :=
  let (cells, batch) := made
  match cells[row.y.toNat]? with
  | none => made
  | some mirrorRow =>
    let (mirrorRow, batch) := setCells row.y (mirrorRow, batch) (row.writes mirrorRow.length)
    (cells.set row.y.toNat mirrorRow, batch)

namespace WireScreen

def new (cols rows : UInt16) : WireScreen where
  cells := List.replicate rows.toNat (List.replicate cols.toNat blank)
  cursor := none

def size (screen : WireScreen) : UInt16 × UInt16 :=
  (.ofNat ((screen.cells.head?.map List.length).getD 0), .ofNat screen.cells.length)

def snapshot (screen : WireScreen) : PtyFrame :=
  PtyFrame.fromCells screen.cells screen.cursor

/-- The mirror a frame is applied to: a frame of other dimensions starts from a blank one. -/
def sized (screen : WireScreen) (frame : Frame) : WireScreen :=
  if (frame.cols, frame.rows) ≠ screen.size then new frame.cols frame.rows else screen

def resize (screen : WireScreen) (frame : Frame) : List PtyDelta :=
  if (frame.cols, frame.rows) ≠ screen.size then [.resized frame.rows frame.cols] else []

/-- Apply one engine frame: the deltas that bring a consumer of the previous revision to
this one, and the mirror after it. -/
def apply (screen : WireScreen) (frame : Frame) : List PtyDelta × WireScreen :=
  let deltas := screen.resize frame
  let (cells, batch) := frame.changed.foldl applyRow ((screen.sized frame).cells, {})
  let deltas :=
    if batch.updates ≠ [] ∨ deltas = [] then
      deltas ++ [.cellsChanged batch.styles batch.updates]
    else deltas
  (deltas, { cells, cursor := frame.cursor.map fun (col, row) => { row, col } })

end WireScreen

/-! ## The columns a row writes -/

variable {styles : List EngineStyle} {clusters : List String} {width rows cols bound col : Nat}
  {row : Row} {start cells : Cells} {updates : List PtyCellUpdate} {mirrorRow : List StyledCell}
  {batch : Batch} {y : UInt16} {screen : WireScreen}

theorem col_lt_of_mem_rowWrites {cols : List UInt16} :
    ∀ write ∈ rowWrites width cols styles clusters, write.1 < width := by
  fun_induction rowWrites width cols styles clusters with
  | case1 => simp
  | case2 col cols entry styles clusters glyph finish start inside ih =>
    have within : finish ≤ width := by
      cases next : cols.head? with
      | none | some => simp [finish, next]
    intro write mem
    rcases mem_cons.mp mem with rfl | mem
    · exact Nat.lt_of_not_le inside
    · rcases mem_append.mp mem with spacer | later
      · obtain ⟨column, isColumn, rfl⟩ := List.mem_map.mp spacer
        rw [mem_range'_1] at isColumn
        dsimp only
        omega
      · exact ih write later
  | case3 => simp

theorem rowWrites_increasing {cols : List UInt16} (increasing : cols.Pairwise (· < ·)) :
    ((rowWrites width cols styles clusters).map Prod.fst).Pairwise (· < ·) ∧
      ∀ col ∈ cols.head?, ∀ write ∈ rowWrites width cols styles clusters, col.toNat ≤ write.1 := by
  fun_induction rowWrites width cols styles clusters with
  | case1 => simp
  | case2 col cols entry styles clusters glyph finish start inside ih =>
    obtain ⟨ordered, beyond⟩ := ih increasing.of_cons
    -- what the later clusters write starts where this cluster's spacers end
    have later : ∀ write ∈ rowWrites width cols styles clusters.tail,
        start < write.1 ∧ finish ≤ write.1 := by
      intro write mem
      cases next : cols with
      | nil => simp [next, rowWrites] at mem
      | cons other rest =>
        subst next
        have above : col < other := rel_of_pairwise_cons increasing mem_cons_self
        have above : start < other.toNat := UInt16.lt_iff_toNat_lt.mp above
        have atLeast := beyond other rfl write mem
        have least : finish ≤ other.toNat := min_le_left _ _
        omega
    have spacers : ∀ write ∈ (List.range' (start + 1) (finish - (start + 1))).map
        (fun spacer => (spacer, ({ glyph := "", style := style entry } : StyledCell))),
        start < write.1 ∧ write.1 < finish := by
      intro write mem
      obtain ⟨column, isColumn, rfl⟩ := List.mem_map.mp mem
      rw [mem_range'_1] at isColumn
      dsimp only
      omega
    constructor
    · rw [cons_append, map_cons, map_append, List.map_map]
      refine pairwise_cons.mpr ⟨?_, pairwise_append.mpr ⟨?_, ordered, ?_⟩⟩
      · intro column mem
        rw [← List.map_map, ← map_append] at mem
        obtain ⟨write, isWrite, rfl⟩ := List.mem_map.mp mem
        rcases mem_append.mp isWrite with spacer | after
        · exact (spacers write spacer).1
        · exact (later write after).1
      · exact (map_id'' (fun _ => rfl) _).symm ▸ pairwise_lt_range' ..
      · intro left isLeft right isRight
        rw [← List.map_map] at isLeft
        obtain ⟨write, isWrite, rfl⟩ := List.mem_map.mp isLeft
        obtain ⟨after, isAfter, rfl⟩ := List.mem_map.mp isRight
        exact (spacers write isWrite).2.trans_le (later after isAfter).2
    · rintro _ ⟨⟩ write mem
      rcases mem_cons.mp mem with rfl | mem
      · exact le_refl _
      · rcases mem_append.mp mem with spacer | after
        · exact (spacers write spacer).1.le
        · exact (later write after).1.le
  | case3 => simp

theorem Row.col_lt_of_mem_writes : ∀ write ∈ row.writes width, write.1 < width :=
  col_lt_of_mem_rowWrites

theorem Row.writes_increasing (row : Row) (width : Nat) :
    ((row.writes width).map Prod.fst).Pairwise (· < ·) :=
  (rowWrites_increasing row.increasing).1

theorem length_le_of_increasing {numbers : List Nat}
    (increasing : numbers.Pairwise (· < ·)) (below : ∀ number ∈ numbers, number < bound) :
    numbers.length ≤ bound := by
  have distinct : numbers.Nodup := increasing.imp ne_of_lt
  have inside : numbers ⊆ List.range bound := fun number mem =>
    mem_range.mpr (below number mem)
  have few := (subperm_of_subset distinct inside).length_le
  rwa [length_range] at few

theorem Row.length_writes_le (row : Row) (width : Nat) : (row.writes width).length ≤ width := by
  have few := length_le_of_increasing (row.writes_increasing width) (by
    intro column mem
    obtain ⟨write, isWrite, rfl⟩ := List.mem_map.mp mem
    exact Row.col_lt_of_mem_writes write isWrite)
  rwa [length_map] at few

theorem Frame.length_changed_le (frame : Frame) : frame.changed.length ≤ UInt16.size := by
  have increasing : ((frame.changed.map Row.y).map UInt16.toNat).Pairwise (· < ·) :=
    pairwise_map.mpr (frame.ascending.imp UInt16.lt_iff_toNat_lt.mp)
  have few := length_le_of_increasing increasing (by
    intro number mem
    obtain ⟨position, -, rfl⟩ := List.mem_map.mp mem
    exact position.toNat_lt)
  rwa [length_map, length_map] at few

/-! ## The batch under construction -/

theorem applyUpdates_grow {table after : List CellStyle} (grows : Grows table after)
    (applied : updates.foldlM (applyUpdate table) start = some cells) :
    updates.foldlM (applyUpdate after) start = some cells := by
  induction updates generalizing start with
  | nil => exact applied
  | cons update rest ih =>
    rw [foldlM_cons] at applied ⊢
    obtain ⟨mid, first, later⟩ := bind_eq_some_iff.mp applied
    obtain ⟨style, row, resolved, hit⟩ := applyUpdate_some.mp first
    have eq : applyUpdate after start update = some mid :=
      applyUpdate_some.mpr ⟨style, row, grows.resolve resolved, hit⟩
    rw [eq]
    exact ih later

/-- What the mirror and the batch under construction agree on: the updates so far lead
from the screen the frame found to the mirror, and pass the hub's checks on coordinates and
styles. -/
structure Account (start : Cells) (rows cols : Nat) (cells : Cells) (batch : Batch) : Prop where
  rect : Rect rows cols cells
  replays : batch.updates.foldlM (applyUpdate batch.styles) start = some cells
  nodup : batch.styles.Nodup
  lands : ∀ update ∈ batch.updates, Lands batch.styles rows cols update

theorem Account.nil (rect : Rect rows cols start) :
    Account start rows cols start {} where
  rect := rect
  replays := rfl
  nodup := nodup_nil
  lands := by simp

theorem Account.setCell (account : Account start rows cols cells batch)
    (hit : cells[y.toNat]? = some mirrorRow) (inside : col < cols) (narrow : cols < UInt16.size)
    (room : batch.styles.length < UInt32.size) (cell : StyledCell) :
    Account start rows cols (cells.set y.toNat (setCell y (mirrorRow, batch) col cell).1)
      (setCell y (mirrorRow, batch) col cell).2 := by
  have inGrid := (List.getElem?_eq_some_iff.mp hit).1
  have width : mirrorRow.length = cols :=
    account.rect.width mirrorRow (mem_of_getElem? hit)
  unfold PtyHost.setCell
  dsimp only
  split
  · -- the cell is there already: nothing is written and nothing recorded
    obtain ⟨bound, rfl⟩ := List.getElem?_eq_some_iff.mp hit
    rw [set_getElem_self]
    exact account
  · have grows := intern_grows batch.styles cell.style
    have resolved := intern_resolves room cell.style
    have sameCol : (UInt16.ofNat col).toNat = col :=
      UInt16.toNat_ofNat_of_lt' (inside.trans narrow)
    have newLands : Lands (intern batch.styles cell.style).2 rows cols
        { row := y, col := .ofNat col, glyph := cell.glyph
          style := (intern batch.styles cell.style).1 } :=
      ⟨(List.getElem?_eq_some_iff.mp resolved).1, account.rect.height ▸ inGrid,
        by rw [sameCol]; exact inside⟩
    refine ⟨account.rect.set _ (by rw [length_set, width]), ?_, grows.nodup account.nodup, ?_⟩
    · rw [foldlM_append, applyUpdates_grow grows account.replays, bind_eq_bind, bind_some]
      simp only [foldlM_cons, foldlM_nil, bind_pure]
      refine applyUpdate_some.mpr ⟨cell.style, mirrorRow, resolved, hit, ?_, ?_⟩
      · rw [sameCol, width]
        exact inside
      · rw [sameCol]
    · intro update mem
      rcases mem_snoc.mp mem with old | rfl
      · obtain ⟨indexed, inRow, inCol⟩ := account.lands update old
        exact ⟨indexed.trans_le grows.start.length_le, inRow, inCol⟩
      · exact newLands

theorem length_setCell_le (y : UInt16) (made : List StyledCell × Batch) (col : Nat)
    (cell : StyledCell) :
    (setCell y made col cell).2.styles.length ≤ made.2.styles.length + 1 := by
  unfold setCell
  dsimp only
  split
  · exact le_succ _
  · exact length_intern_le made.2.styles cell.style

theorem Account.setCells (narrow : cols < UInt16.size)
    {writes : List (Nat × StyledCell)} (inside : ∀ write ∈ writes, write.1 < cols)
    (hit : cells[y.toNat]? = some mirrorRow) (account : Account start rows cols cells batch)
    (room : batch.styles.length + writes.length ≤ UInt32.size) :
    Account start rows cols (cells.set y.toNat (setCells y (mirrorRow, batch) writes).1)
        (setCells y (mirrorRow, batch) writes).2 ∧
      (PtyHost.setCells y (mirrorRow, batch) writes).2.styles.length ≤
        batch.styles.length + writes.length := by
  induction writes generalizing cells mirrorRow batch with
  | nil =>
    obtain ⟨bound, rfl⟩ := List.getElem?_eq_some_iff.mp hit
    simp only [PtyHost.setCells, foldl_nil, set_getElem_self]
    exact ⟨account, le_refl _⟩
  | cons write rest ih =>
    rw [length_cons] at room
    have written := account.setCell hit (inside write mem_cons_self) narrow (by omega) write.2
    have grown : (PtyHost.setCell y (mirrorRow, batch) write.1 write.2).2.styles.length ≤
        batch.styles.length + 1 := length_setCell_le y (mirrorRow, batch) write.1 write.2
    have inGrid := (List.getElem?_eq_some_iff.mp hit).1
    obtain ⟨final, few⟩ := ih (fun other mem => inside other (mem_cons_of_mem _ mem))
      (getElem?_set_self inGrid) written (by omega)
    rw [set_set] at final
    exact ⟨final, few.trans (by rw [length_cons]; omega)⟩

theorem applyRow_of_none (outside : cells[row.y.toNat]? = none)
    (batch : Batch) : applyRow (cells, batch) row = (cells, batch) := by
  simp only [applyRow, outside]

theorem applyRow_of_some (hit : cells[row.y.toNat]? = some mirrorRow) (batch : Batch) :
    applyRow (cells, batch) row = (cells.set row.y.toNat
          (setCells row.y (mirrorRow, batch) (row.writes mirrorRow.length)).1,
        (setCells row.y (mirrorRow, batch) (row.writes mirrorRow.length)).2) := by
  simp only [applyRow, hit]

theorem Account.applyRow (narrow : cols < UInt16.size)
    (account : Account start rows cols cells batch) (row : Row)
    (room : batch.styles.length + cols ≤ UInt32.size) :
    Account start rows cols (applyRow (cells, batch) row).1 (applyRow (cells, batch) row).2 ∧
      (PtyHost.applyRow (cells, batch) row).2.styles.length ≤ batch.styles.length + cols := by
  cases hit : cells[row.y.toNat]? with
  | none =>
    rw [applyRow_of_none hit]
    exact ⟨account, le_add_right _ _⟩
  | some mirrorRow =>
    have width : mirrorRow.length = cols :=
      account.rect.width mirrorRow (mem_of_getElem? hit)
    have few := row.length_writes_le cols
    obtain ⟨final, grown⟩ := account.setCells narrow
      (Row.col_lt_of_mem_writes : ∀ write ∈ row.writes cols, write.1 < cols) hit (by omega)
    rw [applyRow_of_some hit, width]
    exact ⟨final, grown.trans (by omega)⟩

theorem Account.foldl_applyRow (narrow : cols < UInt16.size) {changed : List Row}
    (account : Account start rows cols cells batch)
    (room : batch.styles.length + changed.length * cols ≤ UInt32.size) :
    Account start rows cols (changed.foldl PtyHost.applyRow (cells, batch)).1
      (changed.foldl PtyHost.applyRow (cells, batch)).2 := by
  induction changed generalizing cells batch with
  | nil => exact account
  | cons row rest ih =>
    rw [length_cons, succ_mul] at room
    obtain ⟨next, grown⟩ := account.applyRow narrow row (by omega)
    rw [foldl_cons]
    generalize PtyHost.applyRow (cells, batch) row = made at next grown ⊢
    obtain ⟨nextCells, nextBatch⟩ := made
    dsimp only at next grown
    exact ih next (by omega)

/-! ## One frame -/

def Rectangular (cells : Cells) : Prop :=
  ∃ rows cols : UInt16, Rect rows.toNat cols.toNat cells

theorem rectangular_of_shaped : Shaped cells → Rectangular cells
  | ⟨rows, cols, _, rect⟩ => ⟨rows, cols, rect⟩

namespace WireScreen

theorem size_of_rect {rows cols : UInt16} (some : 0 < rows.toNat)
    (rect : Rect rows.toNat cols.toNat screen.cells) : screen.size = (cols, rows) := by
  rw [size, rect.head_width some, rect.height, UInt16.ofNat_toNat, UInt16.ofNat_toNat]

theorem sized_spec (rectangular : Rectangular screen.cells) (frame : Frame) :
    Rect frame.rows.toNat frame.cols.toNat (screen.sized frame).cells ∧
      applyBatch screen.cells (screen.resize frame) = some (screen.sized frame).cells := by
  unfold sized resize
  split
  · exact ⟨Rect.replicate _ _ blank, rfl⟩
  · rename_i eq
    obtain ⟨rows, cols, rect⟩ := rectangular
    rw [not_not] at eq
    refine ⟨?_, rfl⟩
    rcases Nat.eq_zero_or_pos rows.toNat with none | some
    · -- a mirror with no rows has no columns either, as far as its size tells
      have empty : screen.cells = [] := length_eq_zero_iff.mp (rect.height.trans none)
      rw [size, empty] at eq
      obtain ⟨noCols, noRows⟩ := Prod.mk.inj eq
      rw [noCols, noRows, empty]
      exact Rect.replicate 0 0 blank
    · rw [size_of_rect some rect] at eq
      cases eq
      exact rect

def mirrored (screen : WireScreen) (frame : Frame) : Cells × Batch :=
  frame.changed.foldl applyRow ((screen.sized frame).cells, {})

theorem account_mirrored (rectangular : Rectangular screen.cells) (frame : Frame) :
    Account (screen.sized frame).cells frame.rows.toNat frame.cols.toNat
      (screen.mirrored frame).1 (screen.mirrored frame).2 := by
  refine (Account.nil (sized_spec rectangular frame).1).foldl_applyRow frame.cols.toNat_lt ?_
  rw [length_nil, zero_add]
  exact (Nat.mul_le_mul frame.length_changed_le frame.cols.toNat_lt.le).trans (by decide)

theorem apply_eq (screen : WireScreen) (frame : Frame) : screen.apply frame =
      (if (screen.mirrored frame).2.updates ≠ [] ∨ screen.resize frame = [] then
          screen.resize frame ++
            [.cellsChanged (screen.mirrored frame).2.styles (screen.mirrored frame).2.updates]
        else screen.resize frame,
        { cells := (screen.mirrored frame).1
          cursor := frame.cursor.map fun (col, row) => { row, col } }) :=
  rfl

section

variable (rectangular : Rectangular screen.cells)
include rectangular

theorem lands_of_mem_apply (frame : Frame)
    {styles : List CellStyle} (mem : .cellsChanged styles updates ∈ (screen.apply frame).1) :
    styles.Nodup ∧ ∀ update ∈ updates, Lands styles frame.rows.toNat frame.cols.toNat update := by
  have account := account_mirrored rectangular frame
  have notResize : .cellsChanged styles updates ∉ screen.resize frame := by
    unfold resize
    split
    · simp
    · simp
  rw [apply_eq] at mem
  dsimp only at mem
  split at mem
  · rcases mem_snoc.mp mem with resized | ⟨⟨⟩⟩
    · exact absurd resized notResize
    · exact ⟨account.nodup, account.lands⟩
  · exact absurd mem notResize

theorem rectangular_apply (frame : Frame) : Rectangular (screen.apply frame).2.cells :=
  ⟨frame.rows, frame.cols, (account_mirrored rectangular frame).rect⟩

/-- **One frame.**  The batch replays on the mirror before the frame to the mirror after it. -/
theorem applyBatch_apply (frame : Frame) :
    applyBatch screen.cells (screen.apply frame).1 = some (screen.apply frame).2.cells := by
  obtain ⟨-, resized⟩ := sized_spec rectangular frame
  have account := account_mirrored rectangular frame
  rw [apply_eq]
  dsimp only
  split
  · rw [applyBatch, foldlM_append, ← applyBatch, resized, bind_eq_bind, bind_some, foldlM_cons,
      applyCells, account.replays]
    rfl
  · rename_i quiet
    have unchanged : (screen.mirrored frame).2.updates = [] := by
      by_contra some
      exact quiet (.inl some)
    have eq : some (screen.sized frame).cells = some (screen.mirrored frame).1 := by
      have replayed := account.replays
      rwa [unchanged] at replayed
    rw [resized, eq]

end

end WireScreen

end Gridwork.PtyHost
