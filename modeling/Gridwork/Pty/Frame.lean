import Gridwork.Domain.Json

/-!
# PTY frames on the wire

A frame carries every distinct style once, in a table of its own, and each row as a
list of runs that name the table by index.  `PtyFrame.cells` expands a frame to the grid its
runs describe, or answers nothing for a frame no rectangular grid matches, and
`PtyFrame.fromCells` interns a grid.  A delta batch interns the same way with a table of
the batch.
-/

namespace Gridwork.Pty

open Domain (Json)

/-! ## Styles and cells -/

inductive PtyAnsiSlot where
  | black | red | green | yellow | blue | magenta | cyan | white | brightBlack | brightRed
  | brightGreen | brightYellow | brightBlue | brightMagenta | brightCyan | brightWhite
  deriving DecidableEq

def PtyAnsiSlot.asStr : PtyAnsiSlot → String
  | .black => "black"
  | .red => "red"
  | .green => "green"
  | .yellow => "yellow"
  | .blue => "blue"
  | .magenta => "magenta"
  | .cyan => "cyan"
  | .white => "white"
  | .brightBlack => "bright_black"
  | .brightRed => "bright_red"
  | .brightGreen => "bright_green"
  | .brightYellow => "bright_yellow"
  | .brightBlue => "bright_blue"
  | .brightMagenta => "bright_magenta"
  | .brightCyan => "bright_cyan"
  | .brightWhite => "bright_white"

/-- One color, in the tier the terminal engine reported it at. -/
inductive CellColor where
  | ansi16 (slot : PtyAnsiSlot)
  | xterm256 (index : UInt8)
  | truecolor (r g b : UInt8)
  deriving DecidableEq

inductive CellUnderline where
  | single | double | curly | dotted | dashed
  deriving DecidableEq

def CellUnderline.asStr : CellUnderline → String
  | .single => "single"
  | .double => "double"
  | .curly => "curly"
  | .dotted => "dotted"
  | .dashed => "dashed"

/-- The attribute bits and colors a cell carries, independent of its glyph. -/
structure CellStyle where
  (bold dim italic blink inverse invisible strikethrough overline : Bool)
  underline : Option CellUnderline
  (fg bg underlineColor : Option CellColor)
  deriving DecidableEq

/-- One terminal cell: a displayed glyph plus the style it carries. -/
structure StyledCell where
  glyph : String
  style : CellStyle
  deriving DecidableEq

/-! ## Frames and deltas -/

inductive PtyRun where
  /-- One glyph per cell. -/
  | cells (style : UInt32) (glyphs : List String)
  /-- One glyph repeated `count` cells. -/
  | fill (style : UInt32) (glyph : String) (count : UInt32)
  deriving DecidableEq

def PtyRun.width : PtyRun → Nat
  | .cells _ glyphs => glyphs.length
  | .fill _ _ count => count.toNat

def PtyRun.styleIndex : PtyRun → UInt32
  | .cells style _ => style
  | .fill style _ _ => style

/-- The visible terminal cursor, in zero-based grid coordinates. -/
structure PtyCursor where
  (row col : UInt16)
  deriving DecidableEq

structure PtyFrame where
  styles : List CellStyle
  rows : List (List PtyRun)
  cursor : Option PtyCursor
  deriving DecidableEq

/-- One cell's new content.  `style` indexes the carrying batch's table. -/
structure PtyCellUpdate where
  (row col : UInt16)
  glyph : String
  style : UInt32
  deriving DecidableEq

/-- One incremental change since the previous frame revision. -/
inductive PtyDelta where
  | cellsChanged (styles : List CellStyle) (updates : List PtyCellUpdate)
  | resized (rows cols : UInt16)
  deriving DecidableEq

/-! ## Expanding a frame -/

def PtyRun.expand (style : CellStyle) : PtyRun → List StyledCell
  | .cells _ glyphs => glyphs.map fun glyph => { glyph, style }
  | .fill _ glyph count => List.replicate count.toNat { glyph, style }

variable (styles : List CellStyle)

def expandRow (row : List PtyRun) : Option (List StyledCell) :=
  List.flatten <$> row.mapM fun run => (styles[run.styleIndex.toNat]?).map run.expand

def rowWidth (row : List PtyRun) : Nat :=
  (row.map PtyRun.width).sum

/-- The grid a frame's runs describe.  Nothing for a style index outside the table, rows of
unequal width, a cursor outside the grid, or a dimension past `u16`. -/
def PtyFrame.cells (frame : PtyFrame) : Option (List (List StyledCell)) := do
  guard (frame.rows.length < UInt16.size)
  let cols := (frame.rows.head?.map rowWidth).getD 0
  let cells ← frame.rows.mapM fun row => do
    let expanded ← expandRow frame.styles row
    guard (rowWidth row < UInt16.size)
    guard (rowWidth row = cols)
    return expanded
  guard (∀ cursor ∈ frame.cursor, cursor.row.toNat < frame.rows.length ∧ cursor.col.toNat < cols)
  return cells

/-! ## Interning a grid -/

/-- The index of a style in a table under construction, and the table after it: the next
slot is minted on first sight.  The source's `StyleInterner` also keeps the inverse
of the table in a hash map. -/
def intern (style : CellStyle) : UInt32 × List CellStyle :=
  match styles.idxOf? style with
  | some index => (.ofNat index, styles)
  | none => (.ofNat styles.length, styles ++ [style])

/-- A run that repeats one glyph is a fill, every other run lists its glyphs. -/
def packRun (index : UInt32) (first : StyledCell) (rest : List StyledCell) : PtyRun :=
  if rest.all fun cell => cell.glyph = first.glyph then
    .fill index first.glyph (.ofNat (rest.length + 1))
  else .cells index ((first :: rest).map StyledCell.glyph)

def internRun : List StyledCell → Option PtyRun × List CellStyle
  | [] => (none, styles)
  | first :: rest =>
    let (index, styles) := intern styles first.style
    (some (packRun index first rest), styles)

def internRow (row : List StyledCell) : List PtyRun × List CellStyle :=
  (row.splitBy fun left right => left.style = right.style).foldl (fun (runs, styles) run =>
      let (packed, styles) := internRun styles run
      (runs ++ packed.toList, styles))
    ([], styles)

def PtyFrame.fromCells (cells : List (List StyledCell)) (cursor : Option PtyCursor) : PtyFrame :=
  let (rows, styles) := cells.foldl
    (fun (rows, styles) row =>
      let (runs, styles) := internRow styles row
      (rows ++ [runs], styles))
    ([], [])
  { styles, rows, cursor }

/-! ## What serde writes -/

def number (value : Nat) : Json :=
  .number (toString value)

def optionalMember {α : Type} (name : String) (encode : α → Json) : Option α → List (String × Json)
  | none => []
  | some value => [(name, encode value)]

def CellColor.toJson : CellColor → Json
  | .ansi16 slot => .object [("type", .string "ansi16"), ("slot", .string slot.asStr)]
  | .xterm256 index => .object [("type", .string "xterm256"), ("index", number index.toNat)]
  | .truecolor r g b => .object [("type", .string "truecolor"), ("r", number r.toNat),
      ("g", number g.toNat), ("b", number b.toNat)]

def CellUnderline.toJson (underline : CellUnderline) : Json :=
  .object [("type", .string underline.asStr)]

def CellStyle.toJson (style : CellStyle) : Json :=
  .object <| [("bold", .bool style.bold), ("dim", .bool style.dim), ("italic", .bool style.italic),
      ("blink", .bool style.blink), ("inverse", .bool style.inverse),
      ("invisible", .bool style.invisible), ("strikethrough", .bool style.strikethrough),
      ("overline", .bool style.overline)] ++
    optionalMember "underline" CellUnderline.toJson style.underline ++
    optionalMember "fg" CellColor.toJson style.fg ++
    optionalMember "bg" CellColor.toJson style.bg ++
    optionalMember "underline_color" CellColor.toJson style.underlineColor

def PtyRun.toJson : PtyRun → Json
  | .cells style glyphs => .object [("type", .string "cells"), ("style", number style.toNat),
      ("glyphs", .array (glyphs.map .string))]
  | .fill style glyph count => .object [("type", .string "fill"), ("style", number style.toNat),
      ("glyph", .string glyph), ("count", number count.toNat)]

def PtyCursor.toJson (cursor : PtyCursor) : Json :=
  .object [("row", number cursor.row.toNat), ("col", number cursor.col.toNat)]

def PtyFrame.toJson (frame : PtyFrame) : Json :=
  .object <| [("styles", .array (frame.styles.map CellStyle.toJson)),
      ("rows", .array (frame.rows.map fun row => .array (row.map PtyRun.toJson)))] ++
    optionalMember "cursor" PtyCursor.toJson frame.cursor

def PtyCellUpdate.toJson (update : PtyCellUpdate) : Json :=
  .object [("row", number update.row.toNat), ("col", number update.col.toNat),
    ("glyph", .string update.glyph), ("style", number update.style.toNat)]

def PtyDelta.toJson : PtyDelta → Json
  | .cellsChanged styles updates => .object [("type", .string "cells_changed"),
      ("styles", .array (styles.map CellStyle.toJson)),
      ("updates", .array (updates.map PtyCellUpdate.toJson))]
  | .resized rows cols => .object [("type", .string "resized"), ("rows", number rows.toNat),
      ("cols", number cols.toNat)]

end Gridwork.Pty
