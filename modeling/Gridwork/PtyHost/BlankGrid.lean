import Gridwork.PtyHost.Lockstep

/-!
# The size of a blank grid

The kernel and the host size a blank screen without building it, in saturating `u64` sums.
`blankGridBytes_exact` compares both with the frame `PtyFrame::from_cells` builds.
-/

namespace Gridwork.PtyHost

open Domain Lib Pty List Json PtyFrame

def saturating (value : Nat) : Nat := min value (UInt64.size - 1)

/-- The last line of both `blank_grid_bytes`. -/
def gridBytes (rows cols : UInt16) : Nat :=
  let style := blank.style.toJson.renderedSize
  let fill := (PtyRun.fill 0 " " cols.toUInt32).toJson.renderedSize
  saturating (style + 22 + saturating (rows.toNat * (fill + 3)))

/-- `blank_grid_bytes` of the kernel's `wire/pty.rs`, saturating. -/
def kernelBlankGridBytes (rows cols : UInt16) : Nat :=
  if rows = 0 then 23
  else if cols = 0 then 21 + 3 * rows.toNat + 1
  else gridBytes rows cols

/-- `blank_grid_bytes` of the host's `publish.rs`; `parse_sessions` refuses a zero dimension before
the host asks. -/
def hostBlankGridBytes (rows cols : UInt16) : Nat := gridBytes rows cols

def blankFrame (rows cols : UInt16) : PtyFrame :=
  .fromCells (replicate rows.toNat (replicate cols.toNat blank)) none

/-! ## The frame -/

theorem internRow_blank {styles : List CellStyle} (known : styles = [] ∨ styles = [blank.style])
    (width : Nat) : internRow styles (replicate (width + 1) blank) =
      ([.fill 0 " " (.ofNat (width + 1))], [blank.style]) := by
  have whole : (replicate (width + 1) blank).splitBy (fun left right => left.style = right.style) =
      [replicate (width + 1) blank] :=
    splitBy_of_isChain (by simp) (isChain_replicate_of_rel _ (by simp))
  rw [internRow, whole]
  rcases known with rfl | rfl
  · simp [internRun, replicate_succ, packRun, intern, blank]
  · simp [internRun, replicate_succ, packRun, intern, blank, idxOf?]

theorem foldl_internRow {styles : List CellStyle} {row : List StyledCell} {runs : List PtyRun}
    (eq : internRow styles row = (runs, styles)) (count : Nat) (before : List (List PtyRun)) :
    (replicate count row).foldl (fun (rows, styles) row =>
      let (runs, styles) := internRow styles row
      (rows ++ [runs], styles)) (before, styles) = (before ++ replicate count runs, styles) := by
  induction count generalizing before with
  | zero => simp
  | succ count ih =>
    rw [replicate_succ, foldl_cons, replicate_succ]
    simp only [eq]
    rw [ih, append_assoc, singleton_append]

theorem blankFrame_zero (rows : UInt16) :
    blankFrame rows 0 = ⟨[], replicate rows.toNat [], none⟩ := by
  simp only [blankFrame, fromCells]
  rw [show replicate (UInt16.toNat 0) blank = [] from rfl, foldl_internRow rfl, nil_append]

theorem blankFrame_filled {rows cols : UInt16} (someRows : rows ≠ 0) (someCols : cols ≠ 0) :
    blankFrame rows cols =
      ⟨[blank.style], replicate rows.toNat [.fill 0 " " cols.toUInt32], none⟩ := by
  have nonzero : ∀ {value : UInt16}, value ≠ 0 → ∃ n, value.toNat = n + 1 := fun some =>
    Nat.exists_eq_succ_of_ne_zero fun zero => some (UInt16.toNat.inj zero)
  obtain ⟨height, tall⟩ := nonzero someRows
  obtain ⟨width, wide⟩ := nonzero someCols
  rw [← UInt32.ofNat_uInt16ToNat, blankFrame, fromCells, tall, wide, replicate_succ, foldl_cons]
  simp only [internRow_blank (.inl rfl)]
  rw [foldl_internRow (internRow_blank (.inr rfl) width), replicate_succ]
  rfl

/-! ## Its length -/

theorem itemsSize_replicate (count : Nat) (item : Json) :
    itemsSize (replicate count item) = count * item.renderedSize := by
  induction count with
  | zero => simp [itemsSize]
  | succ count ih => rw [replicate_succ, itemsSize, ih, Nat.succ_mul, Nat.add_comm]

theorem renderedSize_frame (styles : List CellStyle) (count : Nat) (runs : List PtyRun) :
    (toJson ⟨styles, replicate count runs, none⟩).renderedSize =
      23 + (styles.length - 1) + itemsSize (styles.map CellStyle.toJson) + (count - 1) +
        count * (array (runs.map PtyRun.toJson)).renderedSize := by
  have names : quotedSize "styles" + quotedSize "rows" = 14 := by decide
  simp only [toJson, optionalMember, append_nil, renderedSize, membersSize,
    map_replicate, length_map, length_replicate, itemsSize_replicate, length_cons, length_nil]
  omega

/-- **The size of a blank grid is exact**, for any dimensions in the kernel and for the ones the
host takes, and stays far below the value the sums saturate at. -/
theorem blankGridBytes_exact (rows cols : UInt16) :
    kernelBlankGridBytes rows cols = (blankFrame rows cols).toJson.renderedSize ∧
    (rows ≠ 0 → cols ≠ 0 →
      hostBlankGridBytes rows cols = (blankFrame rows cols).toJson.renderedSize) ∧
    Pty.blankGridBytes rows cols = (blankFrame rows cols).toJson.renderedSize ∧
    (blankFrame rows cols).toJson.renderedSize < 2 ^ 23 := by
  have few := rows.toNat_lt
  have style : blank.style.toJson.renderedSize = 128 := by decide
  have fill := renderedSize_fill_le cols
  rcases eq_or_ne rows 0 with rfl | someRows
  · have size : (blankFrame 0 cols).toJson.renderedSize = 23 := renderedSize_frame [] 0 []
    simp [kernelBlankGridBytes, Pty.blankGridBytes, size]
  have positive : 0 < rows.toNat := Nat.pos_of_ne_zero fun zero => someRows (UInt16.toNat.inj zero)
  rcases eq_or_ne cols 0 with rfl | someCols
  · have size : (blankFrame rows 0).toJson.renderedSize = 21 + 3 * rows.toNat + 1 := by
      rw [blankFrame_zero, renderedSize_frame]
      simp only [map_nil, length_nil, Json.itemsSize, Json.renderedSize]
      omega
    simp [kernelBlankGridBytes, Pty.blankGridBytes, size, someRows]
    omega
  · have lines : rows.toNat * ((PtyRun.fill 0 " " cols.toUInt32).toJson.renderedSize + 3) ≤
        65535 * 69 := Nat.mul_le_mul (by omega) (by omega)
    have size : (blankFrame rows cols).toJson.renderedSize = blank.style.toJson.renderedSize + 22 +
        rows.toNat * ((PtyRun.fill 0 " " cols.toUInt32).toJson.renderedSize + 3) := by
      rw [blankFrame_filled someRows someCols, renderedSize_frame]
      simp only [map_cons, map_nil, length_cons, length_nil, Json.itemsSize, Json.renderedSize,
        Nat.mul_add, Nat.add_zero]
      omega
    have unsaturated : gridBytes rows cols = (blankFrame rows cols).toJson.renderedSize := by
      rw [size, gridBytes, saturating, saturating, min_eq_left, min_eq_left]
      all_goals simp only [UInt64.size]; omega
    refine ⟨?_, fun _ _ => unsaturated, ?_, ?_⟩
    · rw [kernelBlankGridBytes, if_neg someRows, if_neg someCols, unsaturated]
    · rw [Pty.blankGridBytes, if_neg someRows, if_neg someCols]
      exact size.symm
    · omega

end Gridwork.PtyHost
