import Gridwork.PtyHost.Lockstep

/-!
# Publishing a session

A host's publisher connects to the kernel, seeds the hub with its screen, and forwards each
batch.  A refusal drops the connection, and the publisher starts over with a new one, except
for a `validation` refusal: the kernel has judged the value and not the moment, and the publisher
gives up.
-/

namespace Gridwork.PtyHost

open Domain Lib Pty List WireScreen Json Batch KernelErrorCode

/-! ## The cells a frame changes -/

/-- One changed cell: its row, its column and its new content. -/
structure CellChange where
  row : UInt16
  col : Nat
  cell : StyledCell

/-- The cells in which a row of a frame differs from the mirror. -/
def rowChanges (cells : Cells) (row : Row) : List CellChange :=
  match cells[row.y.toNat]? with
  | none => []
  | some mirrorRow =>
    ((row.writes mirrorRow.length).filter fun write => mirrorRow[write.1]? ≠ some write.2).map
      fun write => ⟨row.y, write.1, write.2⟩

/-- The cells in which a frame differs from the mirror it is applied to. -/
def WireScreen.changes (screen : WireScreen) (frame : Frame) : List CellChange :=
  frame.changed.flatMap (rowChanges (screen.sized frame).cells)

/-- A listing with one more change: its style enters the table on first sight. -/
def Batch.record (batch : Batch) (change : CellChange) : Batch where
  styles := (intern batch.styles change.cell.style).2
  updates := batch.updates ++
    [{ row := change.row, col := .ofNat change.col, glyph := change.cell.glyph
       style := (intern batch.styles change.cell.style).1 }]

def listing (changes : List CellChange) : Batch :=
  changes.foldl Batch.record {}

variable {y rows cols : UInt16} {screen : WireScreen} {id : PtySessionId} {refusal : PtyRefusal}
  {hub : PtyHub} {conn : ConnectionId}

/-- Writing a row records the cells that differ from it.  No column is written twice, so the
row before the writes decides. -/
theorem batch_setCells {writes : List (Nat × StyledCell)}
    (distinct : (writes.map Prod.fst).Nodup) (mirrorRow : List StyledCell) (batch : Batch) :
    (setCells y (mirrorRow, batch) writes).2 =
      ((writes.filter fun write => mirrorRow[write.1]? ≠ some write.2).map
        fun write => ⟨y, write.1, write.2⟩).foldl record batch := by
  induction writes generalizing mirrorRow batch with
  | nil => rfl
  | cons write rest ih =>
    rw [map_cons, nodup_cons] at distinct
    obtain ⟨fresh, distinct⟩ := distinct
    by_cases eq : mirrorRow[write.1]? = some write.2
    · have unchanged : setCell y (mirrorRow, batch) write.1 write.2 = (mirrorRow, batch) := by
        simp only [setCell, eq, if_true]
      rw [setCells, foldl_cons, unchanged, filter_cons_of_neg (by simp [eq])]
      exact ih distinct mirrorRow batch
    · have changed : setCell y (mirrorRow, batch) write.1 write.2 =
          (mirrorRow.set write.1 write.2, batch.record ⟨y, write.1, write.2⟩) := by
        simp only [setCell, eq, if_false]
        rfl
      have later : ∀ other ∈ rest,
          (mirrorRow.set write.1 write.2)[other.1]? = mirrorRow[other.1]? := by
        intro other mem
        refine getElem?_set_ne fun sameCol => fresh ?_
        rw [sameCol]
        exact mem_map_of_mem mem
      rw [setCells, foldl_cons, changed, filter_cons_of_pos (by simp [eq]), map_cons, foldl_cons]
      refine (ih distinct _ _).trans ?_
      congr 2
      refine filter_congr fun other mem => ?_
      rw [later other mem]

theorem batch_applyRow (cells : Cells) (batch : Batch) (row : Row) :
    (applyRow (cells, batch) row).2 = (rowChanges cells row).foldl record batch := by
  cases hit : cells[row.y.toNat]? with
  | none => simp only [applyRow_of_none hit, rowChanges, hit, foldl_nil]
  | some mirrorRow =>
    rw [applyRow_of_some hit]
    simp only [rowChanges, hit]
    exact batch_setCells ((row.writes_increasing _).imp Nat.ne_of_lt) mirrorRow batch

theorem getElem?_applyRow_ne {cells : Cells} {row : Row} (other : row.y ≠ y)
    (batch : Batch) : (applyRow (cells, batch) row).1[y.toNat]? = cells[y.toNat]? := by
  cases hit : cells[row.y.toNat]? with
  | none => rw [applyRow_of_none hit]
  | some mirrorRow =>
    rw [applyRow_of_some hit]
    exact getElem?_set_ne fun eq => other (UInt16.toNat_inj.mp eq)

theorem batch_foldl_applyRow {changed : List Row}
    (ascending : (changed.map Row.y).Pairwise (· < ·)) (cells : Cells) (batch : Batch) :
    (changed.foldl applyRow (cells, batch)).2 =
      (changed.flatMap (rowChanges cells)).foldl record batch := by
  induction changed generalizing cells batch with
  | nil => rfl
  | cons row rest ih =>
    rw [map_cons, pairwise_cons] at ascending
    obtain ⟨below, ascending⟩ := ascending
    have later : ∀ other ∈ rest,
        rowChanges (applyRow (cells, batch) row).1 other = rowChanges cells other := by
      intro other mem
      have distinct : row.y ≠ other.y :=
        UInt16.ne_of_lt (below other.y (mem_map_of_mem mem))
      simp only [rowChanges, getElem?_applyRow_ne distinct]
    have onward := ih ascending (applyRow (cells, batch) row).1 (applyRow (cells, batch) row).2
    rw [flatMap_congr later] at onward
    rw [foldl_cons, flatMap_cons, foldl_append, ← batch_applyRow]
    exact onward

/-- **A frame publishes what it changes.** -/
theorem WireScreen.mirrored_eq_listing (screen : WireScreen) (frame : Frame) :
    (screen.mirrored frame).2 = listing (screen.changes frame) :=
  batch_foldl_applyRow frame.ascending _ {}

theorem glyph_of_mem_updates {changes : List CellChange} {batch : Batch} {update : PtyCellUpdate}
    (mem : update ∈ (changes.foldl record batch).updates) :
    update ∈ batch.updates ∨ ∃ change ∈ changes, change.cell.glyph = update.glyph := by
  induction changes generalizing batch with
  | nil => exact .inl mem
  | cons change rest ih =>
    rcases ih mem with recorded | ⟨other, isOther, glyph⟩
    · rcases mem_snoc.mp recorded with old | new
      · exact .inl old
      · refine .inr ⟨change, mem_cons_self, ?_⟩
        rw [new]
    · exact .inr ⟨other, mem_cons_of_mem _ isOther, glyph⟩

/-! ## One publish -/

def Frame.CursorInside (frame : Frame) : Prop :=
  ∀ shown ∈ frame.cursor, shown.2 < frame.rows ∧ shown.1 < frame.cols

def WireScreen.Presentable (screen : WireScreen) : Prop :=
  ∃ rows cols, ptyGridDimensionsAreBounded cols rows ∧ Rect rows.toNat cols.toNat screen.cells ∧
    ∀ shown ∈ screen.cursor, shown.row < rows ∧ shown.col < cols

variable {frame : Frame}

theorem WireScreen.Presentable.shaped (presentable : screen.Presentable) : Shaped screen.cells := by
  obtain ⟨rows, cols, bounded, rect, -⟩ := presentable
  exact ⟨rows, cols, bounded, rect⟩

theorem WireScreen.presentable_new
    (bounded : ptyGridDimensionsAreBounded cols rows) : (new cols rows).Presentable := by
  refine ⟨rows, cols, bounded, Rect.replicate _ _ blank, ?_⟩
  rintro shown ⟨⟩

theorem WireScreen.Presentable.apply (presentable : screen.Presentable)
    (bounded : frame.Bounded) (inside : frame.CursorInside) :
    (screen.apply frame).2.Presentable := by
  refine ⟨frame.rows, frame.cols, bounded,
    (account_mirrored (rectangular_of_shaped presentable.shaped) frame).rect, ?_⟩
  intro shown isShown
  obtain ⟨position, isPosition, rfl⟩ := Option.map_eq_some_iff.mp isShown
  exact inside position isPosition

def WireScreen.FitsBudget (screen : WireScreen) : Prop :=
  screen.snapshot.toJson.renderedSize ≤ PUBLISH_BYTE_BUDGET

/-- The kernel's bounds hold what the frame changes: every changed glyph is within the cell
bound, and the listing of the changed cells, behind the resize if there is one, is within
the byte budget. -/
structure WireScreen.Carries (screen : WireScreen) (frame : Frame) : Prop where
  glyphs : ∀ change ∈ screen.changes frame, change.cell.glyph.utf8ByteSize ≤ MAX_GLYPH_BYTES
  bytes : (Json.array ((screen.resize frame ++
      [PtyDelta.cellsChanged (listing (screen.changes frame)).styles
        (listing (screen.changes frame)).updates]).map PtyDelta.toJson)).renderedSize ≤
    PUBLISH_BYTE_BUDGET

theorem itemsSize_append (items more : List Json) :
    itemsSize (items ++ more) = itemsSize items + itemsSize more := by
  induction items with
  | nil => simp [itemsSize]
  | cons item rest ih =>
    rw [cons_append, itemsSize, itemsSize, ih]
    omega

theorem renderedSize_array_le (items more : List Json) :
    (array items).renderedSize ≤ (array (items ++ more)).renderedSize := by
  rw [renderedSize, renderedSize, itemsSize_append, length_append]
  omega

theorem measured_ne_error {value : Json} (fits : value.renderedSize ≤ PUBLISH_BYTE_BUDGET)
    (refusal : PtyRefusal) : measured value ≠ .error refusal := by
  intro failed
  rcases bind_error.mp failed with tooLarge | ⟨-, -, done⟩
  · exact (require_error.mp tooLarge).1 fits
  · cases done

theorem seed_not_invalid {seq : Option UInt64}
    (presentable : screen.Presentable) (fits : screen.FitsBudget)
    (fresh : ∀ session ∈ hub.sessions.lookup id, session.owner ≠ conn)
    (refused : (hub.publishSnapshot conn id seq screen.snapshot).1 = .error refusal) :
    refusal.code ≠ .validation := by
  obtain ⟨rows, cols, bounded, rect, inside⟩ := presentable
  obtain ⟨failed, -⟩ := answer_eq_error (Prod.ext refused rfl)
  rw [PtyHub.checkSnapshot, snapshot, strictFrame_fromCells bounded rect inside, ok_bind] at failed
  rcases bind_error.mp failed with tooLarge | ⟨bytes, -, failed⟩
  · exact absurd tooLarge (measured_ne_error fits refusal)
  · cases entry : hub.sessions.lookup id with
    | none =>
      simp only [entry] at failed
      rcases bind_error.mp failed with full | ⟨-, -, failed⟩
      · rw [(require_error.mp full).2]
        decide
      · rcases bind_error.mp failed with exhausted | ⟨made, -, done⟩
        · unfold PtyHub.nextGeneration at exhausted
          split at exhausted
          · cases exhausted
          · cases exhausted
            decide
        · cases done
    | some session =>
      simp only [entry] at failed
      rcases bind_error.mp failed with others | ⟨⟨⟩, owns, -⟩
      · rw [(require_error.mp others).2]
        change authority ≠ .validation
        decide
      · exact absurd (PtyHub.owned_ok.mp owns) (fresh session entry)

theorem batch_not_invalid {seq : UInt64}
    (presentable : screen.Presentable) (bounded : frame.Bounded) (carries : screen.Carries frame)
    (kept : Kept conn screen.cells (hub.sessions.lookup id))
    (refused : (hub.publishDeltas conn id seq (screen.apply frame).1).1 = .error refusal) :
    refusal.code ≠ .validation := by
  obtain ⟨session, hit, owner, eq⟩ := kept
  rcases refused_of_publishDeltas hit owner (Prod.ext refused rfl) with
    tooLarge | ⟨head, -, -, rfl⟩ | failed
  · refine absurd tooLarge (measured_ne_error (le_trans ?_ carries.bytes) refusal)
    rw [apply_eq, mirrored_eq_listing]
    dsimp only
    split
    · exact Nat.le_refl _
    · rw [map_append]
      exact renderedSize_array_le _ _
  · exact (nofun : staleVersion ≠ .validation)
  · have sameSize : session.size = screen.size := by
      rw [Pty.Session.size, size, eq]
    rw [sameSize] at failed
    obtain ⟨update, mem, long, -⟩ :=
      check_apply_eq_error presentable.shaped bounded failed
    rw [mirrored_eq_listing] at mem
    rcases glyph_of_mem_updates mem with none | ⟨change, isChange, glyph⟩
    · cases none
    · exact absurd (glyph ▸ carries.glyphs change isChange) (Nat.not_le.mpr long)

/-! ## Runs of a publisher -/

inductive Outcome where
  /-- A refusal that retrying cannot change. -/
  | fatal | retry
  deriving DecidableEq

def refusalOutcome (refusal : PtyRefusal) : Outcome :=
  match refusal.code with
  | .validation => .fatal
  | _ => .retry

/-- A session's publisher with the kernel's hub: the screen it publishes, and the
connection it has seeded. -/
structure Publisher where
  hub : PtyHub
  screen : WireScreen
  live : Option ConnectionId

/-- What happens to a publisher.  A frame is forwarded as soon as it is applied: a
publisher that is behind has the screen it has come to, and one that reconnects goes on with the
latest. -/
inductive Move where
  | seed (conn : ConnectionId) (seq : Option UInt64)
  | frame (frame : Frame) (seq : UInt64)
  | lost
  | kernel (action : PtyHub.Action)

/-- One move: what the kernel refused, if it refused anything, and the publisher after. -/
def Publisher.step (id : PtySessionId) (publisher : Publisher) :
    Move → Option PtyRefusal × Publisher
  | .seed conn seq =>
    match publisher.hub.publishSnapshot conn id seq publisher.screen.snapshot with
    | (.ok _, hub) => (none, { publisher with hub, live := some conn })
    | (.error refusal, hub) => (some refusal, { publisher with hub, live := none })
  | .frame frame seq =>
    let (deltas, screen) := publisher.screen.apply frame
    match publisher.live with
    | none => (none, { publisher with screen })
    | some conn =>
      match publisher.hub.publishDeltas conn id seq deltas with
      | (.ok (), hub) => (none, { publisher with hub, screen })
      | (.error refusal, hub) => (some refusal, { hub, screen, live := none })
  | .lost => (none, { publisher with live := none })
  | .kernel action => (none, { publisher with hub := publisher.hub.perform action })

/-- What a publisher's surroundings keep to: a connection is new when it seeds, the engine's
frames are of bounded size with their cursor inside, and while a connection is up nobody else
speaks for it. -/
def Proper (id : PtySessionId) (publisher : Publisher) : Move → Prop
  | .seed conn _ => ∀ session ∈ publisher.hub.sessions.lookup id, session.owner ≠ conn
  | .frame frame _ => frame.Bounded ∧ frame.CursorInside
  | .lost => True
  | .kernel action => ∀ conn ∈ publisher.live, Aside conn id action

def Small (publisher : Publisher) : Move → Prop
  | .seed _ _ => publisher.screen.FitsBudget
  | .frame frame _ => publisher.live ≠ none → publisher.screen.Carries frame
  | _ => True

def ProperStep (id : PtySessionId) (before : Publisher) (move : Move) (after : Publisher) : Prop :=
  Proper id before move ∧ (before.step id move).2 = after

/-- A publisher whose connection, if it has seeded one, is in step with its screen. -/
structure Publisher.InStep (id : PtySessionId) (publisher : Publisher) : Prop where
  presentable : publisher.screen.Presentable
  kept : ∀ conn ∈ publisher.live,
    Kept conn publisher.screen.cells (publisher.hub.sessions.lookup id)

variable {publisher : Publisher} {move : Move}

theorem Publisher.InStep.step (inStep : publisher.InStep id) (proper : Proper id publisher move) :
    (publisher.step id move).2.InStep id := by
  cases move with
  | seed conn seq =>
    unfold Publisher.step
    dsimp only
    split
    · rename_i answer hub published
      refine ⟨inStep.presentable, ?_⟩
      rintro _ ⟨⟩
      obtain ⟨rows, cols, cells, session, decoded, hit, owner, eq⟩ :=
        lookup_of_publishSnapshot published
      obtain ⟨rows, cols, -, rect⟩ := inStep.presentable.shaped
      obtain ⟨-, -, -, -, -, expanded⟩ := strictFrame_ok.mp decoded
      exact ⟨session, hit, owner, eq.trans (eq_of_cells_fromCells rect expanded)⟩
    · exact ⟨inStep.presentable, nofun⟩
  | frame frame seq =>
    have shown := inStep.presentable.apply proper.1 proper.2
    unfold Publisher.step
    dsimp only
    split
    · rename_i offline
      exact ⟨shown, by simp [offline]⟩
    · rename_i conn online
      split
      · rename_i hub published
        refine ⟨shown, ?_⟩
        intro other isOther
        rw [online] at isOther
        cases isOther
        obtain ⟨session, hit, owner, eq⟩ := inStep.kept conn online
        obtain ⟨next, foundNext, sameOwner, applied⟩ :=
          lookup_of_publishDeltas hit (eq ▸ inStep.presentable.shaped) published
        rw [eq, applyBatch_apply (rectangular_of_shaped inStep.presentable.shaped)] at applied
        exact ⟨next, foundNext, sameOwner.trans owner, (Option.some.inj applied).symm⟩
      · exact ⟨shown, nofun⟩
  | lost => exact ⟨inStep.presentable, nofun⟩
  | kernel action =>
    refine ⟨inStep.presentable, ?_⟩
    intro conn online
    obtain ⟨session, hit, owner, eq⟩ := inStep.kept conn online
    exact eq ▸ kept_perform hit owner (proper conn online)

theorem Publisher.InStep.not_invalid
    (inStep : publisher.InStep id) (proper : Proper id publisher move)
    (small : Small publisher move)
    (refused : (publisher.step id move).1 = some refusal) : refusal.code ≠ .validation := by
  cases move with
  | seed conn seq =>
    unfold Publisher.step at refused
    dsimp only at refused
    split at refused
    · cases refused
    · rename_i other hub published
      cases refused
      exact seed_not_invalid inStep.presentable small proper (congrArg Prod.fst published)
  | frame frame seq =>
    unfold Publisher.step at refused
    dsimp only at refused
    split at refused
    · cases refused
    · rename_i conn online
      split at refused
      · cases refused
      · rename_i other hub published
        cases refused
        refine batch_not_invalid inStep.presentable proper.1 (small ?_)
          (inStep.kept conn online) (congrArg Prod.fst published)
        rw [online]
        exact nofun
  | lost | kernel => cases refused

/-- **A publisher within the kernel's bounds survives.**  In every run of a publisher that starts
on a blank screen of an accepted geometry, over any frames, lost connections and doings of
others in the kernel: at every move whose screen or changed cells the kernel's bounds hold,
the refusal it may get is one the publisher retries. -/
theorem publisher_survives (id : PtySessionId) (hub : PtyHub) (rows cols : UInt16)
    (bounded : ptyGridDimensionsAreBounded cols rows) (moves : List Move) (publisher : Publisher)
    (run : Run (ProperStep id) ⟨hub, .new cols rows, none⟩ moves publisher) (move : Move)
    (proper : Proper id publisher move) (small : Small publisher move) :
    ∀ refusal, (publisher.step id move).1 = some refusal → refusalOutcome refusal = .retry := by
  have inStep : publisher.InStep id := by
    refine run.invariant_induction (Publisher.InStep id) ?_ ?_
    · exact ⟨WireScreen.presentable_new bounded, nofun⟩
    · rintro item - before after inStep ⟨proper, rfl⟩
      exact inStep.step proper
  intro refusal refused
  have valid := inStep.not_invalid proper small refused
  unfold refusalOutcome
  split
  · rename_i invalid
    exact absurd invalid valid
  · rfl

/-- A publisher whose seed of a blank one-row screen was accepted at revision 1. -/
def seeded (cols : UInt16) : Publisher :=
  (Publisher.step "s" ⟨PtyHub.new 1, .new cols 1, none⟩ (.seed 7 (some 1))).2

theorem run_seeded (cols : UInt16) :
    Run (ProperStep "s") ⟨PtyHub.new 1, .new cols 1, none⟩ [.seed 7 (some 1)] (seeded cols) :=
  .cons ⟨nofun, rfl⟩ (.nil _)

theorem publisher_survives_stale :
    ∃ refusal, ((seeded 2).step "s" (.frame letters 1)).1 = some refusal ∧
      refusalOutcome refusal = .retry := by
  have carries : (seeded 2).screen.Carries letters := ⟨by decide, by decide⟩
  have proper : Proper "s" (seeded 2) (.frame letters 1) :=
    ⟨(by decide : ptyGridDimensionsAreBounded 2 1 = true), by rintro _ ⟨⟩; decide⟩
  have survives := publisher_survives "s" (PtyHub.new 1) 1 2 (by decide) [.seed 7 (some 1)]
    (seeded 2) (run_seeded 2) (.frame letters 1) proper fun _ => carries
  have refused : ((seeded 2).step "s" (.frame letters 1)).1 = some (backwards "s" 1 1) := by
    decide
  exact ⟨_, refused, survives _ refused⟩

/-! ## A legal screen that ends its publisher -/

/-- A row in which every cell holds one cluster within the hub's glyph bound, in the plain
style. -/
def Row.Legal (row : Row) : Prop :=
  row.styles = List.replicate row.cols.length {} ∧
    ∃ clusters : List String, clusters.length = row.cols.length ∧ String.join clusters = row.text ∧
      ∀ cluster ∈ clusters, cluster ≠ "" ∧ cluster.utf8ByteSize ≤ MAX_GLYPH_BYTES

/-- Four double-width emoji of one cluster each, of seven code points and 25 bytes. -/
def families : Frame where
  cols := 8
  rows := 1
  cursor := none
  changed :=
    [{ y := 0
       text := "👨‍👩‍👧‍👦👨‍👩‍👧‍👦👨‍👩‍👧‍👦👨‍👩‍👧‍👦"
       styles := [{}, {}, {}, {}]
       cols := [0, 2, 4, 6]
       increasing := by decide }]
  ascending := by decide

/-- **The leftover is fatal.**  Of 28 code points in four cells the first three cells get one each
and the last the other 25, which are 89 bytes.  The hub refuses the batch as invalid. -/
theorem leftover_is_fatal :
    Run (ProperStep "s") ⟨PtyHub.new 1, .new 8 1, none⟩ [.seed 7 (some 1)] (seeded 8) ∧
      (seeded 8).live = some 7 ∧ Proper "s" (seeded 8) (.frame families 2) ∧
      (∀ row ∈ families.changed, row.Legal) ∧
      ∃ refusal, ((seeded 8).step "s" (.frame families 2)).1 = some refusal ∧
        refusalOutcome refusal = .fatal := by
  have legal : ∀ row ∈ families.changed, row.Legal := by
    intro row mem
    cases mem_singleton.mp mem
    exact ⟨rfl, List.replicate 4 "👨‍👩‍👧‍👦", by decide, by decide, by decide⟩
  refine ⟨run_seeded 8, by decide, ⟨(by decide : ptyGridDimensionsAreBounded 8 1 = true), nofun⟩,
    legal, ?_⟩
  exact ⟨overlong "s" ⟨0, 6, "\u200d👧‍👦👨‍👩‍👧‍👦👨‍👩‍👧‍👦👨‍👩‍👧‍👦", 0⟩, by decide +kernel,
    by decide +kernel⟩

end Gridwork.PtyHost
