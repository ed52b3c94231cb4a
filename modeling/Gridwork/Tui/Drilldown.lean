import Gridwork.Pty.Mirror

/-!
# The session drill-down lens

The console mirrors a hosted screen.  `DrilldownState` decides from the session, the attach
request, the generation and two revision marks what to do with each control that arrives: seed the
mirror from a snapshot, apply a batch to it, drop either, or give the mirror up until the next
snapshot.

The wire promises: snapshots are screens of the session's history, an attach is answered with a
cursor, and a request's batches follow its answer in order without a gap (`Histories`, `Allowed`).
Controls of several requests, generations and sessions arrive interleaved, late and repeated.

`mirror_shows_history` says when the mirror is a screen of the history: as long as every batch the
lens applies to a held screen follows a request of which it has seen every batch above that
screen.  `taken_up_again` is a run in which that fails.  When no attach is outstanding the lens
takes up any answer, also the repeated answer to a request whose batches it has meanwhile
dropped.
-/

namespace Gridwork.Tui.Drilldown

open Domain Lib Pty List Option

def MIRROR_CELL_LIMIT : Nat := 16800

def saturatingAdd (count more : Nat) : Nat :=
  min (count + more) (2 ^ 64 - 1)

inductive IngestDisposition where
  | applied | counted | unrelated

structure WireDiagnostics where
  foreignReferences : Nat := 0
  invalidFrames : Nat := 0
  invalidUpdates : Nat := 0
  staleBatches : Nat := 0
  unseededUpdates : Nat := 0
  deriving DecidableEq

inductive StreamStatus where
  | waiting | snapshot | live | disconnected
  | closed (code : KernelErrorCode) (lastSeq : Option UInt64)
  deriving DecidableEq

abbrev RequestId := String

inductive ServerControl where
  | attached (request : RequestId) (session : PtySessionId) (generation : PtySessionGeneration)
      (rows cols : UInt16) (cursor : Option UInt64)
  | snapshot (session : PtySessionId) (generation : PtySessionGeneration) (seq : UInt64)
      (frame : PtyFrame)
  | error (request : RequestId) (code : KernelErrorCode)
  | deltaBatch (request : RequestId) (session : PtySessionId) (generation : PtySessionGeneration)
      (deltas : List PtyDelta) (seq : UInt64)
  | streamClosed (request : RequestId) (generation : PtySessionGeneration)
      (code : KernelErrorCode) (lastSeq : Option UInt64)
  | unrelated

structure DrilldownState where
  sessionId : PtySessionId
  attachRequestId : Option RequestId := none
  generation : Option PtySessionGeneration := none
  cells : Option Cells := none
  frameSeq : Option UInt64 := none
  lastSeq : Option UInt64 := none
  expectedSize : Option (UInt16 × UInt16) := none
  viewportRow : UInt16 := 0
  viewportCol : UInt16 := 0
  diagnostics : WireDiagnostics := {}
  streamStatus : StreamStatus := .waiting

namespace DrilldownState

def new (sessionId : PtySessionId) : DrilldownState where
  sessionId := sessionId

def beginAttach (state : DrilldownState) (request : RequestId) : DrilldownState :=
  { state with attachRequestId := some request, streamStatus := .waiting }

def transportClosed (state : DrilldownState) : DrilldownState :=
  { state with attachRequestId := none, streamStatus := .disconnected }

def refuseAttach (state : DrilldownState) (code : KernelErrorCode) : DrilldownState :=
  { state with attachRequestId := none, streamStatus := .closed code state.lastSeq }

def saturatingPred (value : UInt16) : UInt16 :=
  if value = 0 then 0 else value - 1

def setViewport (state : DrilldownState) (row col : UInt16) : DrilldownState :=
  let (cols, rows) := state.expectedSize.getD (0, 0)
  { state with
    viewportRow := min row (saturatingPred rows)
    viewportCol := min col (saturatingPred cols) }

def clampViewport (state : DrilldownState) : DrilldownState :=
  state.setViewport state.viewportRow state.viewportCol

def countForeign (state : DrilldownState) : DrilldownState :=
  { state with diagnostics := { state.diagnostics with
    foreignReferences := saturatingAdd state.diagnostics.foreignReferences 1 } }

def countInvalidFrame (state : DrilldownState) : DrilldownState :=
  { state with diagnostics := { state.diagnostics with
    invalidFrames := saturatingAdd state.diagnostics.invalidFrames 1 } }

def countInvalidUpdate (state : DrilldownState) : DrilldownState :=
  { state with diagnostics := { state.diagnostics with
    invalidUpdates := saturatingAdd state.diagnostics.invalidUpdates 1 } }

def countStale (state : DrilldownState) : DrilldownState :=
  { state with diagnostics := { state.diagnostics with
    staleBatches := saturatingAdd state.diagnostics.staleBatches 1 } }

def countUnseeded (state : DrilldownState) (updates : Nat) : DrilldownState :=
  { state with diagnostics := { state.diagnostics with
    unseededUpdates := saturatingAdd state.diagnostics.unseededUpdates updates } }

/-- Another generation clears the mirror and both marks.  Whether it was another one. -/
def switchGeneration (state : DrilldownState) (generation : PtySessionGeneration) :
    DrilldownState × Bool :=
  if state.generation = some generation then (state, false)
  else
    ({ state with generation := some generation, cells := none, frameSeq := none, lastSeq := none },
      true)

def applyAttached (state : DrilldownState) (request : RequestId) (session : PtySessionId)
    (generation : PtySessionGeneration) (rows cols : UInt16) (cursor : Option UInt64) :
    DrilldownState × IngestDisposition :=
  if session ≠ state.sessionId ∨ state.attachRequestId.any fun expected => expected != request then
    (state.countForeign, .counted)
  else
    let state := { state with attachRequestId := some request }
    let (state, generationChanged) := state.switchGeneration generation
    let state := { state with expectedSize := some (cols, rows) }
    let state :=
      if !generationChanged && cursor.any fun cursor => state.frameSeq.all fun seq => cursor > seq
      then { state with cells := none, frameSeq := none }
      else state
    let lastSeq :=
      match generationChanged, state.lastSeq, cursor with
      | true, _, attached => attached
      | false, some current, some attached => some (max current attached)
      | false, current, attached => current.or attached
    ({ state with lastSeq, streamStatus := .live }.clampViewport, .applied)

def applySnapshot (state : DrilldownState) (session : PtySessionId)
    (generation : PtySessionGeneration) (seq : UInt64) (frame : PtyFrame) :
    DrilldownState × IngestDisposition :=
  if session ≠ state.sessionId then (state.countForeign, .counted)
  else if (frame.rows.map rowWidth).sum > MIRROR_CELL_LIMIT then
    (state.countInvalidFrame, .counted)
  else
    match frame.cells with
    | none => (state.countInvalidFrame, .counted)
    | some cells =>
      let size : UInt16 × UInt16 :=
        (.ofNat ((cells.head?.map List.length).getD 0), .ofNat cells.length)
      if state.generation.any fun current => current != generation then
        (state.countForeign, .counted)
      else if state.lastSeq.any fun last => seq < last then (state.countStale, .counted)
      else
        let state := (state.switchGeneration generation).1
        let state := { state with
          cells := some cells
          frameSeq := some seq
          lastSeq := some seq
          expectedSize := some size
          streamStatus :=
            if state.streamStatus = StreamStatus.waiting then .snapshot
            else state.streamStatus }
        (state.clampViewport, .applied)

/-- One update of a batch onto the mirror.  A cell outside the grid or a style outside the
batch's table is counted. -/
def paint (styles : List CellStyle) (made : DrilldownState × Bool) (update : PtyCellUpdate) :
    DrilldownState × Bool :=
  match made.1.cells with
  | none => made
  | some cells =>
    match cells[update.row.toNat]?, styles[update.style.toNat]? with
    | some row, some style =>
      if update.col.toNat < row.length then
        ({ made.1 with cells := some (cells.set update.row.toNat
          (row.set update.col.toNat { glyph := update.glyph, style })) }, made.2)
      else (made.1.countInvalidUpdate, false)
    | _, _ => (made.1.countInvalidUpdate, false)

/-- One delta of a batch, and whether everything so far was applied. -/
def applyDelta (made : DrilldownState × Bool) : PtyDelta → DrilldownState × Bool
  | .resized rows cols =>
    if rows.toNat * cols.toNat > MIRROR_CELL_LIMIT then (made.1.countInvalidUpdate, false)
    else
      ({ made.1 with
          cells := none
          frameSeq := none
          expectedSize := some (cols, rows) }.clampViewport, made.2)
  | .cellsChanged styles updates =>
    match made.1.cells with
    | none => (made.1.countUnseeded updates.length, made.2)
    | some _ => updates.foldl (paint styles) made

def applyBatch (state : DrilldownState) (request : RequestId) (session : PtySessionId)
    (generation : PtySessionGeneration) (deltas : List PtyDelta) (seq : UInt64) :
    DrilldownState × IngestDisposition :=
  if session ≠ state.sessionId ∨ state.attachRequestId ≠ some request ∨
      state.generation ≠ some generation then
    (state.countForeign, .counted)
  else if state.lastSeq.any fun last => seq ≤ last then (state.countStale, .counted)
  else
    let before := state.diagnostics
    let (state, appliedAll) := deltas.foldl applyDelta (state, true)
    let state :=
      if appliedAll then
        { state with
          lastSeq := some seq
          frameSeq := if state.cells.isSome then some seq else state.frameSeq }
      else { state with cells := none, frameSeq := none }
    (state, if state.diagnostics = before then .applied else .counted)

def ingest (state : DrilldownState) : ServerControl → DrilldownState × IngestDisposition
  | .attached request session generation rows cols cursor =>
    state.applyAttached request session generation rows cols cursor
  | .snapshot session generation seq frame => state.applySnapshot session generation seq frame
  | .error request code =>
    if state.attachRequestId = some request then
      ({ state with
          attachRequestId := none
          streamStatus := .closed code state.lastSeq }, .applied)
    else (state, .unrelated)
  | .deltaBatch request session generation deltas seq =>
    state.applyBatch request session generation deltas seq
  | .streamClosed request generation code lastSeq =>
    if state.attachRequestId ≠ some request ∨ state.generation ≠ some generation then
      (state.countForeign, .counted)
    else
      ({ state with
          attachRequestId := none
          streamStatus := .closed code lastSeq }, .applied)
  | .unrelated => (state, .unrelated)

end DrilldownState

open DrilldownState

/-! ## Histories and the streams of them -/

/-- What a session showed: for each generation the published revisions with their screens, and
for each the batch that leads to it from the one before. -/
structure Histories where
  screen : PtySessionGeneration → UInt64 → Option Cells
  batch : PtySessionGeneration → UInt64 → List PtyDelta
  leads : ∀ generation low high before after, screen generation low = some before →
    screen generation high = some after → low < high →
    (∀ mid, low < mid → mid < high → screen generation mid = none) →
    Pty.applyBatch before (batch generation high) = some after

/-- What a request was answered with, and the newest of its batches so far. -/
structure Served where
  generation : PtySessionGeneration
  (cursor position : UInt64)

inductive Input where
  | beginAttach (request : RequestId)
  | transportClosed
  | refuseAttach (code : KernelErrorCode)
  | setViewport (row col : UInt16)
  | control (control : ServerControl)

def DrilldownState.take (state : DrilldownState) : Input → DrilldownState
  | .beginAttach request => state.beginAttach request
  | .transportClosed => state.transportClosed
  | .refuseAttach code => state.refuseAttach code
  | .setViewport row col => state.setViewport row col
  | .control control => (state.ingest control).1

/-- The lens, and what has been delivered for each request, taken up by the lens or not. -/
structure World where
  lens : DrilldownState
  served : RequestId → Option Served

def World.start (session : PtySessionId) : World where
  lens := .new session
  served := fun _ => none

def World.serve (world : World) : Input → RequestId → Option Served
  | .control (.attached request target generation _ _ (some cursor)) =>
    if target = world.lens.sessionId ∧ world.served request = none then
      Function.update world.served request (some ⟨generation, cursor, cursor⟩)
    else world.served
  | .control (.deltaBatch request target _ _ seq) =>
    if target = world.lens.sessionId then
      Function.update world.served request ((world.served request).map fun known =>
        { known with position := max known.position seq })
    else world.served
  | _ => world.served

def World.step (world : World) (input : Input) : World where
  lens := world.lens.take input
  served := world.serve input

/-- What the wire may deliver about the lens's session.  A snapshot is a screen of the history.
An attach is answered with a cursor, and every time with the same one.  A batch belongs to the
history and to an answered request; it is past the answered cursor, and no revision lies between
the batches delivered so far for the request and this one.  Anything may arrive about other
sessions, and any error or close. -/
def Allowed (histories : Histories) (world : World) : Input → Prop
  | .control (.attached request target generation _ _ cursor) =>
    target = world.lens.sessionId → ∃ number, cursor = some number ∧
      ∀ known, world.served request = some known →
        known.generation = generation ∧ known.cursor = number
  | .control (.snapshot target generation seq frame) =>
    target = world.lens.sessionId → ∃ cells, histories.screen generation seq = some cells ∧
      frame.cells = some cells
  | .control (.deltaBatch request target generation deltas seq) =>
    target = world.lens.sessionId → ∃ known, world.served request = some known ∧
      known.generation = generation ∧ known.cursor < seq ∧
      histories.batch generation seq = deltas ∧ (histories.screen generation seq).isSome ∧
      ∀ mid, known.position < mid → mid < seq → histories.screen generation mid = none
  | _ => True

/-- A batch the lens applies to a held screen is one of a request of which no batch above
that screen was delivered before. -/
def Complete (world : World) : Input → Prop
  | .control (.deltaBatch request target generation _ seq) =>
    target = world.lens.sessionId → world.lens.attachRequestId = some request →
      world.lens.generation = some generation → world.lens.cells.isSome →
      (∀ last ∈ world.lens.lastSeq, last < seq) →
      ∀ known, world.served request = some known → ∀ held ∈ world.lens.frameSeq,
        known.position ≤ held
  | _ => True

def AllowedStep (histories : Histories) (before : World) (input : Input) (after : World) : Prop :=
  Allowed histories before input ∧ after = before.step input

def CompleteStep (histories : Histories) (before : World) (input : Input) (after : World) : Prop :=
  Allowed histories before input ∧ Complete before input ∧ after = before.step input

/-! ## The held screen -/

/-- A held screen is the history's at the lens's generation and revision, and that revision is the
last one the lens has seen. -/
def Faithful (histories : Histories) (state : DrilldownState) : Prop :=
  ∀ cells, state.cells = some cells → ∃ generation seq, state.generation = some generation ∧
    state.frameSeq = some seq ∧ state.lastSeq = some seq ∧
    histories.screen generation seq = some cells

variable {histories : Histories} {state : DrilldownState} {generation : PtySessionGeneration}
  {styles : List CellStyle} {made : DrilldownState × Bool} {deltas : List PtyDelta}

namespace Faithful

theorem of_none (none : state.cells = none) : Faithful histories state := by
  intro cells held
  rw [none] at held
  cases held

section

variable (faithful : Faithful histories state)
include faithful

theorem setViewport (row col : UInt16) : Faithful histories (state.setViewport row col) :=
  faithful

theorem applyAttached (request : RequestId)
    (session : PtySessionId) (generation : PtySessionGeneration) (rows cols : UInt16)
    (cursor : Option UInt64) :
    Faithful histories (state.applyAttached request session generation rows cols cursor).1 := by
  unfold DrilldownState.applyAttached
  split
  · exact faithful
  · refine setViewport ?_ _ _
    unfold switchGeneration
    by_cases eq : state.generation = some generation
    · dsimp only
      rw [if_pos eq]
      dsimp only
      split
      · exact of_none rfl
      · rename_i notBehind
        intro cells held
        obtain ⟨number, seq, isGeneration, isFrame, isLast, shown⟩ := faithful cells held
        refine ⟨number, seq, isGeneration, isFrame, ?_, shown⟩
        dsimp only at isFrame ⊢
        rw [isLast]
        cases cursor with
        | none => rfl
        | some cursor =>
          have reached : cursor ≤ seq := by simpa [isFrame] using notBehind
          exact congrArg some (max_eq_left reached)
    · dsimp only
      rw [if_neg eq]
      dsimp only
      split
      · exact of_none rfl
      · exact of_none rfl

theorem applySnapshot {session : PtySessionId} {seq : UInt64} {frame : PtyFrame}
    (real : session = state.sessionId → ∃ cells, histories.screen generation seq = some cells ∧
      frame.cells = some cells) :
    Faithful histories (state.applySnapshot session generation seq frame).1 := by
  unfold DrilldownState.applySnapshot
  split
  · exact faithful
  · rename_i ours
    obtain ⟨cells, shown, decoded⟩ := real (not_not.mp ours)
    split
    · exact faithful
    · rw [decoded]
      dsimp only
      split
      · exact faithful
      · split
        · exact faithful
        · refine setViewport ?_ _ _
          rintro _ ⟨⟩
          refine ⟨generation, seq, ?_, rfl, rfl, shown⟩
          unfold switchGeneration
          split
          · assumption
          · rfl

end

end Faithful

/-! ## Batches -/

namespace DrilldownState

theorem paint_of_applyUpdate {cells after : Cells} {update : PtyCellUpdate}
    (applied : applyUpdate styles cells update = some after) (held : made.1.cells = some cells) :
    (paint styles made update).1.cells = some after := by
  obtain ⟨style, row, resolved, hit, inside, rfl⟩ := applyUpdate_some.mp applied
  simp only [paint, held, hit, resolved, if_pos inside]

theorem foldl_paint {updates : List PtyCellUpdate} {cells after : Cells}
    (applied : updates.foldlM (applyUpdate styles) cells = some after)
    (held : made.1.cells = some cells) :
    (updates.foldl (paint styles) made).1.cells = some after := by
  induction updates generalizing cells made with
  | nil => exact held.trans applied
  | cons update rest ih =>
    rw [foldlM_cons] at applied
    obtain ⟨mid, first, later⟩ := bind_eq_some_iff.mp applied
    exact ih later (paint_of_applyUpdate first held)

theorem foldl_paint_frame (styles : List CellStyle) (updates : List PtyCellUpdate)
    (made : DrilldownState × Bool) :
    (updates.foldl (paint styles) made).1.generation = made.1.generation ∧
      (made.2 = false → (updates.foldl (paint styles) made).2 = false) := by
  induction updates generalizing made with
  | nil => exact ⟨rfl, id⟩
  | cons update rest ih =>
    obtain ⟨generation, failed⟩ := ih (paint styles made update)
    have one : (paint styles made update).1.generation = made.1.generation ∧
        (made.2 = false → (paint styles made update).2 = false) := by
      unfold paint
      split
      · exact ⟨rfl, id⟩
      · split
        · split
          · exact ⟨rfl, id⟩
          · exact ⟨rfl, fun _ => rfl⟩
        · exact ⟨rfl, fun _ => rfl⟩
    exact ⟨generation.trans one.1, fun already => failed (one.2 already)⟩

theorem applyDelta_frame (made : DrilldownState × Bool) (delta : PtyDelta) :
    (applyDelta made delta).1.generation = made.1.generation ∧
      (made.2 = false → (applyDelta made delta).2 = false) ∧
      (made.1.cells = none → (applyDelta made delta).1.cells = none) := by
  cases delta with
  | resized rows cols =>
    simp only [applyDelta]
    split
    · exact ⟨rfl, fun _ => rfl, id⟩
    · exact ⟨rfl, id, fun _ => rfl⟩
  | cellsChanged styles updates =>
    simp only [applyDelta]
    split
    · exact ⟨rfl, id, id⟩
    · rename_i cells held
      obtain ⟨generation, failed⟩ := foldl_paint_frame styles updates made
      refine ⟨generation, failed, fun none => ?_⟩
      rw [held] at none
      cases none

theorem foldl_applyDelta_frame (deltas : List PtyDelta) (made : DrilldownState × Bool) :
    (deltas.foldl applyDelta made).1.generation = made.1.generation ∧
      (made.2 = false → (deltas.foldl applyDelta made).2 = false) ∧
      (made.1.cells = none → (deltas.foldl applyDelta made).1.cells = none) := by
  induction deltas generalizing made with
  | nil => exact ⟨rfl, id, id⟩
  | cons delta rest ih =>
    obtain ⟨generation, failed, unseeded⟩ := ih (applyDelta made delta)
    obtain ⟨oneGeneration, oneFailed, oneUnseeded⟩ := applyDelta_frame made delta
    exact ⟨generation.trans oneGeneration, fun already => failed (oneFailed already),
      fun none => unseeded (oneUnseeded none)⟩

/-- **A batch onto the screen it leads on from.**  The mirror is given up, or it is the next
screen, or the batch counts as not applied. -/
theorem foldl_applyDelta {cells after : Cells}
    (applied : Pty.applyBatch cells deltas = some after) (made : DrilldownState × Bool)
    (held : made.1.cells = some cells) :
    (deltas.foldl applyDelta made).1.cells = none ∨
      (deltas.foldl applyDelta made).1.cells = some after ∨
      (deltas.foldl applyDelta made).2 = false := by
  unfold Pty.applyBatch at applied
  induction deltas generalizing cells made with
  | nil => exact .inr (.inl (held.trans applied))
  | cons delta rest ih =>
    rw [foldlM_cons] at applied
    obtain ⟨mid, first, later⟩ := bind_eq_some_iff.mp applied
    rw [foldl_cons]
    obtain ⟨-, failed, unseeded⟩ := foldl_applyDelta_frame rest (applyDelta made delta)
    cases delta with
    | resized rows cols =>
      by_cases large : rows.toNat * cols.toNat > MIRROR_CELL_LIMIT
      · exact .inr (.inr (failed (by simp only [applyDelta, if_pos large])))
      · refine .inl (unseeded ?_)
        simp only [applyDelta, if_neg large]
        rfl
    | cellsChanged styles updates =>
      refine ih later (applyDelta made _) ?_
      simp only [applyDelta, held]
      exact foldl_paint first held

end DrilldownState

theorem Faithful.applyBatch (faithful : Faithful histories state) {request : RequestId}
    {session : PtySessionId} {seq : UInt64}
    (leads : session = state.sessionId → state.attachRequestId = some request →
      state.generation = some generation → (∀ last ∈ state.lastSeq, last < seq) →
      ∀ cells held, state.cells = some cells → state.frameSeq = some held →
      ∃ after, histories.screen generation seq = some after ∧
      Pty.applyBatch cells deltas = some after) :
    Faithful histories (state.applyBatch request session generation deltas seq).1 := by
  unfold DrilldownState.applyBatch
  split
  · exact faithful
  · rename_i ours
    push Not at ours
    split
    · exact faithful
    · rename_i fresh
      have above : ∀ last ∈ state.lastSeq, last < seq := by
        intro last isLast
        rw [Option.mem_def.mp isLast] at fresh
        simpa using fresh
      dsimp only
      split
      · rename_i all
        intro shown held
        obtain ⟨sameGeneration, -, unseeded⟩ :=
          foldl_applyDelta_frame deltas (state, true)
        dsimp only at held
        cases before : state.cells with
        | none =>
          rw [unseeded before] at held
          cases held
        | some cells =>
          obtain ⟨number, old, isGeneration, isFrame, -, -⟩ := faithful cells before
          obtain ⟨after, screen, applied⟩ :=
            leads ours.1 ours.2.1 ours.2.2 above cells old before isFrame
          rcases foldl_applyDelta applied (state, true) before with none | next | failed
          · rw [none] at held
            cases held
          · rw [next] at held
            cases held
            refine ⟨generation, seq, sameGeneration.trans ours.2.2, ?_, rfl, screen⟩
            simp only [next, isSome_some, if_true]
          · rw [failed] at all
            cases all
      · exact of_none rfl

/-! ## Runs -/

/-- **One input.** -/
theorem Faithful.step {before after : World} {input : Input}
    (faithful : Faithful histories before.lens)
    (stepped : CompleteStep histories before input after) :
    Faithful histories after.lens := by
  obtain ⟨allowed, complete, rfl⟩ := stepped
  cases input with
  | beginAttach | transportClosed | refuseAttach => exact faithful
  | setViewport row col => exact faithful.setViewport row col
  | control control =>
    cases control with
    | attached request target generation rows cols cursor =>
      exact faithful.applyAttached request target generation rows cols cursor
    | snapshot target generation seq frame => exact faithful.applySnapshot allowed
    | error | streamClosed =>
      simp only [World.step, DrilldownState.take, DrilldownState.ingest]
      split
      · exact faithful
      · exact faithful
    | unrelated => exact faithful
    | deltaBatch request target generation deltas seq =>
      refine faithful.applyBatch ?_
      intro ours attached isGeneration above cells held isCells isFrame
      obtain ⟨known, isKnown, -, -, rfl, published, nothingBetween⟩ := allowed ours
      obtain ⟨after, screen⟩ := isSome_iff_exists.mp published
      have caughtUp : known.position ≤ held :=
        complete ours attached isGeneration (by rw [isCells]; rfl) above known isKnown held isFrame
      obtain ⟨number, seen, sameGeneration, sameFrame, isLast, shown⟩ := faithful cells isCells
      rw [isGeneration] at sameGeneration
      rw [isFrame] at sameFrame
      cases sameGeneration
      cases sameFrame
      refine ⟨after, screen, histories.leads generation held seq cells after shown screen
        (above held isLast) fun mid low high => ?_⟩
      exact nothingBetween mid (lt_of_le_of_lt caughtUp low) high

/-- **The mirror shows real screens.**  In a run in which every batch applied to a held screen is
complete, held cells are the history's at the lens's generation and revision. -/
theorem mirror_shows_history (histories : Histories) (session : PtySessionId)
    {inputs : List Input} {world : World}
    (run : Run (CompleteStep histories) (World.start session) inputs world) {cells : Cells}
    (held : world.lens.cells = some cells) :
    ∃ generation seq, world.lens.generation = some generation ∧
      world.lens.frameSeq = some seq ∧ histories.screen generation seq = some cells := by
  have faithful : Faithful histories world.lens := by
    refine run.invariant_induction (fun world => Faithful histories world.lens) (.of_none rfl) ?_
    intro input _ before after faithful stepped
    exact faithful.step stepped
  obtain ⟨generation, seq, isGeneration, isFrame, -, shown⟩ := faithful cells held
  exact ⟨generation, seq, isGeneration, isFrame, shown⟩

/-! ## A request taken up again -/

def cell (glyph : String) : StyledCell where
  glyph := glyph
  style := blank.style

/-- Two cells, of which first the left and then the right one changes. -/
def page : Nat → Option Cells
  | 1 => some [[cell "x", cell "x"]]
  | 2 => some [[cell "y", cell "x"]]
  | 3 => some [[cell "y", cell "y"]]
  | _ => none

def change (col : UInt16) : List PtyDelta :=
  [.cellsChanged [blank.style] [{ row := 0, col, glyph := "y", style := 0 }]]

theorem page_eq_some {seq : UInt64} {cells : Cells} (hit : page seq.toNat = some cells) :
    seq = 1 ∨ seq = 2 ∨ seq = 3 := by
  simp only [← UInt64.toNat_inj]
  unfold page at hit
  split at hit
  · exact .inl ‹_›
  · exact .inr (.inl ‹_›)
  · exact .inr (.inr ‹_›)
  · cases hit

def book : Histories where
  screen _ seq := page seq.toNat
  batch _ seq := change (if seq = 2 then 0 else 1)
  leads := by
    intro _ low high before after isLow isHigh ordered between
    rcases page_eq_some isLow with rfl | rfl | rfl
    · rcases page_eq_some isHigh with rfl | rfl | rfl
      · exact absurd ordered (by decide)
      · cases isLow
        exact isHigh ▸ rfl
      · -- the second page lies between
        exact absurd (between 2 (by decide) (by decide)) (by decide)
    · rcases page_eq_some isHigh with rfl | rfl | rfl
      · exact absurd ordered (by decide)
      · exact absurd ordered (by decide)
      · cases isLow
        exact isHigh ▸ rfl
    · rcases page_eq_some isHigh with rfl | rfl | rfl
      · exact absurd ordered (by decide)
      · exact absurd ordered (by decide)
      · exact absurd ordered (by decide)

def firstPage : PtyFrame where
  styles := [blank.style]
  rows := [[.cells 0 ["x", "x"]]]
  cursor := none

def opening : List Input :=
  [.beginAttach "a", .control (.attached "a" "s" "g" 1 2 (some 1)),
    .control (.snapshot "s" "g" 1 firstPage)]

/-- A second attach is begun, so that the first one's next batch is dropped; the second attach is
refused, and the first one's answer arrives once more. -/
def detour : List Input :=
  [.beginAttach "b", .control (.deltaBatch "a" "s" "g" (change 0) 2),
    .control (.error "b" .overloaded), .control (.attached "a" "s" "g" 1 2 (some 1))]

theorem nothing_between {low high : UInt64} (next : high.toNat = low.toNat + 1) :
    ∀ mid, low < mid → mid < high → page mid.toNat = none := by
  intro mid above below
  rw [UInt64.lt_iff_toNat_lt] at above below
  omega

def after (inputs : List Input) : World :=
  inputs.foldl World.step (World.start "s")

theorem allowed_answer : Allowed book (after [.beginAttach "a"])
    (.control (.attached "a" "s" "g" 1 2 (some 1))) :=
  fun _ => ⟨1, rfl, fun known hit => nomatch (hit : none = some known)⟩

theorem allowed_firstPage :
    Allowed book (after [.beginAttach "a", .control (.attached "a" "s" "g" 1 2 (some 1))])
      (.control (.snapshot "s" "g" 1 firstPage)) :=
  fun _ => ⟨_, rfl, by decide⟩

theorem run_opening : Run (CompleteStep book) (World.start "s") opening (after opening) :=
  .cons ⟨trivial, trivial, rfl⟩ (.cons ⟨allowed_answer, trivial, rfl⟩
    (.cons ⟨allowed_firstPage, trivial, rfl⟩ (.nil _)))

theorem mirror_shows_history_second : Run (CompleteStep book) (World.start "s")
        (opening ++ [.control (.deltaBatch "a" "s" "g" (change 0) 2)])
        (after (opening ++ [.control (.deltaBatch "a" "s" "g" (change 0) 2)])) ∧
      (after (opening ++ [.control (.deltaBatch "a" "s" "g" (change 0) 2)])).lens.frameSeq =
        some 2 ∧
      book.screen "g" 2 = some [[cell "y", cell "x"]] := by
  have allowed : Allowed book (after opening) (.control (.deltaBatch "a" "s" "g" (change 0) 2)) :=
    fun _ => ⟨⟨"g", 1, 1⟩, rfl, rfl, by decide, rfl, rfl, nothing_between rfl⟩
  have complete : Complete (after opening) (.control (.deltaBatch "a" "s" "g" (change 0) 2)) := by
    intro _ _ _ _ _ known hit held isFrame
    cases (hit : some ⟨"g", 1, 1⟩ = some known)
    cases (isFrame : some 1 = some held)
    exact le_refl 1
  have run := run_opening.append (.cons ⟨allowed, complete, rfl⟩ (.nil _))
  obtain ⟨generation, seq, isGeneration, isFrame, shown⟩ := mirror_shows_history book "s" run
    (rfl : _ = some [[cell "y", cell "x"]])
  cases (isGeneration : some "g" = some generation)
  cases (isFrame : some 2 = some seq)
  exact ⟨run, rfl, shown⟩

/-- **The gap.**  Every control is allowed.  When the first request's answer arrives again, the
lens has no attach outstanding and takes it up; it still holds the first page, and the next batch
of that request turns it into a screen that never was. -/
theorem taken_up_again : Run (AllowedStep book) (World.start "s")
        (opening ++ detour ++ [.control (.deltaBatch "a" "s" "g" (change 1) 3)])
        (after (opening ++ detour ++ [.control (.deltaBatch "a" "s" "g" (change 1) 3)])) ∧
      (after (opening ++ detour ++
        [.control (.deltaBatch "a" "s" "g" (change 1) 3)])).lens.generation =
        some "g" ∧
      (after (opening ++ detour ++
        [.control (.deltaBatch "a" "s" "g" (change 1) 3)])).lens.frameSeq =
        some 3 ∧
      (after (opening ++ detour ++ [.control (.deltaBatch "a" "s" "g" (change 1) 3)])).lens.cells =
        some [[cell "x", cell "y"]] ∧
      book.screen "g" 3 = some [[cell "y", cell "y"]] := by
  have dropped : Allowed book (after (opening ++ [.beginAttach "b"]))
      (.control (.deltaBatch "a" "s" "g" (change 0) 2)) :=
    fun _ => ⟨⟨"g", 1, 1⟩, rfl, rfl, by decide, rfl, rfl, nothing_between rfl⟩
  have repeated : Allowed book (after (opening ++ detour.take 3))
      (.control (.attached "a" "s" "g" 1 2 (some 1))) := by
    refine fun _ => ⟨1, rfl, fun known hit => ?_⟩
    cases (hit : some ⟨"g", 1, 2⟩ = some known)
    exact ⟨rfl, rfl⟩
  have applied : Allowed book (after (opening ++ detour))
      (.control (.deltaBatch "a" "s" "g" (change 1) 3)) :=
    fun _ => ⟨⟨"g", 1, 2⟩, rfl, rfl, by decide, rfl, rfl, nothing_between rfl⟩
  refine ⟨?_, rfl, rfl, rfl, rfl⟩
  have opened : Run (AllowedStep book) (World.start "s") opening (after opening) :=
    run_opening.mono fun _ _ _ stepped => ⟨stepped.1, stepped.2.2⟩
  have detoured : Run (AllowedStep book) (after opening) detour (after (opening ++ detour)) :=
    .cons ⟨trivial, rfl⟩ (.cons ⟨dropped, rfl⟩ (.cons ⟨trivial, rfl⟩
      (.cons ⟨repeated, rfl⟩ (.nil _))))
  exact (opened.append detoured).append (.cons ⟨applied, rfl⟩ (.nil _))

end Gridwork.Tui.Drilldown
