import Gridwork.Engine.Recording
import Gridwork.PtyHost.Wire

/-!
# The host's session task

One task owns a session's child, the recording of its stream, the renderer and the wire mirror.
It wakes for a chunk of child output or for a command, and either goes on or ends.

`State` is what the task keeps between two wakes.  The two broadcast channels are in it as
everything that was sent on them, oldest first.  What the outside answers within one wake (the
frame the renderer reads off the grid, the PTY's answer to a resize, the child's exit status, the
respawn) comes with the `Wake`.
-/

namespace Gridwork.PtyHost.SessionTask

open Domain Lib Pty Engine

/-! ## What the task sends and answers -/

/-- One broadcast batch: the deltas that move a consumer from before `seq` to `seq`. -/
structure DeltaBatch where
  seq : UInt64
  deltas : List PtyDelta
  deriving DecidableEq

structure RawBatch where
  seq : UInt64
  event : Event

/-- A VT seed for a raw consumer starting from no state. -/
structure RawSnapshot where
  seq : Option UInt64
  (cols rows : UInt16)
  bytes : List UInt8

structure Snapshot where
  seq : Option UInt64
  frame : PtyFrame
  deriving DecidableEq

inductive CatchUp where
  | replayed (batches : List DeltaBatch)
  | snapshotted (snapshot : Snapshot)
  deriving DecidableEq

/-- The answer to an attach, its two subscriptions apart. -/
structure Attached where
  (cols rows : UInt16)
  cursor : Option UInt64
  catchUp : CatchUp
  rawSnapshot : Option RawSnapshot

inductive RestartPolicy where
  | never
  | onFailure (max : UInt32)

structure SessionConfig where
  (cols rows : UInt16)
  (recordingCap retainedBatches : Nat)
  restart : RestartPolicy

structure ExitStatus where
  success : Bool

inductive SessionExit where
  | exited (status : ExitStatus)
  | stopped
  | failed (message : String)
  /-- The recording's counter overflowed. -/
  | panicked

inductive Reply where
  | done (result : Except String Unit)
  | snapshot (snapshot : Snapshot)
  | attached (attached : Attached)

/-! ## Wakes -/

/-- The PTY's answer to a resize: it holds the size now, or it refuses and, asked again, tells
the size it still holds. -/
inductive PtyAnswer where
  | holds
  | refuses (error : String) (held : Option (UInt16 × UInt16))

inductive Wake where
  /-- The child wrote at least one byte; the renderer's frame of the grid after it. -/
  | chunk (now : UInt64) (first : UInt8) (rest : List UInt8) (frame : Option Frame)
  /-- The child hung up: its reaped status, and the answers a restart gets. -/
  | hungUp (now : UInt64) (status : Except String ExitStatus) (respawned : Except String Unit)
      (renderer : Bool)
  | readFailed (error : String)
  | closed
  | stop (killed : Except String Unit)
  | input (sent : Except String Unit)
  | resize (now : UInt64) (cols rows : UInt16) (answer : PtyAnswer) (frame : Option Frame)
  | snapshot
  | attach (cursor : Option UInt64)

/-! ## The task -/

structure State (Grid : Type) where
  /-- The live child's grid. -/
  grid : Grid
  recording : Recording
  screen : WireScreen
  retained : List DeltaBatch
  (evictedThrough lastSeq : Option UInt64)
  restartsLeft : UInt32
  deltasTx : List DeltaBatch
  rawTx : List RawBatch

open State

def hasContent (deltas : List PtyDelta) : Bool :=
  deltas.any fun
    | .cellsChanged _ updates => !updates.isEmpty
    | .resized _ _ => true

/-- Drop retained batches past the cap, remembering the last one dropped. -/
def evict (cap : Nat) : List DeltaBatch → Option UInt64 → List DeltaBatch × Option UInt64
  | [], evictedThrough => ([], evictedThrough)
  | dropped :: rest, evictedThrough =>
    if rest.length + 1 > cap then evict cap rest (some dropped.seq)
    else (dropped :: rest, evictedThrough)

def catchUp (cursor lastSeq evictedThrough : Option UInt64) (retained : List DeltaBatch)
    (screen : WireScreen) : CatchUp :=
  let snapshot := CatchUp.snapshotted { seq := lastSeq, frame := screen.snapshot }
  match cursor with
  | none => snapshot
  | some cursor =>
    if lastSeq.all fun last => cursor > last then snapshot
    else if evictedThrough.any fun evicted => cursor < evicted then snapshot
    else .replayed (retained.filter fun batch => batch.seq > cursor)

section Task

variable {Grid : Type} (terminal : Terminal Grid) (config : SessionConfig)
  {before after : State Grid} {now seq : UInt64} {event : Event} {regardless renderer : Bool}
  {grid resized : Grid} {cols rows : UInt16} {wake : Wake}

/-- Resize the grid and the PTY.  A PTY failure rolls the grid back to the size the PTY tells,
as far as that works. -/
def resizeSession (grid : Grid) (cols rows : UInt16) (answer : PtyAnswer) :
    Except String Unit × Grid :=
  match terminal.resize grid cols rows with
  | none => (.error s!"a terminal cannot be {cols}x{rows}", grid)
  | some resized =>
    match answer with
    | .holds => (.ok (), resized)
    | .refuses error held =>
      (.error s!"could not put a child on a pty: {error}",
        (held.bind fun (cols, rows) => terminal.resize resized cols rows).getD resized)

namespace State

variable (state : State Grid)

def start (grid : Grid) : State Grid where
  grid := grid
  recording := .new config.recordingCap
  screen := .new config.cols config.rows
  retained := []
  evictedThrough := none
  lastSeq := none
  restartsLeft := match config.restart with
    | .never => 0
    | .onFailure max => max
  deltasTx := []
  rawTx := []

/-- Record an event, send it to the raw consumers and make it the latest revision. -/
def note (now : UInt64) (event : Event) : Option (UInt64 × State Grid) :=
  (state.recording.record now event).map fun (seq, recording) =>
    (seq, { state with
      recording
      rawTx := state.rawTx ++ [{ seq, event }]
      lastSeq := some seq })

/-- Broadcast one batch and retain it for reattach, evicting past the cap. -/
def publish (batch : DeltaBatch) : State Grid :=
  let (retained, evictedThrough) :=
    evict config.retainedBatches (state.retained ++ [batch]) state.evictedThrough
  { state with retained, evictedThrough, deltasTx := state.deltasTx ++ [batch] }

def attach (cursor : Option UInt64) : Attached :=
  let (cols, rows) := state.screen.size
  { cols, rows
    cursor := state.lastSeq
    catchUp := catchUp cursor state.lastSeq state.evictedThrough state.retained state.screen
    rawSnapshot := (terminal.snapshotVt state.grid).map fun bytes =>
      { seq := state.lastSeq, cols, rows, bytes } }

/-- A new child starts on a blank grid of the mirror's size.  Consumers are told with a resize
to the same size, and that is what is recorded. -/
def restart (now : UInt64) (grid : Grid) : Except SessionExit (State Grid) :=
  let (cols, rows) := state.screen.size
  match note { state with grid } now (.resize cols rows) with
  | none => .error .panicked
  | some (seq, state) =>
    .ok (publish config { state with screen := .new cols rows }
      { seq, deltas := [.resized rows cols] })

def hangUp (now : UInt64) (status : Except String ExitStatus) (respawned : Except String Unit)
    (renderer : Bool) : Except SessionExit (State Grid) :=
  match status with
  | .error error => .error (.failed s!"reaping the child: {error}")
  | .ok status =>
    if ¬ (status.success = false ∧ state.restartsLeft > 0) then .error (.exited status)
    else
      let state := { state with restartsLeft := state.restartsLeft - 1 }
      let (cols, rows) := state.screen.size
      match config.restart, terminal.new cols rows, respawned with
      | .never, _, _ => .error (.exited status)
      | .onFailure _, none, _ => .error (.failed s!"respawn: a terminal cannot be {cols}x{rows}")
      | .onFailure _, some _, .error error => .error (.failed s!"respawn: {error}")
      | .onFailure _, some grid, .ok () =>
        if renderer then state.restart config now grid
        else .error (.failed "could not allocate a render state for the restarted child")

/-- Note an event, mirror the frame read after it and publish the batch, if it has content or
is sent regardless. -/
def render (now : UInt64) (event : Event) (frame : Option Frame) (regardless : Bool)
    (unreadable : String) : Except SessionExit (State Grid) :=
  match state.note now event with
  | none => .error .panicked
  | some (seq, state) =>
    match frame with
    | none => .error (.failed unreadable)
    | some frame =>
      let (deltas, screen) := state.screen.apply frame
      let state := { state with screen }
      if regardless || hasContent deltas then .ok (state.publish config { seq, deltas })
      else .ok state

/-- One wake: the task after it or why it ended, and the reply to a command. -/
def step : Wake → Except SessionExit (State Grid) × Option Reply
  | .chunk now first rest frame =>
    ({ state with grid := terminal.write state.grid (first :: rest) }.render config now
      (.output (first :: rest)) frame false "the renderer could not read the grid", none)
  | .hungUp now status respawned renderer =>
    (state.hangUp terminal config now status respawned renderer, none)
  | .readFailed error => (.error (.failed s!"reading the pty: {error}"), none)
  | .closed => (.error .stopped, none)
  | .stop killed => (.error .stopped, some (.done killed))
  | .input sent => (.ok state, some (.done sent))
  | .resize now cols rows answer frame =>
    let (result, grid) := resizeSession terminal state.grid cols rows answer
    let state := { state with grid }
    match result with
    | .error _ => (.ok state, some (.done result))
    | .ok () =>
      match state.render config now (.resize cols rows) frame true
          "the renderer could not read the resized grid" with
      | .error exit => (.error exit, none)
      | .ok state => (.ok state, some (.done result))
  | .snapshot =>
    (.ok state, some (.snapshot { seq := state.lastSeq, frame := state.screen.snapshot }))
  | .attach cursor => (.ok state, some (.attached (state.attach terminal cursor)))

end State

def Continues (before : State Grid) (wake : Wake) (after : State Grid) : Prop :=
  (before.step terminal config wake).1 = .ok after

/-! ## What one wake does -/

/-- An event was recorded: it has the next number and is the latest revision; and either a batch
under that number leads from the old mirror to the new one, or the mirror's cells are the same
and nothing was sent. -/
structure Moved (before : State Grid) (grid : Grid) (now : UInt64) (event : Event)
    (after : State Grid) : Prop where
  grid : after.grid = grid
  recorded : before.recording.record now event =
    some (before.recording.nextSeq, after.recording)
  lastSeq : after.lastSeq = some before.recording.nextSeq
  rectangular : Rectangular after.screen.cells
  stream :
    (∃ deltas, applyBatch before.screen.cells deltas = some after.screen.cells ∧
      after.deltasTx = before.deltasTx ++ [⟨before.recording.nextSeq, deltas⟩] ∧
      (after.retained, after.evictedThrough) =
        evict config.retainedBatches (before.retained ++ [⟨before.recording.nextSeq, deltas⟩])
          before.evictedThrough) ∨
    (after.screen.cells = before.screen.cells ∧ after.deltasTx = before.deltasTx ∧
      after.retained = before.retained ∧ after.evictedThrough = before.evictedThrough)

/-- The wakes that keep the task going, and what each does to the grid. -/
inductive Turn (before : State Grid) : Wake → State Grid → Prop where
  | input (sent : Except String Unit) : Turn before (.input sent) before
  | snapshot : Turn before .snapshot before
  | attach (cursor : Option UInt64) : Turn before (.attach cursor) before
  | refused {now : UInt64} {cols rows : UInt16} {answer : PtyAnswer} {frame : Option Frame}
      {message : String}
      (refused : (resizeSession terminal before.grid cols rows answer).1 = .error message) :
      Turn before (.resize now cols rows answer frame)
        { before with grid := (resizeSession terminal before.grid cols rows answer).2 }
  | wrote {now : UInt64} {first : UInt8} {rest : List UInt8} {frame : Option Frame}
      {after : State Grid}
      (moved : Moved config before (terminal.write before.grid (first :: rest)) now
        (.output (first :: rest)) after) :
      Turn before (.chunk now first rest frame) after
  | resized {now : UInt64} {cols rows : UInt16} {answer : PtyAnswer} {frame : Option Frame}
      {grid : Grid} {after : State Grid} (holds : answer = .holds)
      (resized : terminal.resize before.grid cols rows = some grid)
      (moved : Moved config before grid now (.resize cols rows) after) :
      Turn before (.resize now cols rows answer frame) after
  | restarted {now : UInt64} {status : Except String ExitStatus}
      {respawned : Except String Unit} {renderer : Bool} {cols rows : UInt16} {grid : Grid}
      {after : State Grid} (size : before.screen.size = (cols, rows))
      (fresh : terminal.new cols rows = some grid)
      (moved : Moved config before grid now (.resize cols rows) after) :
      Turn before (.hungUp now status respawned renderer) after

variable {terminal config}

namespace State

theorem note_eq_some (noted : before.note now event = some (seq, after)) :
    before.recording.record now event = some (before.recording.nextSeq, after.recording) ∧
      seq = before.recording.nextSeq ∧ after.lastSeq = some seq ∧ after.grid = before.grid ∧
      after.screen = before.screen ∧ after.deltasTx = before.deltasTx ∧
      after.retained = before.retained ∧ after.evictedThrough = before.evictedThrough := by
  obtain ⟨⟨number, recording⟩, recorded, made⟩ := Option.map_eq_some_iff.mp noted
  cases made
  obtain ⟨rfl, -⟩ := Recording.record_some.mp recorded
  exact ⟨recorded, rfl, rfl, rfl, rfl, rfl, rfl, rfl⟩

end State

theorem applyBatch_of_contentless {deltas : List PtyDelta} (contentless : hasContent deltas = false)
    (cells : Cells) : applyBatch cells deltas = some cells := by
  unfold applyBatch
  induction deltas with
  | nil => rfl
  | cons delta rest ih =>
    rw [hasContent, List.any_cons, Bool.or_eq_false_iff] at contentless
    cases delta with
    | resized => cases contentless.1
    | cellsChanged styles updates =>
      have none : updates = [] := by simpa using contentless.1
      rw [List.foldlM_cons, none]
      exact ih contentless.2

theorem moved_of_render {frame : Option Frame} {unreadable : String}
    (rendered : before.render config now event frame regardless unreadable = .ok after)
    (rectangular : Rectangular before.screen.cells) :
    Moved config before before.grid now event after := by
  unfold render at rendered
  cases noted : before.note now event with
  | none =>
    rw [noted] at rendered
    cases rendered
  | some answer =>
    obtain ⟨seq, mid⟩ := answer
    obtain ⟨recorded, rfl, lastSeq, grid, screen, sent, retained, evicted⟩ :=
      note_eq_some noted
    rw [noted] at rendered
    cases frame with
    | none => cases rendered
    | some frame =>
      have leads := WireScreen.applyBatch_apply rectangular frame
      have shape := WireScreen.rectangular_apply rectangular frame
      dsimp only at rendered
      rw [screen] at rendered
      split at rendered
      · cases rendered
        refine ⟨grid, recorded, lastSeq, shape, .inl ⟨_, leads, ?_, ?_⟩⟩
        · rw [publish, sent]
        · rw [publish, retained, evicted]
      · rename_i quiet
        cases rendered
        have contentless : hasContent (before.screen.apply frame).1 = false := by
          simpa using (not_or.mp (mt (Bool.or_eq_true _ _).mpr quiet)).2
        rw [applyBatch_of_contentless contentless] at leads
        exact ⟨grid, recorded, lastSeq, shape,
          .inr ⟨(Option.some.inj leads).symm, sent, retained, evicted⟩⟩

theorem moved_of_restart (size : before.screen.size = (cols, rows))
    (restarted : before.restart config now grid = .ok after) :
    Moved config before grid now (.resize cols rows) after := by
  unfold restart at restarted
  rw [size] at restarted
  dsimp only at restarted
  cases noted : note { before with grid } now (.resize cols rows) with
  | none =>
    rw [noted] at restarted
    cases restarted
  | some answer =>
    obtain ⟨seq, mid⟩ := answer
    obtain ⟨recorded, rfl, lastSeq, sameGrid, screen, sent, retained, evicted⟩ :=
      note_eq_some noted
    rw [noted] at restarted
    cases restarted
    refine ⟨sameGrid, recorded, lastSeq, ⟨rows, cols, Rect.replicate _ _ blank⟩,
      .inl ⟨[.resized rows cols], rfl, ?_, ?_⟩⟩
    · rw [publish, sent]
    · rw [publish, retained, evicted]

theorem turn_of_hangUp {status : Except String ExitStatus} {respawned : Except String Unit}
    (went : before.hangUp terminal config now status respawned renderer = .ok after) :
    Turn terminal config before (.hungUp now status respawned renderer) after := by
  unfold hangUp at went
  split at went
  · cases went
  · split at went
    · cases went
    · dsimp only at went
      split at went
      · cases went
      · cases went
      · cases went
      · rename_i fresh
        split at went
        · have moved := moved_of_restart rfl went
          exact .restarted rfl fresh
            ⟨moved.grid, moved.recorded, moved.lastSeq, moved.rectangular, moved.stream⟩
        · cases went

theorem resizeSession_eq_ok {answer : PtyAnswer}
    (accepted : resizeSession terminal grid cols rows answer = (.ok (), resized)) :
    answer = .holds ∧ terminal.resize grid cols rows = some resized := by
  unfold resizeSession at accepted
  split at accepted
  · cases accepted
  · rename_i changed
    split at accepted
    · cases accepted
      exact ⟨rfl, changed⟩
    · cases accepted

/-- **Inversion.**  A wake that keeps the task going is one of these turns. -/
theorem turn_of_continues (rectangular : Rectangular before.screen.cells)
    (continues : Continues terminal config before wake after) :
    Turn terminal config before wake after := by
  unfold Continues at continues
  cases wake with
  | chunk now first rest frame =>
    have rendered : render config { before with
      grid := terminal.write before.grid (first :: rest) } now (.output (first :: rest)) frame
        false "the renderer could not read the grid" = .ok after := continues
    have moved := moved_of_render rendered rectangular
    exact .wrote ⟨moved.grid, moved.recorded, moved.lastSeq, moved.rectangular, moved.stream⟩
  | hungUp now status respawned renderer => exact turn_of_hangUp continues
  | readFailed | closed | stop => cases continues
  | input sent =>
    cases continues
    exact .input sent
  | snapshot =>
    cases continues
    exact .snapshot
  | attach cursor =>
    cases continues
    exact .attach cursor
  | resize now cols rows answer frame =>
    unfold step at continues
    cases outcome : resizeSession terminal before.grid cols rows answer with
    | mk result grid =>
      dsimp only at continues
      rw [outcome] at continues
      cases result with
      | error message =>
        cases continues
        have refused : Turn terminal config before (.resize now cols rows answer frame)
            { before with grid := (resizeSession terminal before.grid cols rows answer).2 } :=
          .refused (congrArg Prod.fst outcome)
        rwa [outcome] at refused
      | ok done =>
        obtain ⟨holds, resized⟩ := resizeSession_eq_ok outcome
        dsimp only at continues
        split at continues
        · cases continues
        · rename_i rendered
          cases continues
          have moved := moved_of_render rendered rectangular
          exact .resized holds resized
            ⟨moved.grid, moved.recorded, moved.lastSeq, moved.rectangular, moved.stream⟩

theorem Turn.moves (turn : Turn terminal config before wake after) :
    (∃ grid, after = { before with grid }) ∨
      ∃ grid now event, Moved config before grid now event after := by
  cases turn with
  | input | snapshot | attach => exact .inl ⟨before.grid, rfl⟩
  | refused => exact .inl ⟨_, rfl⟩
  | wrote moved | resized _ _ moved | restarted _ _ moved => exact .inr ⟨_, _, _, moved⟩

end Task

/-! ## A small session -/

/-- A terminal that keeps its size and every byte it was given. -/
def paper : Terminal ((UInt16 × UInt16) × List UInt8) where
  new cols rows := if cols = 0 ∨ rows = 0 then none else some ((cols, rows), [])
  write grid bytes := (grid.1, grid.2 ++ bytes)
  resize grid cols rows :=
    if cols = grid.1.1 ∧ rows = grid.1.2 then some grid
    else if cols = 0 ∨ rows = 0 then none else some ((cols, rows), grid.2)
  snapshotVt grid := some grid.2

def oneCell : SessionConfig where
  cols := 1
  rows := 1
  recordingCap := 8
  retainedBatches := 2
  restart := .onFailure 1

def still (cols rows : UInt16) : Frame where
  cols := cols
  rows := rows
  cursor := none
  changed := []
  ascending := .nil

def written : State ((UInt16 × UInt16) × List UInt8) where
  grid := ((1, 1), [120])
  recording := ⟨[⟨0, 0, .output [120]⟩], 1, 8⟩
  screen := .new 1 1
  retained := []
  evictedThrough := none
  lastSeq := some 0
  restartsLeft := 1
  deltasTx := []
  rawTx := [⟨0, .output [120]⟩]

def respawned : State ((UInt16 × UInt16) × List UInt8) where
  grid := ((1, 1), [])
  recording := ⟨[⟨0, 0, .output [120]⟩, ⟨1, 5, .resize 1 1⟩], 2, 8⟩
  screen := .new 1 1
  retained := [⟨1, [.resized 1 1]⟩]
  evictedThrough := none
  lastSeq := some 1
  restartsLeft := 0
  deltasTx := [⟨1, [.resized 1 1]⟩]
  rawTx := [⟨0, .output [120]⟩, ⟨1, .resize 1 1⟩]

theorem continues_written : Continues paper oneCell (start oneCell ((1, 1), []))
    (.chunk 0 120 [] (some (still 1 1))) written :=
  rfl

theorem continues_respawned : Continues paper oneCell written
    (.hungUp 5 (.ok { success := false }) (.ok ()) true) respawned :=
  rfl

end Gridwork.PtyHost.SessionTask
