import Gridwork.Domain.Envelope
import Gridwork.Domain.Protocol
import Gridwork.Lib.Checks
import Gridwork.Lib.Counter
import Gridwork.Lib.Table
import Gridwork.Pty.Frame

/-!
# The PTY hub

The kernel's registry of hosted terminal sessions.  One host connection publishes
screens and delta batches into a session; consumers attach to it.  The hub is an in-memory
map under one lock, so a verb is a function from the hub before it to an answer and the hub after
it.  Every verb checks first and changes the hub after its last check, and `answer`
writes that shape once: a refusal leaves the hub as it was.

A broadcast channel is the list of everything sent on it, oldest first.  A subscription
is a position in that list: the receiver gets what is sent after it.

Arithmetic on the retained byte counters is that of natural numbers.  They are sums of
publishes each within a byte budget and stay far below a machine word.
-/

namespace Gridwork.Pty

open Domain Lib

/-! ## Bounds -/

def RETAINED_BATCHES : Nat := 256

def RETAINED_BYTES : Nat := 8 * 1024 * 1024

def PUBLISH_BYTE_BUDGET : Nat := FRAME_BODY_MAX_BYTES / 2

def MAX_GLYPH_BYTES : Nat := 64

/-- Raw events retained after the raw snapshot, and their bytes. -/
def RAW_RETAINED_EVENTS : Nat := 1024

def RAW_RETAINED_BYTES : Nat := 8 * 1024 * 1024

def MAX_SESSIONS : Nat := PTY_SESSION_MAX_COUNT

/-! ## State -/

abbrev ConnectionId := UInt64
abbrev PtySessionId := String
abbrev PtySessionGeneration := String
abbrev WriterEpoch := UInt64

/-- One broadcast batch: the deltas that move a consumer to revision `seq`. -/
structure PtyBatch where
  seq : UInt64
  deltas : List PtyDelta
  deriving DecidableEq

inductive PtyRawDelivery where
  | snapshot (seq : Option UInt64) (rows cols : UInt16) (bytes : List UInt8)
  | output (seq : UInt64) (bytes : List UInt8)
  | resized (seq : UInt64) (rows cols : UInt16)

def PtyRawDelivery.seq : PtyRawDelivery → Option UInt64
  | .snapshot seq _ _ _ => seq
  | .output seq _ => some seq
  | .resized seq _ _ => some seq

def PtyRawDelivery.retainedBytes : PtyRawDelivery → Nat
  | .snapshot _ _ _ bytes => bytes.length
  | .output _ bytes => bytes.length
  | .resized _ _ _ => 0

structure PtyRefusal where
  code : KernelErrorCode
  message : String
  detail : Option Json := none
  indeterminate : Bool := false
  deriving DecidableEq

structure Session where
  owner : ConnectionId
  generation : PtySessionGeneration
  /-- Head revision; absent until the first sequenced publish. -/
  seq : Option UInt64
  cells : List (List StyledCell)
  cursor : Option PtyCursor
  /-- The retained batches with their serialized sizes, oldest first. -/
  retained : List (PtyBatch × Nat)
  retainedBytes : Nat
  /-- The highest revision evicted from `retained`. -/
  evictedThrough : Option UInt64
  live : List PtyBatch
  rawSnapshot : Option PtyRawDelivery
  rawSeq : Option UInt64
  rawRetained : List PtyRawDelivery
  rawRetainedBytes : Nat
  rawLive : List PtyRawDelivery

/-- What a connection's reverse control queue was negotiated for. -/
structure ControlRoute where
  (inputEnabled controlEnabled startEnabled : Bool)

/-- A control sent to a host and not yet acknowledged. -/
structure PendingDelivery where
  owner : ConnectionId
  claimToken : String

/-- The reverse routes, from a connection back to its host. -/
structure ControlRegistry where
  routes : Table ConnectionId ControlRoute
  startManagers : List ConnectionId
  pending : Table EventId PendingDelivery

structure PtyHub where
  sessions : Table PtySessionId Session
  controls : ControlRegistry
  startChanges : UInt64
  writerEpoch : WriterEpoch
  generations : UInt64

def PtyHub.new (writerEpoch : WriterEpoch) : PtyHub where
  sessions := ∅
  controls := { routes := ∅, startManagers := [], pending := ∅ }
  startChanges := 0
  writerEpoch := writerEpoch
  generations := 0

/-! ## Refusals -/

variable (id : PtySessionId)

def unknownSession : PtyRefusal where
  code := .notFound
  message := s!"no pty session {id}"

def backwards (seq head : UInt64) : PtyRefusal where
  code := .staleVersion
  message := s!"pty session {id} is at revision {head}; {seq} does not advance it"
  detail := some (.object [("head", .string (toString head))])

def rawStale (message : String) (head : Option UInt64) : PtyRefusal where
  code := .staleVersion
  message := message
  detail := some (.object [("head", (head.map fun head => Json.string (toString head)).getD .null)])

def oversized (dimension : Nat) : PtyRefusal where
  code := .validation
  message := s!"a pty grid dimension of {dimension} does not fit u16"

def outOfRange (index : UInt32) (table : Nat) : PtyRefusal where
  code := .validation
  message := s!"a pty style index {index} is outside its {table}-entry table"

/-- How `{:?}` prints an optional revision. -/
def debugSeq : Option UInt64 → String
  | none => "None"
  | some seq => s!"Some({seq})"

/-! ## Checks -/

def owned (session : Session) (conn : ConnectionId) (id : PtySessionId) : Except PtyRefusal Unit :=
  require (session.owner = conn)
    { code := .authority, message := s!"pty session {id} is claimed by another live connection" }

def boundedGrid (cols rows : UInt16) : Except PtyRefusal Unit :=
  require (ptyGridDimensionsAreBounded cols rows)
    { code := .validation
      message := s!"a pty grid must be non-zero, no larger than {PTY_GRID_MAX_AXIS} per axis, " ++
        s!"and no larger than {PTY_GRID_MAX_CELLS} cells; got {cols}x{rows}" }

variable (styles : List CellStyle)

def duplicateFree : Except PtyRefusal Unit :=
  require styles.Nodup
    { code := .validation
      message := "a pty style table carries a duplicate entry — one canonical table only" }

def measured (value : Json) : Except PtyRefusal Nat := do
  let bytes := value.renderedSize
  require (bytes ≤ PUBLISH_BYTE_BUDGET)
    { code := .validation
      message := s!"a publish of {bytes} bytes exceeds the {PUBLISH_BYTE_BUDGET}-byte budget" }
  return bytes

def checkRun (run : PtyRun) : Except PtyRefusal Unit := do
  require (run.width ≠ 0)
    { code := .validation, message := "a pty frame run must cover at least one cell" }
  require (run.styleIndex.toNat < styles.length) (outOfRange run.styleIndex styles.length)

def checkRow (cols : Nat) (row : List PtyRun) :
    Except PtyRefusal Unit := do
  row.forM (checkRun styles)
  require (rowWidth row < UInt16.size) (oversized (rowWidth row))
  require (rowWidth row = cols)
    { code := .validation
      message := "a pty frame must be rectangular: every row the same width" }

/-- The strict decode of a published frame: its rows, its columns and its cells. -/
def strictFrame (frame : PtyFrame) :
    Except PtyRefusal (UInt16 × UInt16 × List (List StyledCell)) := do
  duplicateFree frame.styles
  require (frame.rows.length < UInt16.size) (oversized frame.rows.length)
  let rows := UInt16.ofNat frame.rows.length
  let width := (frame.rows.head?.map rowWidth).getD 0
  frame.rows.forM (checkRow frame.styles width)
  let cols := UInt16.ofNat width
  boundedGrid cols rows
  frame.cursor.forM fun cursor =>
    require (cursor.row < rows ∧ cursor.col < cols)
      { code := .validation
        message := s!"a pty cursor at ({cursor.row}, {cursor.col}) is outside the " ++
          s!"{rows}x{cols} grid" }
  match frame.cells with
  | some cells => return (rows, cols, cells)
  | none => throw {
      code := .validation
      message := "a pty frame passed the strict decode and still failed to expand" }

def blank : StyledCell where
  glyph := " "
  style :=
    { bold := false, dim := false, italic := false, blink := false, inverse := false
      invisible := false, strikethrough := false, overline := false, underline := none, fg := none
      bg := none, underlineColor := none }

/-- `blank_grid_bytes` of `wire/pty.rs`, without its saturation at the end of a `u64`, which
`blankGridBytes_exact` shows is not reached. -/
def blankGridBytes (rows cols : UInt16) : Nat :=
  if rows = 0 then 23
  else if cols = 0 then 21 + 3 * rows.toNat + 1
  else
    let style := blank.style.toJson.renderedSize
    let fill := (PtyRun.fill 0 " " cols.toUInt32).toJson.renderedSize
    style + 22 + rows.toNat * (fill + 3)

def checkUpdate (styles : List CellStyle) (cols rows : UInt16)
    (update : PtyCellUpdate) : Except PtyRefusal Unit := do
  require (update.style.toNat < styles.length) (outOfRange update.style styles.length)
  require (update.row < rows ∧ update.col < cols)
    { code := .validation
      message := s!"pty session {id}: update at ({update.row}, {update.col}) is outside " ++
        s!"the {rows}x{cols} grid" }
  require (update.glyph.utf8ByteSize ≤ MAX_GLYPH_BYTES)
    { code := .validation
      message := s!"pty session {id}: a {update.glyph.utf8ByteSize}-byte glyph at " ++
        s!"({update.row}, {update.col}) exceeds the {MAX_GLYPH_BYTES}-byte cell bound" }

/-- Check one delta against the dimensions it would see; answer those the next one
sees. -/
def checkDelta : UInt16 × UInt16 → PtyDelta → Except PtyRefusal (UInt16 × UInt16)
  | _, .resized newRows newCols => do
    boundedGrid newCols newRows
    let grid := blankGridBytes newRows newCols
    require (grid ≤ PUBLISH_BYTE_BUDGET)
      { code := .validation
        message := s!"pty session {id}: a resize to {newRows}x{newCols} names " ++
          s!"a {grid}-byte screen, past the {PUBLISH_BYTE_BUDGET}-byte " ++
          "budget a snapshot of it would be held to" }
    return (newCols, newRows)
  | (cols, rows), .cellsChanged styles updates => do
    duplicateFree styles
    updates.forM (checkUpdate id styles cols rows)
    return (cols, rows)

/-! ## Session operations -/

namespace Session

def size (session : Session) : UInt16 × UInt16 :=
  (.ofNat ((session.cells.head?.map List.length).getD 0), .ofNat session.cells.length)

def evict : List (PtyBatch × Nat) → Nat → Option UInt64 →
    List (PtyBatch × Nat) × Nat × Option UInt64
  | [], bytes, evictedThrough => ([], bytes, evictedThrough)
  | (dropped, droppedBytes) :: rest, bytes, evictedThrough =>
    if rest.length + 1 > RETAINED_BATCHES ∨ bytes > RETAINED_BYTES then
      evict rest (bytes - droppedBytes) (some dropped.seq)
    else ((dropped, droppedBytes) :: rest, bytes, evictedThrough)

def retain (session : Session) (batch : PtyBatch) (bytes : Nat) : Session :=
  let (retained, retainedBytes, evictedThrough) :=
    evict (session.retained ++ [(batch, bytes)]) (session.retainedBytes + bytes)
      session.evictedThrough
  { session with retained, retainedBytes, evictedThrough }

def publish (session : Session) (batch : PtyBatch) (bytes : Nat) : Session :=
  let session := session.retain batch bytes
  { session with live := session.live ++ [batch] }

end Session

/-- One update of the mirror; nothing is the source's index panic. -/
def applyUpdate (cells : List (List StyledCell))
    (update : PtyCellUpdate) : Option (List (List StyledCell)) := do
  let style ← styles[update.style.toNat]?
  let row ← cells[update.row.toNat]?
  guard (update.col.toNat < row.length)
  return cells.set update.row.toNat (row.set update.col.toNat { glyph := update.glyph, style })

def applyDelta : List (List StyledCell) × Option PtyCursor → PtyDelta →
    Option (List (List StyledCell) × Option PtyCursor)
  | _, .resized rows cols =>
    some (List.replicate rows.toNat (List.replicate cols.toNat blank), none)
  | (cells, cursor), .cellsChanged styles updates =>
    (updates.foldlM (applyUpdate styles) cells).map fun cells => (cells, cursor)

/-! ## Verbs -/

namespace PtyHub

variable (hub : PtyHub)

def answer {Checked Answer : Type} (checked : Except PtyRefusal Checked)
    (commit : Checked → Answer × PtyHub) : Except PtyRefusal Answer × PtyHub :=
  match checked with
  | .error refusal => (.error refusal, hub)
  | .ok value => (.ok (commit value).1, (commit value).2)

def put (id : PtySessionId) (session : Session) : PtyHub :=
  { hub with sessions := hub.sessions.insert id session }

def session (hub : PtyHub) (id : PtySessionId) : Except PtyRefusal Session :=
  match hub.sessions.lookup id with
  | some session => .ok session
  | none => .error (unknownSession id)

def nextGeneration : Except PtyRefusal (PtySessionGeneration × UInt64) :=
  match checkedSucc hub.generations with
  | some counter => .ok (s!"{hub.writerEpoch}:{counter}", counter)
  | none => .error
      { code := .overloaded, message := "the PTY session generation space is exhausted" }

variable (conn : ConnectionId)

/-- A session as its first publish opens it.  The claim's whole history is evicted by
definition, so the horizon starts at the head. -/
def opened (generation : PtySessionGeneration) (seq : Option UInt64)
    (cells : List (List StyledCell)) (cursor : Option PtyCursor) : Session where
  owner := conn
  generation := generation
  seq := seq
  cells := cells
  cursor := cursor
  retained := []
  retainedBytes := 0
  evictedThrough := seq
  live := []
  rawSnapshot := none
  rawSeq := none
  rawRetained := []
  rawRetainedBytes := 0
  rawLive := []

def advances : (head seq : Option UInt64) → Bool
  | some head, some seq => seq > head
  | none, some _ => true
  | _, none => false

/-- Revisions never move backwards, and a sequenced screen cannot return to no frame
yet. -/
def notBackwards (id : PtySessionId) : (head seq : Option UInt64) → Except PtyRefusal Unit
  | some head, some seq => require (head ≤ seq) (backwards id seq head)
  | some head, none => .error
      { code := .staleVersion
        message := s!"pty session {id} is at revision {head}; " ++
          "an unsequenced snapshot cannot replace it" }
  | none, _ => .ok ()

def reseeded (session : Session) (seq : Option UInt64) (rows cols : UInt16)
    (cells : List (List StyledCell)) (cursor : Option PtyCursor) (bytes : Nat) : Session :=
  let moved := { session with cells, cursor, seq }
  match seq with
  | some revision =>
    if advances session.seq seq then
      moved.publish { seq := revision, deltas := [.resized rows cols] } bytes
    else moved
  | none => moved

/-- What a snapshot publish does to the hub: it opens a session, or reseeds one. -/
inductive SnapshotPublish where
  | claim (generation : PtySessionGeneration) (counter : UInt64) (session : Session)
  | reseed (session : Session)

def checkSnapshot (id : PtySessionId) (seq : Option UInt64)
    (frame : PtyFrame) : Except PtyRefusal SnapshotPublish := do
  let (rows, cols, cells) ← strictFrame frame
  let bytes ← measured frame.toJson
  match hub.sessions.lookup id with
  | none =>
    require (hub.sessions.entries.length < MAX_SESSIONS)
      { code := .overloaded, message := s!"the hub already holds {MAX_SESSIONS} pty sessions" }
    let (generation, counter) ← hub.nextGeneration
    return .claim generation counter (opened conn generation seq cells frame.cursor)
  | some session =>
    owned session conn id
    notBackwards id session.seq seq
    let (oldCols, oldRows) := session.size
    -- two dimensions under one revision would be two screens
    require (advances session.seq seq ∨ (rows, cols) = (oldRows, oldCols))
      { code := .validation
        message := s!"pty session {id}: a reseed that does not advance the " ++
          s!"revision must keep its {oldRows}x{oldCols} dimensions" }
    return .reseed (reseeded session seq rows cols cells frame.cursor bytes)

/-- Publish a full screen: claim, or reseed at or past the head.  Answers the generation
exactly when it opened a session. -/
def publishSnapshot (id : PtySessionId) (seq : Option UInt64) (frame : PtyFrame) :
    Except PtyRefusal (Option PtySessionGeneration) × PtyHub :=
  hub.answer (hub.checkSnapshot conn id seq frame) fun
    | .claim generation counter session =>
      (some generation, { hub.put id session with generations := counter })
    | .reseed session => (none, hub.put id session)

/-- The checks of `publish_deltas`: the session and the batch's size. -/
def checkDeltas (id : PtySessionId) (seq : UInt64)
    (deltas : List PtyDelta) : Except PtyRefusal (Session × Nat) := do
  let bytes ← measured (.array (deltas.map PtyDelta.toJson))
  let session ← hub.session id
  owned session conn id
  session.seq.forM fun head => require (head < seq) (backwards id seq head)
  let _ ← deltas.foldlM (checkDelta id) session.size
  return (session, bytes)

/-- The session after its owner publishes a batch.  The check pass leaves no index of
the apply pass out of range. -/
def advanced (session : Session) (seq : UInt64) (deltas : List PtyDelta) (bytes : Nat) : Session :=
  let (cells, cursor) := (deltas.foldlM applyDelta (session.cells, session.cursor)).getD
    (session.cells, session.cursor)
  { session with cells, cursor, seq := some seq }.publish { seq, deltas } bytes

/-- Publish the batch that moves a session to `seq`. -/
def publishDeltas (id : PtySessionId) (seq : UInt64)
    (deltas : List PtyDelta) : Except PtyRefusal Unit × PtyHub :=
  hub.answer (hub.checkDeltas conn id seq deltas) fun (session, bytes) =>
    ((), hub.put id (advanced session seq deltas bytes))

/-! ### The raw fallback -/

def rawFits (id : PtySessionId) (what : String) (bytes : List UInt8) : Except PtyRefusal Unit :=
  require (bytes.length + 1 ≤ FRAME_BODY_MAX_BYTES)
    { code := .frameSize
      message := (s!"pty session {id}: a {bytes.length}-byte {what} exceeds the frame payload " ++
        "bound") }

/-- The checks of `publish_raw_snapshot`. -/
def checkRawSnapshot (id : PtySessionId) (seq : Option UInt64) (rows cols : UInt16)
    (bytes : List UInt8) :
    Except PtyRefusal Session := do
  rawFits id "raw snapshot" bytes
  let session ← hub.session id
  owned session conn id
  require (session.rawSnapshot = none)
    { code := .overloaded
      message := s!"pty session {id}: raw fallback is already seeded; reconnect to reseed" }
  let (currentCols, currentRows) := session.size
  let presented := debugSeq seq
  let head := debugSeq session.seq
  require (seq = session.seq)
    (rawStale (s!"pty session {id}: raw snapshot at {presented} does not match render head " ++
      head) session.seq)
  require ((rows, cols) = (currentRows, currentCols))
    { code := .validation
      message := s!"pty session {id}: raw snapshot is {rows}x{cols}; render state is " ++
        s!"{currentRows}x{currentCols}" }
  return session

def rawSeeded (session : Session) (seq : Option UInt64) (rows cols : UInt16)
    (bytes : List UInt8) : Session :=
  { session with
    rawSnapshot := some (.snapshot seq rows cols bytes)
    rawSeq := seq
    rawRetained := []
    rawRetainedBytes := 0 }

/-- Seed the raw fallback at the revision and dimensions of the mirror. -/
def publishRawSnapshot (id : PtySessionId) (seq : Option UInt64) (rows cols : UInt16)
    (bytes : List UInt8) :
    Except PtyRefusal Unit × PtyHub :=
  hub.answer (hub.checkRawSnapshot conn id seq rows cols bytes) fun session =>
    ((), hub.put id (rawSeeded session seq rows cols bytes))

def expectedRaw (id : PtySessionId) : Option UInt64 → Except PtyRefusal UInt64
  | some head =>
    match checkedSucc head with
    | some next => .ok next
    | none => .error
        { code := .overloaded
          message := s!"pty session {id}: raw sequence space is exhausted" }
  | none => .ok 0

def rawRevision (delivery : PtyRawDelivery) : Except PtyRefusal UInt64 :=
  match delivery.seq with
  | some seq => .ok seq
  | none => .error { code := .validation, message := "raw event has no seq" }

/-- The checks of `publish_raw`: the session and the event's revision. -/
def checkRaw (id : PtySessionId)
    (delivery : PtyRawDelivery) : Except PtyRefusal (Session × UInt64) := do
  let seq ← rawRevision delivery
  let session ← hub.session id
  owned session conn id
  require (session.rawSnapshot ≠ none)
    { code := .overloaded, message := s!"pty session {id}: raw fallback has not been seeded" }
  let expected ← expectedRaw id session.rawSeq
  require (seq = expected)
    (rawStale s!"pty session {id}: raw sequence {seq} does not follow {expected}" session.rawSeq)
  require (session.rawRetained.length < RAW_RETAINED_EVENTS ∧
      session.rawRetainedBytes + delivery.retainedBytes ≤ RAW_RETAINED_BYTES)
    { code := .overloaded
      message := s!"pty session {id}: raw retention is full; reconnect and reseed the snapshot" }
  return (session, seq)

def rawAdvanced (session : Session) (seq : UInt64) (delivery : PtyRawDelivery) : Session :=
  { session with
    rawSeq := some seq
    rawRetainedBytes := session.rawRetainedBytes + delivery.retainedBytes
    rawRetained := session.rawRetained ++ [delivery]
    rawLive := session.rawLive ++ [delivery] }

def publishRaw (id : PtySessionId) (delivery : PtyRawDelivery) : Except PtyRefusal Unit × PtyHub :=
  hub.answer (hub.checkRaw conn id delivery) fun (session, seq) =>
    ((), hub.put id (rawAdvanced session seq delivery))

def publishRawOutput (id : PtySessionId) (seq : UInt64)
    (bytes : List UInt8) : Except PtyRefusal Unit × PtyHub :=
  match rawFits id "raw output" bytes with
  | .error refusal => (.error refusal, hub)
  | .ok () => hub.publishRaw conn id (.output seq bytes)

def publishRawResize (id : PtySessionId) (seq : UInt64)
    (rows cols : UInt16) : Except PtyRefusal Unit × PtyHub :=
  hub.publishRaw conn id (.resized seq rows cols)

/-! ### Ending sessions -/

def checkRetire (id : PtySessionId) :
    Except PtyRefusal Session := do
  let session ← hub.session id
  owned session conn id
  return session

/-- Retire one session the connection claimed; answers the generation that ended. -/
def retire (id : PtySessionId) : Except PtyRefusal PtySessionGeneration × PtyHub :=
  hub.answer (hub.checkRetire conn id) fun session =>
    (session.generation, { hub with sessions := hub.sessions.erase id })

def keysWhere {Key Row : Type} (table : Table Key Row) (condition : Row → Bool) : List Key :=
  (table.entries.filter fun entry => condition entry.2).map Sigma.fst

/-- What a hangup ended: session lifetimes and unacknowledged deliveries. -/
structure DisconnectOutcome where
  retired : List (PtySessionId × PtySessionGeneration)
  abandoned : List (EventId × String)

def disconnect : DisconnectOutcome × PtyHub :=
  let abandonedIds := keysWhere hub.controls.pending fun pending => pending.owner = conn
  let abandoned := abandonedIds.filterMap fun id =>
    (hub.controls.pending.lookup id).map fun pending => (id, pending.claimToken)
  let startManagers := hub.controls.startManagers.filter fun manager => manager ≠ conn
  let startChanges :=
    if startManagers.getLast? ≠ hub.controls.startManagers.getLast? then hub.startChanges + 1
    else hub.startChanges
  let claimed := keysWhere hub.sessions fun session => session.owner = conn
  let retired := claimed.filterMap fun id =>
    (hub.sessions.lookup id).map fun session => (id, session.generation)
  ({ retired, abandoned }, { hub with
      sessions := Table.eraseAll claimed hub.sessions
      controls := {
        routes := hub.controls.routes.erase conn
        startManagers
        pending := Table.eraseAll abandonedIds hub.controls.pending }
      startChanges })

/-! ### Reading -/

/-- What an accepted attach hands the serve layer.  `live` is the subscription's position in
the session's broadcast. -/
structure Attached where
  generation : PtySessionGeneration
  (rows cols : UInt16)
  cursor : Option UInt64
  replay : List PtyBatch
  live : Nat

/-- The cursor an attach can serve from the retained window, if it presents one: of this
generation, not past the head, and with nothing above it evicted. -/
def serviceable (session : Session) :
    (generation : Option PtySessionGeneration) → (cursor : Option UInt64) → Option UInt64
  | some generation, some cursor =>
    if generation = session.generation then
      let pastHead := session.seq.all fun head => cursor > head
      let evicted := session.evictedThrough.any fun evicted => cursor < evicted
      if !pastHead && !evicted then some cursor else none
    else none
  | _, _ => none

/-- Attach a consumer.  The subscription and the replay are taken under one lock. -/
def attach (id : PtySessionId) (generation : Option PtySessionGeneration)
    (cursor : Option UInt64) : Except PtyRefusal Attached := do
  let session ← hub.session id
  let (cols, rows) := session.size
  let (answered, replay) :=
    match serviceable session generation cursor with
    | some cursor => (some cursor,
        (session.retained.filter fun (batch, _) => batch.seq > cursor).map Prod.fst)
    | none => (session.seq, [])
  return {
    generation := session.generation
    rows, cols
    cursor := answered
    replay
    live := session.live.length }

def snapshot (id : PtySessionId) :
    Except PtyRefusal (PtySessionGeneration × UInt64 × PtyFrame) := do
  let session ← hub.session id
  let seq ← match session.seq with
    | some seq => .ok seq
    | none => throw {
        code := .notFound
        message := s!"pty session {id} has produced no frame yet" }
  let frame := PtyFrame.fromCells session.cells session.cursor
  let bytes := frame.toJson.renderedSize
  require (bytes ≤ PUBLISH_BYTE_BUDGET)
    { code := .overloaded
      message := s!"pty session {id}: the screen serializes to {bytes} bytes, past the " ++
        s!"{PUBLISH_BYTE_BUDGET}-byte bound one response frame carries; attach " ++
        "for deltas instead" }
  return (session.generation, seq, frame)

end PtyHub

end Gridwork.Pty
