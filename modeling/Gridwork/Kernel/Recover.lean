import Gridwork.Kernel.Store

/-!
# Recovery and rebuild

What a restart can prove about the projections.  `recover` reads the watermark, the live
derived records and the checkpoints.  With derived records on hand it compares; without
any it replays the log into the live tables.  `rebuildInto` replays the log into a
scratch database and reports whether the two agree.
-/

namespace Gridwork.Kernel

open Domain Lib

/-! ## Replay -/

def isGenesis (event : Event) : Bool :=
  event.aggregateType = KERNEL_AGGREGATE ∧ event.eventType = GENESIS_EVENT_TYPE

variable (pg : Postgres)

def replayEvent (tables : Projections) (event : Event) : Except Refusal Projections :=
  if isGenesis event then .ok tables else applyEvent pg event tables

def replayLog (events : List Event) (tables : Projections) : Except Refusal Projections :=
  events.foldlM (replayEvent pg) tables

variable (codec : Codec)

def derivedHash (tables : Projections) : String :=
  (codec.projectionHash (derivedRecords tables.derived)).hex

structure Replayed where
  events : Nat
  watermark : Option Seq
  (liveHash rebuiltHash : String)

/-- `replay`: every event of the source's log into the target's tables. -/
def replay (source : Db) (target : Projections) :
    Except Refusal (Replayed × Projections) := do
  let rebuilt ← replayLog pg source.events target
  return ({
    events := (source.events.filter fun event => !isGenesis event).length
    watermark := watermark source.events
    liveHash := derivedHash codec source.tables
    rebuiltHash := derivedHash codec rebuilt }, rebuilt)

/-- What recovery sees in a records blob: the hash of its bytes, and the first line that
does not parse. -/
structure RecordsBlob where
  hash : String
  badLine : Option String

/-- An attached blob store: what it answers to a read at an address. -/
abbrev BlobReader := String → ByteCount → Except String RecordsBlob

/-- `BlobAddress::parse`, by the digest without its scheme. -/
def blobDigestHex (address : String) : Except String String := do
  let scheme := Context.DIGEST_SCHEME.toList
  require (scheme.isPrefixOf address.toList)
    s!"blob address must start with {Context.DIGEST_SCHEME}"
  let hex := String.ofList (address.toList.drop scheme.length)
  require (isSha256Hex hex) "blob address digest must be a lowercase 64-hex sha-256"
  return hex

def checkWatermark (checkpoint : Checkpoint) : Option Seq → Except String Unit
  | some mark =>
    require (checkpoint.throughSequence ≤ mark)
      s!"checkpoint runs through {checkpoint.throughSequence} but the log ends at {mark}"
  | none => .error "checkpoint exists but the log is empty"

/-- `validate`: whether a checkpoint still describes something. -/
def validate (blobs : BlobReader) (mark : Option Seq) (checkpoint : Checkpoint) :
    Except String Unit := do
  require (checkpoint.schemaVersion = CHECKPOINT_SCHEMA_VERSION)
    s!"checkpoint schema {checkpoint.schemaVersion} is not {CHECKPOINT_SCHEMA_VERSION}"
  checkWatermark checkpoint mark
  require (checkpoint.recordsRef.mediaType = RECORDS_MEDIA_TYPE)
    s!"records are {checkpoint.recordsRef.mediaType.quote}, not {RECORDS_MEDIA_TYPE}"
  let hex ← (blobDigestHex checkpoint.recordsRef.digest).mapError fun error =>
    s!"records_ref: {error}"
  require (hex = checkpoint.projectionHash)
    s!"records address {hex} is not the projection hash {checkpoint.projectionHash}"
  let records ← (blobs checkpoint.recordsRef.digest checkpoint.recordsRef.byteSize).mapError
    fun error => s!"read records: {error}"
  require (records.hash = checkpoint.projectionHash)
    "records do not hash to the recorded projection hash"
  records.badLine.forM .error

/-- `newest_valid` over an attached blob store: the newest checkpoint that survives
validation, and every one walked past. -/
def newestValid (blobs : BlobReader) (mark : Option Seq) :
    List Checkpoint → Option Checkpoint × List (Seq × String)
  | [] => (none, [])
  | checkpoint :: older =>
    match validate blobs mark checkpoint with
    | .ok () => (some checkpoint, [])
    | .error reason =>
      let (hit, rejected) := newestValid blobs mark older
      (hit, (checkpoint.throughSequence, reason) :: rejected)

variable (blobs : Option BlobReader)

/-- `newest_valid`; without a blob store no checkpoint can be read. -/
def anchorOf (db : Db) : Option Checkpoint × List (Seq × String) :=
  match blobs with
  | none => (none, [])
  | some blobs => newestValid blobs (watermark db.events) db.checkpoints.reverse

/-! ## Recovery -/

inductive Verdict where
  | verified (anchor : Seq)
  | replayed (events : Nat)
  | unverified (reason : String)
  | diverged (expected hit : String)

structure RecoveryReport where
  watermark : Option Seq
  liveHash : String
  verdict : Verdict
  rejected : List (Seq × String)
  uncertain : List String

def RecoveryReport.ready (report : RecoveryReport) : Bool :=
  match report.verdict with
  | .diverged .. => false
  | _ => true

/-- `uncertain_attempts`: the attempts whose state has an edge to `unknown`. -/
def uncertainAttempts (attempts : Rows Attempt) : List String :=
  (attempts.toList.filter fun entry =>
    StateMachine.canTransition entry.2.state AttemptState.unknown).map (·.1)

def coldVerdict (anchor : Option Checkpoint) (built : Replayed) : Verdict :=
  match anchor.filter fun checkpoint => some checkpoint.throughSequence = built.watermark with
  | some checkpoint =>
    if checkpoint.projectionHash ≠ built.rebuiltHash then
      .diverged checkpoint.projectionHash built.rebuiltHash
    else .replayed built.events
  | none => .replayed built.events

def warmVerdict (attached : Bool) (anchor : Option Checkpoint) (mark : Seq) (liveHash : String) :
    Verdict :=
  match anchor with
  | some checkpoint =>
    if checkpoint.throughSequence = mark then
      if checkpoint.projectionHash = liveHash then .verified checkpoint.throughSequence
      else .diverged checkpoint.projectionHash liveHash
    else .unverified (s!"the newest valid checkpoint is at {checkpoint.throughSequence}, and " ++
      s!"the log runs to {mark} — the projections cannot be re-derived in place to compare")
  | none =>
    if attached then .unverified "no valid checkpoint"
    else .unverified "no blob store is attached, so no checkpoint can be read"

def judge (db : Db) : Except Refusal (Verdict × Projections) :=
  let liveHash := derivedHash codec db.tables
  let anchor := (anchorOf blobs db).1
  let cold := derivedRecords db.tables.derived = []
  match watermark db.events with
  | none =>
    if cold then .ok (.unverified "the log is empty", db.tables)
    else .ok (.diverged (codec.projectionHash []).hex liveHash, db.tables)
  | some mark =>
    if cold then do
      let (built, rebuilt) ← replay pg codec db db.tables
      return (coldVerdict anchor built, rebuilt)
    else .ok (warmVerdict blobs.isSome anchor mark liveHash, db.tables)

/-- `recover`: the report, and the database it leaves. -/
def recover (db : Db) :
    Except Refusal (RecoveryReport × Db) := do
  let (verdict, tables) ← judge pg codec blobs db
  return ({
    watermark := watermark db.events
    liveHash := derivedHash codec db.tables
    verdict
    rejected := (anchorOf blobs db).2
    uncertain := uncertainAttempts tables.derived.attempt }, { db with tables })

end Gridwork.Kernel
