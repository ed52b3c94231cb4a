import Gridwork.Kernel.Project

/-!
# The event store

The database as the kernel sees it between transactions, and the append every event goes
through.  A call holds the writer row's lock from its first read to its commit, so calls
take effect one after the other and a call is a function of the database it finds.

An append checks the batch, answers a repeated key with the stored events, compares the
aggregate's version, and then inserts: `insertEvent` carries the unique indexes of the
log.  The fence token is left out; the kernel's own paths present the current one, which
the check accepts.

`Codec` collects what the kernel takes from libraries: the serialized length of an event
body, the projection hash, and the keyed binding of PTY input.
-/

namespace Gridwork.Kernel

open Domain Lib List

/-! ## The database -/

/-- What the kernel takes from serde, SHA-256 and HMAC. -/
structure Codec where
  /-- Bytes of the compact serialization of an event's payload. -/
  inlineSize : EventBody → Nat
  /-- SHA-256 over the canonical lines. -/
  projectionHash : List ProjectionRecord → Context.Digest
  /-- Bytes of the canonical lines. -/
  recordsSize : List ProjectionRecord → ByteCount
  /-- HMAC-SHA-256 under a key of the domain-separated input bytes. -/
  inputBinding : List UInt8 → List UInt8 → List UInt8

structure Writer where
  epoch : Int
  (nextSeq checkpointSeq : Seq)
  checkpointAt : Instant

/-- A row of `gwk_internal.pty_delivery`, as the command path registers it. -/
structure PtyDelivery where
  projectId : ProjectId
  idempotencyKey : IdempotencyKey
  commandId : CommandId
  eventId : EventId
  eventSeq : Seq
  inputBinding : Option (List UInt8)
  deriving DecidableEq

structure Checkpoint where
  schemaVersion : UInt32
  throughSequence : Seq
  projectionHash : String
  recordsRef : PayloadRef
  createdAt : Timestamp

/-- The database between transactions.  The log and the checkpoints are kept in the order
of their sequence numbers. -/
structure Db where
  events : List Event
  tables : Projections
  receipts : Rows Receipt
  deliveries : List PtyDelivery
  writer : Writer
  checkpoints : List Checkpoint

def Db.created (epoch : Int) (time : Instant) : Db where
  events := []
  tables := .empty
  receipts := ∅
  deliveries := []
  writer := { epoch, nextSeq := 1, checkpointSeq := 0, checkpointAt := time }
  checkpoints := []

/-- An opened store: the epoch it booted with, and the key of its blob store if it has
one. -/
structure Store where
  bootEpoch : Int
  blobs : Option (List UInt8)

inductive Storage where
  | answers
  | failsInTransaction (reason : String)
  | failsAfterCommit (reason : String)

/-- What one call meets: whether a permit is free, whether the database answers, the
transaction's time, and the wall clock its grant lookup reads. -/
structure Moment where
  permit : Bool
  storage : Storage
  (now clock : Instant)

/-! ## Reading the log -/

def watermark (events : List Event) : Option Seq :=
  (events.map (·.globalSequence)).max?

theorem watermark_none {events : List Event} : watermark events = none ↔ events = [] := by
  simp [watermark]

/-- `current_aggregate_version`: the highest version an aggregate has reached. -/
def currentAggregateVersion (events : List Event) (aggregateType : String)
    (aggregateId : AggregateId) : UInt32 :=
  (((aggregateEvents (aggregateType, aggregateId) events).map (·.aggregateVersion)).max?).getD 0

/-- `events_for_key`: what landed under a key, in this project or on this aggregate. -/
def eventsForKey (events : List Event) (projectId : ProjectId) (aggregateType : String)
    (aggregateId : AggregateId) (key : IdempotencyKey) : List Event :=
  events.filter fun event =>
    event.idempotencyKey = some key ∧ (event.projectId = projectId ∨
        (event.aggregateType = aggregateType ∧ event.aggregateId = aggregateId))

def eventIdOf (aggregateType : String) (aggregateId : AggregateId) (version : UInt32) : EventId :=
  s!"{aggregateType}:{aggregateId}:{version}"

/-! ## Appending -/

/-- `AppendError`. -/
inductive AppendError where
  | versionConflict (actual expected : UInt32)
  | malformedBatch (reason : String)
  | storage (reason : String)

instance : ToString AppendError where
  toString
    | .versionConflict actual expected => s!"version conflict: actual {actual}, expected {expected}"
    | .malformedBatch reason => s!"malformed batch: {reason}"
    | .storage reason => s!"storage error: {reason}"

def jsonNat (value : Nat) : Json := .number (toString value)

def staleVersion (actual expected : UInt32) : Refusal :=
  (Refusal.new .staleVersion s!"version conflict: actual {actual}, expected {expected}").withDetail
    (.object [("actual", jsonNat actual.toNat), ("expected", jsonNat expected.toNat)])

def AppendError.refusal : AppendError → Refusal
  | .versionConflict actual expected => staleVersion actual expected
  | .malformedBatch reason => .validation (toString (AppendError.malformedBatch reason))
  | .storage reason => .storage (toString (AppendError.storage reason))

section Append

variable (pg : Postgres) (codec : Codec)

def validateEvent (expectedVersion : UInt32) (first : Event) (prior : List Event)
    (event : Event) : Except AppendError Unit := do
  let offset := prior.length
  let want := expectedVersion.toNat + 1 + offset
  require (event.aggregateType = first.aggregateType ∧ event.aggregateId = first.aggregateId)
    (.malformedBatch (s!"batch mixes aggregates: {first.aggregateType}/{first.aggregateId} and " ++
      s!"{event.aggregateType}/{event.aggregateId}"))
  require (want < 2 ^ 32) (.malformedBatch "aggregate_version would exceed 4294967295")
  require (event.aggregateVersion.toNat = want)
    (.malformedBatch (s!"aggregate_version {event.aggregateVersion} at offset {offset}: " ++
      s!"expected {want} (contiguous from expected_version + 1)"))
  require (event.schemaVersion ≠ 0)
    (.malformedBatch s!"schema_version 0 at offset {offset} is not a version")
  require (codec.inlineSize event.payload ≤ INLINE_PAYLOAD_MAX_BYTES)
    (.malformedBatch (s!"inline payload at offset {offset} is {codec.inlineSize event.payload} " ++
      s!"bytes, over the {INLINE_PAYLOAD_MAX_BYTES} bound — use payload_ref"))
  require (event.idempotencyKey = none ∨
      ∀ other ∈ prior, other.idempotencyKey ≠ event.idempotencyKey)
    (.malformedBatch "an idempotency key appears twice in one batch")

def validateFrom (expectedVersion : UInt32) (first : Event) :
    List Event → List Event → Except AppendError Unit
  | _, [] => .ok ()
  | prior, event :: rest => do
    validateEvent codec expectedVersion first prior event
    validateFrom expectedVersion first (prior ++ [event]) rest

def validateBatch (expectedVersion : UInt32) : List Event → Except AppendError Unit
  | [] => .error (.malformedBatch "empty batch")
  | first :: rest => validateFrom codec expectedVersion first [] (first :: rest)

/-- A body as the database gives it back: the free JSON of a command goes through `jsonb`. -/
def storedBody : EventBody → Option EventBody
  | .command (.sendMessage messageId correlationId replyTo sender recipient channel kind
      (some payload) deadline) =>
      (pg.jsonb payload).map fun payload => .command (.sendMessage messageId correlationId replyTo
        sender recipient channel kind (some payload) deadline)
  | .command (.ingestRecord kind payload payloadRef) =>
    (pg.jsonb payload).map fun payload => .command (.ingestRecord kind payload payloadRef)
  | body => some body

/-- The unique indexes of the log let two rows stand side by side: they differ in their
sequence number, their id and their version, and a key names one event of a project and
one of an aggregate. -/
def indexesApart (other event : Event) : Prop :=
  other.globalSequence ≠ event.globalSequence ∧
  other.eventId ≠ event.eventId ∧
  (other.aggregate = event.aggregate → other.aggregateVersion ≠ event.aggregateVersion) ∧
  (event.idempotencyKey.isSome → other.idempotencyKey = event.idempotencyKey →
    other.aggregate ≠ event.aggregate ∧ other.projectId ≠ event.projectId)
  deriving Decidable

instance : Std.Symm indexesApart where
  symm other event := by
    rintro ⟨sequence, eventId, version, key⟩
    refine ⟨sequence.symm, eventId.symm, fun eq => (version eq.symm).symm, ?_⟩
    intro keyed eq
    obtain ⟨aggregate, project⟩ := key (eq ▸ keyed) eq.symm
    exact ⟨aggregate.symm, project.symm⟩

def eventIndexesFree (log : List Event) (event : Event) : Prop :=
  ∀ other ∈ log, indexesApart other event
  deriving Decidable

def storedRow (now : Instant) (seq : Seq) (event : Event) (occurred : Instant)
    (payload : EventBody) : Event :=
  { event with
    globalSequence := seq
    occurredAt := pg.render occurred
    appendedAt := pg.render now
    payload }

def insertEvent (now : Instant) (log : List Event) (seq : Seq) (event : Event) :
    Except AppendError Event :=
  match pg.reads now event.occurredAt, storedBody pg event.payload with
  | some occurred, some payload =>
    let row := storedRow pg now seq event occurred payload
    if eventIndexesFree log row then .ok row
    else .error (.storage "insert event: unique index")
  | none, _ => .error (.storage "insert event: timestamp")
  | _, none => .error (.storage "insert event: jsonb")

/-- Insert the events of a batch from a sequence number on; answers the rows. -/
def insertBatch (now : Instant) (nextSeq : Seq) :
    List Event → List Event → List Event → Except AppendError (List Event)
  | _, appended, [] => .ok appended
  | log, appended, event :: rest =>
    if nextSeq.toNat + appended.length < 2 ^ 64 then do
      let seq := UInt64.ofNat (nextSeq.toNat + appended.length)
      let row ← insertEvent pg now log seq event
      insertBatch now nextSeq (log ++ [row]) (appended ++ [row]) rest
    else .error (.storage "global sequence exhausted")

/-- Two events are one request: equal but for what the store assigns. -/
def isReplayOf (stored presented : Event) : Bool :=
  stored = { presented with
    globalSequence := stored.globalSequence
    appendedAt := stored.appendedAt
    occurredAt := stored.occurredAt }

/-- What an append produced: its events, and the database after it. -/
structure Appended where
  events : List Event
  replayed : Bool
  db : Db

def storedUnderKeys (log : List Event) (first : Event) (batch : List Event) : List Event :=
  log.filter fun event =>
    event.aggregate = first.aggregate ∧ event.idempotencyKey.isSome ∧
      event.idempotencyKey ∈ batch.map (·.idempotencyKey)

def answerRepeated (db : Db) (stored batch : List Event) : Except AppendError Appended :=
  if stored.length = batch.length ∧ batch.all (·.idempotencyKey.isSome) then
    if (stored.zip batch).all fun (stored, presented) => isReplayOf stored presented then
      .ok { events := stored, replayed := true, db }
    else .error (.malformedBatch
      "an idempotency key already named another event: a retry must present the identical batch")
  else .error (.malformedBatch (s!"{stored.length} of {batch.length} idempotency keys already " ++
    "landed: a retry must present the identical batch"))

def appendNew (db : Db) (now : Instant) (expectedVersion : UInt32) (first : Event)
    (batch : List Event) : Except AppendError Appended := do
  let actual := currentAggregateVersion db.events first.aggregateType first.aggregateId
  require (actual = expectedVersion) (.versionConflict actual expectedVersion)
  let rows ← insertBatch pg now db.writer.nextSeq db.events [] batch
  require (db.writer.nextSeq.toNat + batch.length < 2 ^ 64) (.storage "global sequence exhausted")
  return {
    events := rows
    replayed := false
    db := { db with
      events := db.events ++ rows
      writer := { db.writer with
        nextSeq := UInt64.ofNat (db.writer.nextSeq.toNat + batch.length) } } }

def appendLocked (db : Db) (now : Instant) (expectedVersion : UInt32) (batch : List Event) :
    Except AppendError Appended := do
  validateBatch codec expectedVersion batch
  match batch with
  | [] => .error (.malformedBatch "empty batch")
  | first :: _ =>
    let stored := storedUnderKeys db.events first batch
    if stored.isEmpty then appendNew pg db now expectedVersion first batch
    else answerRepeated db stored batch

end Append

/-! ## One event -/

section Singleton

variable {pg : Postgres} {codec : Codec} {now : Instant} {event row : Event} {expected : UInt32}

theorem insertEvent_ok {log : List Event} {seq : Seq} : insertEvent pg now log seq event = .ok row ↔
      ∃ occurred payload, pg.reads now event.occurredAt = some occurred ∧
        storedBody pg event.payload = some payload ∧
        row = storedRow pg now seq event occurred payload ∧ eventIndexesFree log row := by
  cases parsed : pg.reads now event.occurredAt with
  | none => simp [insertEvent, parsed]
  | some occurred =>
    cases stored : storedBody pg event.payload with
    | none => simp [insertEvent, parsed, stored]
    | some payload =>
      simp only [insertEvent, parsed, stored]
      constructor
      · intro inserted
        split at inserted
        next free =>
          cases inserted
          exact ⟨occurred, payload, rfl, rfl, rfl, free⟩
        next => cases inserted
      · rintro ⟨_, _, ⟨⟩, ⟨⟩, rfl, free⟩
        exact if_pos free

theorem validateBatch_singleton : validateBatch codec expected [event] = .ok () ↔
      expected.toNat + 1 < 2 ^ 32 ∧ event.aggregateVersion.toNat = expected.toNat + 1 ∧
        event.schemaVersion ≠ 0 ∧ codec.inlineSize event.payload ≤ INLINE_PAYLOAD_MAX_BYTES := by
  simp [validateBatch, validateFrom, validateEvent, bind_ok, exists_unit]

theorem appendLocked_singleton {db : Db} {appended : Appended}
    (unused : storedUnderKeys db.events event [event] = []) :
    appendLocked pg codec db now expected [event] = .ok appended ↔
      ∃ row, validateBatch codec expected [event] = .ok () ∧
        currentAggregateVersion db.events event.aggregateType event.aggregateId = expected ∧
        insertEvent pg now db.events db.writer.nextSeq event = .ok row ∧
        db.writer.nextSeq.toNat + 1 < 2 ^ 64 ∧
        appended = {
          events := [row]
          replayed := false
          db := { db with
            events := db.events ++ [row]
            writer := { db.writer with nextSeq := db.writer.nextSeq + 1 } } } := by
  have room : db.writer.nextSeq.toNat < 2 ^ 64 := db.writer.nextSeq.toNat_lt
  have next : UInt64.ofNat (db.writer.nextSeq.toNat + 1) = db.writer.nextSeq + 1 := by
    simp
  simp only [appendLocked, unused, appendNew, insertBatch, bind_ok, exists_unit,
    pure_ok, require_ok, isEmpty_nil, if_true, length_nil, Nat.add_zero,
    room, UInt64.ofNat_toNat, nil_append, length_singleton, next]
  constructor
  · rintro ⟨valid, current, rows, ⟨row, inserted, ⟨⟩⟩, seqs, rfl⟩
    exact ⟨row, valid, current, inserted, seqs, rfl⟩
  · rintro ⟨row, valid, current, inserted, seqs, rfl⟩
    exact ⟨valid, current, [row], ⟨row, inserted, rfl⟩, seqs, rfl⟩

end Singleton

/-! ## The writer and the checkpoint barrier -/

/-- `lock_writer`: the process must still hold write authority. -/
def lockWriter (store : Store) (db : Db) : Except AppendError Unit :=
  require (db.writer.epoch = store.bootEpoch)
    (.storage (s!"writer epoch {store.bootEpoch} was superseded by {db.writer.epoch}: another " ++
      "kernel took write authority"))

/-- The checkpoint format version this kernel reads and writes. -/
def CHECKPOINT_SCHEMA_VERSION : UInt32 := 1

def CHECKPOINT_EVENT_INTERVAL : Nat := 10000

def CHECKPOINT_INTERVAL : Int := 300 * 1000000

def RECORDS_MEDIA_TYPE : String := "application/x-ndjson"

def Writer.checkpointDue (writer : Writer) (now : Instant) (through : Seq) : Bool :=
  now - writer.checkpointAt ≥ CHECKPOINT_INTERVAL ∨
    through.toNat - writer.checkpointSeq.toNat ≥ CHECKPOINT_EVENT_INTERVAL

def checkpointOf (codec : Codec) (tables : Derived) (through : Seq) (createdAt : Timestamp) :
    Checkpoint :=
  let records := derivedRecords tables
  let hash := codec.projectionHash records
  { schemaVersion := CHECKPOINT_SCHEMA_VERSION
    throughSequence := through
    projectionHash := hash.hex
    recordsRef :=
      { digest := hash.asStr
        mediaType := RECORDS_MEDIA_TYPE
        byteSize := codec.recordsSize records
        retentionClass := none
        evidencePin := none }
    createdAt }

/-- `snapshot`: record the checkpoint unless one anchors there already, and move the
barrier. -/
def snapshot (codec : Codec) (db : Db) (through : Seq) (createdAt : Instant)
    (created : Timestamp) : Db :=
  { db with
    checkpoints :=
      if db.checkpoints.any fun checkpoint => checkpoint.throughSequence = through then
        db.checkpoints
      else db.checkpoints ++ [checkpointOf codec db.tables.derived through created]
    writer := { db.writer with checkpointSeq := through, checkpointAt := createdAt } }

/-- `checkpoint_if_due`, with the writer row as it was locked. -/
def checkpointIfDue (pg : Postgres) (codec : Codec) (store : Store) (locked : Writer)
    (now : Instant) (appended : List Event) (db : Db) : Db :=
  match store.blobs, appended.getLast? with
  | some _, some last =>
    if locked.checkpointDue now last.globalSequence then
      snapshot codec db last.globalSequence now (pg.render now)
    else db
  | _, _ => db

/-! ## The epoch -/

def KERNEL_AGGREGATE : String := "kernel"
def KERNEL_SINGLETON : String := "singleton"
def SYSTEM_PROJECT : String := "system"
def GENESIS_KEY : String := "kernel_initialized:v1"
def GENESIS_EVENT_TYPE : String := "kernel_initialized"
def ACTIVATION_EVENT_TYPE : String := "kernel_activated"

def CONTRACT_VERSION : UInt32 := 1

/-- Where a kernel is in its own lifecycle.  `absent` is the source's `None`. -/
inductive Epoch where
  | absent | sealed | active
  deriving DecidableEq

def Epoch.ofVersion (version : UInt32) : Epoch :=
  if version = 0 then .absent else if version = 1 then .sealed else .active

def epochOf (events : List Event) : Epoch :=
  .ofVersion (currentAggregateVersion events KERNEL_AGGREGATE KERNEL_SINGLETON)

def sealedRefusal (epoch : Epoch) (commandType : String) : Refusal :=
  .new .sealed <| match epoch with
    | .absent =>
      ("this kernel has no epoch: genesis has not been appended, so nothing may be submitted — " ++
        "not even activation, which asserts the sealed version")
    | _ => s!"this kernel is sealed; {commandType} is not on the sealed allowlist"

def activationKey (cutoverId : String) : IdempotencyKey :=
  s!"{ACTIVATION_EVENT_TYPE}:{cutoverId}"

def isPublicRevision (value : String) : Bool :=
  value.toList.length == 40 && value.toList.all fun c => c.isDigit || ('a' ≤ c && c ≤ 'f')

def genesisEvent (publicRevision : String) (time : Timestamp) : Event where
  eventId := eventIdOf KERNEL_AGGREGATE KERNEL_SINGLETON 1
  projectId := SYSTEM_PROJECT
  aggregateType := KERNEL_AGGREGATE
  aggregateId := KERNEL_SINGLETON
  aggregateVersion := 1
  eventType := GENESIS_EVENT_TYPE
  schemaVersion := ENVELOPE_SCHEMA_VERSION
  globalSequence := 0
  occurredAt := time
  appendedAt := time
  actor := { kind := "kernel", id := none }
  origin := { system := "gw", ref := none }
  causationId := none
  correlationId := none
  idempotencyKey := some GENESIS_KEY
  payload := .genesis CONTRACT_VERSION publicRevision
  payloadRef := none

/-- `ensure_genesis`: append genesis if the log has none. -/
def ensureGenesis (pg : Postgres) (codec : Codec) (store : Store) (now : Instant)
    (publicRevision : String) (db : Db) : Except Refusal Db := do
  require (isPublicRevision publicRevision)
    (.validation s!"genesis records the full 40-character public revision, not {publicRevision}")
  (lockWriter store db).mapError AppendError.refusal
  if epochOf db.events ≠ .absent then return db
  else
    let appended ← (appendLocked pg codec db now 0
      [genesisEvent publicRevision (pg.render now)]).mapError AppendError.refusal
    return appended.db

end Gridwork.Kernel
