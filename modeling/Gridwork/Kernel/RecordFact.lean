import Gridwork.Kernel.Submit

/-!
# Recording a Context fact

The second append path of the kernel.  `recordContextFact` takes typed values from a
caller in the process: it admits, takes the writer lock, reads the epoch, routes the fact
to its aggregate, answers a used key, checks the cardinalities the schema states and the
ones it cannot state, appends, projects and takes the checkpoint.

It shares the log, the key lookup, the append and the applier with the command path.  It
does not share the owner check: a fact is appended to its aggregate whatever project the
aggregate's first event carries.
-/

namespace Gridwork.Kernel

open Domain Lib Context

def CONTEXT_ACTOR_KIND : String := "kernel"
def CONTEXT_ORIGIN_SYSTEM : String := "gwk-context"

def contextActor : Actor := { kind := CONTEXT_ACTOR_KIND, id := none }

/-- One call of `record_context_fact`. -/
structure Recording where
  store : Store
  moment : Moment
  projectId : ProjectId
  idempotencyKey : IdempotencyKey
  attribution : ContextAttribution
  fact : ContextFact

def conflict (message : String) : Refusal := .new .idempotencyConflict message

/-! ## Routing -/

def attemptOfManifest (tables : ContextTables) (manifestId : ManifestId) :
    Except Refusal AttemptId :=
  match tables.manifest[manifestId.text]? with
  | none => .error (.notFound s!"no context manifest {manifestId.text}")
  | some manifest => .ok manifest.attemptId

/-- The aggregate id of a fact.  The manifest family is keyed by the attempt, which the
facts that carry only a manifest id find through the manifest. -/
def factTarget (tables : ContextTables) : ContextFact → Except Refusal AggregateId
  | .compilationRequested attemptId .. | .manifestResolved _ attemptId .. => .ok attemptId
  | .manifestVerificationRecorded manifestId .. | .releaseRecorded manifestId .. =>
    attemptOfManifest tables manifestId
  | .runOpened runId .. | .observationAppended runId .. | .runClosed runId ..
  | .assuranceCertified runId .. => .ok runId.text
  | .optimizationCandidateProposed candidateId ..
  | .optimizationCandidateDispositioned candidateId .. => .ok candidateId.text

/-- `route_of`: where a fact's event belongs. -/
def factRouteOf (tables : ContextTables) (fact : ContextFact) : Except Refusal Route := do
  let aggregateId ← factTarget tables fact
  return {
    aggregateType := fact.eventName.aggregate.asStr
    aggregateId
    eventType := fact.eventName.asStr }

/-! ## Cardinalities -/

def contentClassStr : ContentClass → String
  | .conformance => "conformance"
  | .privateContent => "private"

/-- Where the blob store already sealed a candidate's bytes, the class the fact states is
the class they were sealed under.  The database returns the sealed rows in no stated order;
they are read here by digest. -/
def checkParticipationClasses (blobs : Rows ContentClass) (participations : ParticipationRecords) :
    Except Refusal Unit :=
  blobs.toList.forM fun (digest, sealedClass) =>
    participations.asSlice.forM fun stated =>
      require (stated.digest.asStr = digest → stated.contentClass = sealedClass)
        (.validation (s!"participation {digest} is stated {contentClassStr stated.contentClass} " ++
          s!"but the CAS sealed those bytes {contentClassStr sealedClass}"))

def requireRun (runId : ContextRunId) (aggregateVersion : UInt32) : Except Refusal Unit :=
  require (aggregateVersion ≠ 0) (.notFound s!"no context run {runId.text}")

def requireManifest (tables : ContextTables) (manifestId : ManifestId) : Except Refusal Unit :=
  require (tables.manifest.contains manifestId.text)
    (.notFound s!"no context manifest {manifestId.text}")

/-- The manifest a fact names, as a query of the log reads it out of the payload. -/
def ContextFact.manifestId : ContextFact → Option ManifestId
  | manifestResolved manifestId .. | manifestVerificationRecorded manifestId ..
  | releaseRecorded manifestId .. | runOpened _ manifestId ..
  | observationAppended _ manifestId .. | assuranceCertified _ manifestId .. => some manifestId
  | compilationRequested .. | runClosed .. | optimizationCandidateProposed ..
  | optimizationCandidateDispositioned .. => none

def newestVerification (events : List Event) (manifestId : ManifestId) : Option ContextFact :=
  (events.filterMap fun event =>
    match event.payload with
    | .context payload =>
      if event.aggregateType = ContextAggregate.contextManifest.asStr ∧
          event.eventType = ContextEventName.manifestVerificationRecorded.asStr ∧
          payload.fact.manifestId = some manifestId then some payload.fact
      else none
    | _ => none).getLast?

/-- `require_verified`: the last recorded verification passed, under the claimed digest. -/
def requireVerified (events : List Event) (manifestId : ManifestId) (claimed : Digest) :
    Except Refusal Unit :=
  match newestVerification events manifestId with
  | none => .error (.notFound s!"context manifest {manifestId.text} has no recorded verification")
  | some (.manifestVerificationRecorded _ _ verdict verificationDigest _ _) => do
    require (verdict = .verified)
      (.validation (s!"context manifest {manifestId.text} was rejected by its verifier and " ++
        "cannot be certified"))
    require (verificationDigest = claimed)
      (.validation (s!"context manifest {manifestId.text} was verified under " ++
        s!"{verificationDigest.asStr}, not {claimed.asStr}"))
  | some _ => .error (.storage "a context verification event carries another fact")

def highestObservation (tables : ContextTables) (manifestId : ManifestId) : Nat :=
  ((tables.observation.values.filter fun row => row.manifestId = manifestId).map
    fun row => row.observationIndex.value.toNat).foldl max 0

def precheck (db : Db) (fact : ContextFact) (aggregateVersion : UInt32) : Except Refusal Unit :=
  let tables := db.tables.context
  match fact with
  | .manifestResolved manifestId attemptId _ _ _ _ _ participations _ _ => do
    require (db.tables.derived.attempt.contains attemptId) (.notFound s!"no attempt {attemptId}")
    require (tables.manifest.contains manifestId.text = false)
      (conflict s!"context manifest {manifestId.text} exists")
    require (∀ manifest ∈ tables.manifest.values, manifest.attemptId ≠ attemptId)
      (conflict s!"attempt {attemptId} already resolved a context manifest")
    checkParticipationClasses tables.blob participations
  | .releaseRecorded manifestId releaseId .. => do
    require (tables.release.contains releaseId.text = false)
      (conflict s!"context release {releaseId.text} exists")
    require (∀ release ∈ tables.release.values, release.manifestId ≠ manifestId)
      (conflict s!"context manifest {manifestId.text} is already released")
  | .runOpened runId manifestId .. => do
    require (aggregateVersion = 0) (conflict s!"context run {runId.text} is already open")
    requireManifest tables manifestId
  | .observationAppended runId manifestId observationId observationIndex .. => do
    requireRun runId aggregateVersion
    requireManifest tables manifestId
    require (tables.observation.contains observationId.text = false)
      (conflict s!"context observation {observationId.text} exists")
    let expected := highestObservation tables manifestId + 1
    require (observationIndex.value.toNat = expected)
      ((Refusal.validation (s!"context manifest {manifestId.text} expects observation index " ++
        s!"{expected}, not {observationIndex.value}")).withDetail
        (.object [("manifest_id", .string manifestId.text), ("expected", jsonNat expected),
          ("got", jsonNat observationIndex.value.toNat)]))
  | .runClosed runId .. => requireRun runId aggregateVersion
  | .assuranceCertified runId manifestId finalizationId _ verificationDigest .. => do
    requireRun runId aggregateVersion
    requireManifest tables manifestId
    require (tables.finalization.contains finalizationId.text = false)
      (conflict s!"context finalization {finalizationId.text} exists")
    require (∀ row ∈ tables.finalization.values, row.manifestId ≠ manifestId)
      (conflict s!"context manifest {manifestId.text} is already finalized")
    requireVerified db.events manifestId verificationDigest
  | .compilationRequested .. | .manifestVerificationRecorded ..
  | .optimizationCandidateProposed .. | .optimizationCandidateDispositioned .. => .ok ()

/-! ## The append -/

def Recording.payload (recording : Recording) : EventBody :=
  .context {
    name := recording.fact.eventName
    attribution := recording.attribution
    fact := recording.fact }

def contextEvent (recording : Recording) (route : Route) (aggregateVersion : UInt32) : Event where
  eventId := eventIdOf route.aggregateType route.aggregateId aggregateVersion
  projectId := recording.projectId
  aggregateType := route.aggregateType
  aggregateId := route.aggregateId
  aggregateVersion := aggregateVersion
  eventType := route.eventType
  schemaVersion := ENVELOPE_SCHEMA_VERSION
  globalSequence := 0
  occurredAt := recording.fact.factTimestamp
  appendedAt := recording.fact.factTimestamp
  actor := contextActor
  origin := { system := CONTEXT_ORIGIN_SYSTEM, ref := none }
  causationId := none
  correlationId := none
  idempotencyKey := some recording.idempotencyKey
  payload := recording.payload
  payloadRef := none

def Recording.named (recording : Recording) (route : Route) (event : Event) : Prop :=
  event.projectId = recording.projectId ∧ event.aggregateType = route.aggregateType ∧
    event.aggregateId = route.aggregateId ∧ event.actor = contextActor ∧
    event.payload = recording.payload
  deriving Decidable

variable (pg : Postgres) (codec : Codec)

def recordNew (db : Db) (recording : Recording) (route : Route) : Except Refusal Appended := do
  let expected := currentAggregateVersion db.events route.aggregateType route.aggregateId
  precheck db recording.fact expected
  match checkedSucc expected with
  | none =>
    throw (.new .staleVersion (s!"{route.aggregateType}/{route.aggregateId} is at the version " ++
      "ceiling"))
  | some aggregateVersion =>
    let appended ← (appendLocked pg codec db recording.moment.now expected
      [contextEvent recording route aggregateVersion]).mapError AppendError.refusal
    let projected ← projectAppended (pg.asOf recording.moment.now) appended
    return { appended with
      db := checkpointIfDue pg codec recording.store db.writer recording.moment.now
        appended.events projected }

/-- `record_context_fact`: the events, and the database it leaves. -/
def recordContextFact (db : Db) (recording : Recording) : Except Refusal Appended := do
  require (recording.moment.permit = true) overloaded
  storageAnswers recording.moment
  (lockWriter recording.store db).mapError AppendError.refusal
  require (epochOf db.events = .active)
    (sealedRefusal (epochOf db.events) recording.fact.eventName.asStr)
  let route ← factRouteOf db.tables.context recording.fact
  let stored := eventsForKey db.events recording.projectId route.aggregateType route.aggregateId
    recording.idempotencyKey
  match stored with
  | [] => recordNew pg codec db recording route
  | first :: rest => do
    require (rest = [] ∧ recording.named route first)
      (conflict (s!"idempotency key {debugStr recording.idempotencyKey} already names a " ++
        s!"different request on {first.aggregateType}/{first.aggregateId}"))
    return { events := stored, replayed := true, db }

end Gridwork.Kernel
