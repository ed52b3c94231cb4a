import Gridwork.Context.Truth
import Gridwork.Kernel.Tables

/-!
# Context lifecycle facts

The ten facts the Context plane records in the log, the payload the kernel files them
under, and the four truth tables they are projected into.  A row's timestamp is kept as
the text the database gives back for it.
-/

namespace Gridwork.Kernel

open Domain Lib Context

/-! ## Facts -/

abbrev ContextRunId := ContextId
abbrev OptimizationCandidateId := ContextId
abbrev ReleaseSupplementId := ContextId
abbrev ObservationSupplementId := ContextId
abbrev FinalizationSupplementId := ContextId

def CONTEXT_ATTRIBUTION_MAX_BYTES : Nat := 128

def CONTEXT_CANDIDATE_ROUTE_MAX_COUNT : Nat := 64

structure AttributionPart where
  text : String
  nonempty : text.isEmpty = false
  bounded : text.utf8ByteSize ≤ CONTEXT_ATTRIBUTION_MAX_BYTES
  deriving DecidableEq

structure RouteCount where
  value : UInt32
  bounded : value.toNat ≤ CONTEXT_CANDIDATE_ROUTE_MAX_COUNT
  deriving DecidableEq

inductive VerificationVerdict where
  | verified | rejected
  deriving DecidableEq

inductive CandidateDisposition where
  | applied | declined | superseded
  deriving DecidableEq

inductive ContextAggregate where
  | contextManifest | contextRun | contextOptimization

def ContextAggregate.asStr : ContextAggregate → String
  | .contextManifest => "context_manifest"
  | .contextRun => "context_run"
  | .contextOptimization => "context_optimization"

def ContextAggregate.ALL : List ContextAggregate :=
  [.contextManifest, .contextRun, .contextOptimization]

inductive ContextEventName where
  | compilationRequested | manifestResolved | manifestVerificationRecorded | releaseRecorded
  | runOpened | observationAppended | runClosed | assuranceCertified
  | optimizationCandidateProposed | optimizationCandidateDispositioned
  deriving DecidableEq

namespace ContextEventName

def asStr : ContextEventName → String
  | compilationRequested => "context_manifest_compilation_requested"
  | manifestResolved => "context_manifest_resolved"
  | manifestVerificationRecorded => "context_manifest_verification_recorded"
  | releaseRecorded => "context_manifest_release_recorded"
  | runOpened => "context_run_opened"
  | observationAppended => "context_run_observation_appended"
  | runClosed => "context_run_closed"
  | assuranceCertified => "context_run_assurance_certified"
  | optimizationCandidateProposed => "context_optimization_candidate_proposed"
  | optimizationCandidateDispositioned => "context_optimization_candidate_dispositioned"

def aggregate : ContextEventName → ContextAggregate
  | compilationRequested | manifestResolved | manifestVerificationRecorded | releaseRecorded =>
    .contextManifest
  | runOpened | observationAppended | runClosed | assuranceCertified => .contextRun
  | optimizationCandidateProposed | optimizationCandidateDispositioned => .contextOptimization

end ContextEventName

/-- `ContextFact`. -/
inductive ContextFact where
  | compilationRequested (attemptId : AttemptId) (routeDigest authorityDigest : Digest)
      (requestedAt : Timestamp)
  | manifestResolved (manifestId : ManifestId) (attemptId : AttemptId)
      (manifestDigest routeDigest authorityDigest : Digest) (sourceCount : RecordCount)
      (sourceBytes : ByteCount) (participations : ParticipationRecords)
      (evidenceIds : EvidenceRefs) (resolvedAt : Timestamp)
  | manifestVerificationRecorded (manifestId : ManifestId) (manifestDigest : Digest)
      (verdict : VerificationVerdict) (verificationDigest : Digest) (evidenceIds : EvidenceRefs)
      (verifiedAt : Timestamp)
  | releaseRecorded (manifestId : ManifestId) (releaseId : ReleaseSupplementId)
      (renderedDigest toolSchemaDigest : Digest) (renderedBytes : ByteCount)
      (toolSchemaCount : RecordCount) (evidenceIds : EvidenceRefs) (releasedAt : Timestamp)
  | runOpened (runId : ContextRunId) (manifestId : ManifestId) (releaseId : ReleaseSupplementId)
      (openedAt : Timestamp)
  | observationAppended (runId : ContextRunId) (manifestId : ManifestId)
      (observationId : ObservationSupplementId) (observationIndex : ObservationIndex)
      (factDigest : Digest) (observedBytes : ByteCount) (visibleSourceCount : RecordCount)
      (truncated : Bool) (evidenceIds : EvidenceRefs) (observedAt : Timestamp)
  | runClosed (runId : ContextRunId) (finalizationId : FinalizationSupplementId)
      (outputDigest : Digest) (observationCount : RecordCount) (lifecycleComplete : Bool)
      (closedAt : Timestamp)
  | assuranceCertified (runId : ContextRunId) (manifestId : ManifestId)
      (finalizationId : FinalizationSupplementId) (outputDigest verificationDigest : Digest)
      (approvalCount observationCount : RecordCount) (finalEventRoot : Digest)
      (lifecycleComplete : Bool) (assurance : Assurance) (evidenceIds : EvidenceRefs)
      (closedAt certifiedAt : Timestamp)
  | optimizationCandidateProposed (candidateId : OptimizationCandidateId)
      (patchDigest expectedEffectDigest : Digest) (affectedRouteCount : RouteCount)
      (evidenceIds : EvidenceRefs) (proposedAt : Timestamp)
  | optimizationCandidateDispositioned (candidateId : OptimizationCandidateId)
      (disposition : CandidateDisposition) (reviewDigest : Digest) (dispositionedAt : Timestamp)
  deriving DecidableEq

namespace ContextFact

def eventName : ContextFact → ContextEventName
  | compilationRequested .. => .compilationRequested
  | manifestResolved .. => .manifestResolved
  | manifestVerificationRecorded .. => .manifestVerificationRecorded
  | releaseRecorded .. => .releaseRecorded
  | runOpened .. => .runOpened
  | observationAppended .. => .observationAppended
  | runClosed .. => .runClosed
  | assuranceCertified .. => .assuranceCertified
  | optimizationCandidateProposed .. => .optimizationCandidateProposed
  | optimizationCandidateDispositioned .. => .optimizationCandidateDispositioned

/-- `fact_timestamp`: the timestamp the fact itself states. -/
def factTimestamp : ContextFact → Timestamp
  | compilationRequested _ _ _ requestedAt => requestedAt
  | manifestResolved _ _ _ _ _ _ _ _ _ resolvedAt => resolvedAt
  | manifestVerificationRecorded _ _ _ _ _ verifiedAt => verifiedAt
  | releaseRecorded _ _ _ _ _ _ _ releasedAt => releasedAt
  | runOpened _ _ _ openedAt => openedAt
  | observationAppended _ _ _ _ _ _ _ _ _ observedAt => observedAt
  | runClosed _ _ _ _ _ closedAt => closedAt
  | assuranceCertified _ _ _ _ _ _ _ _ _ _ _ _ certifiedAt => certifiedAt
  | optimizationCandidateProposed _ _ _ _ _ proposedAt => proposedAt
  | optimizationCandidateDispositioned _ _ _ dispositionedAt => dispositionedAt

end ContextFact

structure ContextAttribution where
  compiler : AttributionPart
  (routeDigest authorityDigest : Digest)
  derivedFrom : ManifestId
  deriving DecidableEq

structure ContextEventPayload where
  name : ContextEventName
  attribution : ContextAttribution
  fact : ContextFact
  deriving DecidableEq

def isContextAggregate (aggregateType : String) : Bool :=
  ContextAggregate.ALL.any fun candidate => candidate.asStr == aggregateType

/-! ## The truth tables -/

/-- The Context truth tables, and the content class of each sealed blob. -/
structure ContextTables where
  manifest : Rows ResolvedManifest
  release : Rows ReleaseSupplement
  observation : Rows ObservationSupplement
  finalization : Rows FinalizationSupplement
  blob : Rows ContentClass

def ContextTables.empty : ContextTables where
  manifest := ∅
  release := ∅
  observation := ∅
  finalization := ∅
  blob := ∅

/-- `INSERT … ON CONFLICT (id) DO NOTHING`: a taken id is absorbed, every other
constraint still raises. -/
def absorb {Row : Type} (rows : Rows Row) (key : String) (row : Row)
    (constraints : Except Refusal Unit) : Except Refusal (Rows Row) :=
  if rows.contains key then .ok rows
  else do
    constraints
    return rows.insert key row

variable (pg : Postgres)

/-- A one-per-manifest constraint and the reference to that manifest. -/
def onePerManifest {Row : Type} (context : String) (tables : ContextTables) (rows : Rows Row)
    (manifestOf : Row → ManifestId) (manifestId : ManifestId) : Except Refusal Unit := do
  Rows.unique (.db context "one per manifest") manifestOf manifestId rows
  Rows.references (.db context "manifest_id") (some manifestId.text) tables.manifest

def projectFact (attempts : Rows Attempt) (tables : ContextTables) :
    ContextFact → Except Refusal ContextTables
  | .manifestResolved manifestId attemptId manifestDigest routeDigest authorityDigest sourceCount
      sourceBytes participations evidenceIds resolvedAt => do
      let context := "insert context manifest"
      let time ← timestamptz pg context resolvedAt
      let row : ResolvedManifest := ⟨manifestId, attemptId, manifestDigest, routeDigest,
        authorityDigest, sourceCount, sourceBytes, participations, evidenceIds, pg.render time⟩
      let manifest ← absorb tables.manifest manifestId.text row do
        Rows.unique (.db context "one per attempt") (·.attemptId) attemptId tables.manifest
        Rows.references (.db context "attempt_id") (some attemptId) attempts
      return { tables with manifest }
  | .releaseRecorded manifestId releaseId renderedDigest toolSchemaDigest renderedBytes
      toolSchemaCount evidenceIds releasedAt => do
      let context := "insert context release"
      let time ← timestamptz pg context releasedAt
      let row : ReleaseSupplement := ⟨releaseId, manifestId, renderedDigest, toolSchemaDigest,
        renderedBytes, toolSchemaCount, evidenceIds, pg.render time⟩
      let release ← absorb tables.release releaseId.text row
        (onePerManifest context tables tables.release (·.manifestId) manifestId)
      return { tables with release }
  | .observationAppended _ manifestId observationId observationIndex factDigest observedBytes
      visibleSourceCount truncated evidenceIds observedAt => do
      let context := "insert context observation"
      let time ← timestamptz pg context observedAt
      let row : ObservationSupplement := ⟨observationId, manifestId, observationIndex, factDigest,
        observedBytes, visibleSourceCount, truncated, evidenceIds, pg.render time⟩
      let observation ← absorb tables.observation observationId.text row do
        Rows.unique (.db context "one per index")
          (fun row => (row.manifestId, row.observationIndex.value))
          (manifestId, observationIndex.value) tables.observation
        Rows.references (.db context "manifest_id") (some manifestId.text) tables.manifest
      return { tables with observation }
  | .assuranceCertified _ manifestId finalizationId outputDigest verificationDigest approvalCount
      observationCount finalEventRoot lifecycleComplete assurance evidenceIds closedAt _ => do
      let context := "insert context finalization"
      -- The row dates the close, not the certification.
      let time ← timestamptz pg context closedAt
      let row : FinalizationSupplement := ⟨finalizationId, manifestId, outputDigest,
        verificationDigest, approvalCount, observationCount, finalEventRoot, lifecycleComplete,
        assurance, evidenceIds, pg.render time⟩
      let finalization ← absorb tables.finalization finalizationId.text row
        (onePerManifest context tables tables.finalization (·.manifestId) manifestId)
      return { tables with finalization }
  | .compilationRequested .. | .manifestVerificationRecorded .. | .runOpened .. | .runClosed ..
  | .optimizationCandidateProposed .. | .optimizationCandidateDispositioned .. => .ok tables

end Gridwork.Kernel
