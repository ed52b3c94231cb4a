import Gridwork.Domain.Envelope
import Mathlib.Data.List.Sort

/-!
# Context truth records

The records a compile emits and the verifier checks: one resolved manifest per
attempt, and the release, observation and finalization supplements attached to it
later.  Bounded metadata is kept in structures whose fields carry the bound, so
that a `Digest`, a `ContextId`, a `RecordCount`, an `EvidenceRefs` or a
`ParticipationRecords` that fails its constructor's checks cannot be built.
-/

namespace Gridwork.Context

open Domain

/-! ## Digests -/

def DIGEST_SCHEME : String := "sha256:"

def isSha256Hex (text : String) : Bool :=
  text.toList.length == 64 && text.toList.all fun c => c.isDigit || ('a' ≤ c && c ≤ 'f')

inductive DigestError where
  | unknownScheme | malformedDigest

instance : ToString DigestError where
  toString
    | .unknownScheme => "digest must start with " ++ DIGEST_SCHEME
    | .malformedDigest => "digest must be a lowercase 64-hex sha-256"

/-- A validated `sha256:<lowercase 64-hex>` digest, by its bare hex. -/
structure Digest where
  hex : String
  legal : isSha256Hex hex = true
  deriving DecidableEq

namespace Digest

def asStr (digest : Digest) : String :=
  DIGEST_SCHEME ++ digest.hex

def fromHex (hex : String) : Except DigestError Digest :=
  if legal : isSha256Hex hex = true then .ok ⟨hex, legal⟩ else .error .malformedDigest

/-- Digests compare by their text, and all of them share the scheme. -/
instance : Ord Digest where
  compare := compareOn Digest.hex

instance : Std.TransOrd Digest :=
  inferInstanceAs (Std.TransCmp (compareOn Digest.hex))

instance : Std.LawfulEqOrd Digest where
  eq_of_compare {left right} eq := by
    have hexes : left.hex = right.hex := Std.compare_eq_iff_eq.mp eq
    cases left
    cases right
    simpa using hexes

end Digest

/-! ## Bounded metadata -/

/-- Maximum UTF-8 bytes in any Context truth-record identifier. -/
def CONTEXT_ID_MAX_BYTES : Nat := 128

/-- Maximum evidence references carried inline by one truth record. -/
def CONTEXT_EVIDENCE_MAX_COUNT : Nat := 64

/-- Maximum candidate participation rows carried by one resolved manifest. -/
def CONTEXT_PARTICIPATION_MAX_COUNT : Nat := 4096

/-- Maximum UTF-8 bytes in a participation's human-facing detail. -/
def CONTEXT_PARTICIPATION_DETAIL_MAX_BYTES : Nat := 1024

def CONTEXT_RECORD_COUNT_MAX : UInt32 := 65535

inductive TruthRecordError where
  | emptyId | idTooLong | invalidIdCharacter | tooManyEvidenceRefs | invalidEvidenceRef
  | tooManyParticipations | invalidParticipation | participationDetailTooLong | countTooLarge
  | observationIndexOutOfRange
  deriving DecidableEq

def idIsValid (value : String) : Except TruthRecordError Unit :=
  if value.isEmpty then .error .emptyId
  else if value.utf8ByteSize > CONTEXT_ID_MAX_BYTES then .error .idTooLong
  else if !value.toList.all (fun c => c.isAlphanum || c == '.' || c == '_' || c == ':' || c == '-')
  then .error .invalidIdCharacter
  else .ok ()

structure ContextId where
  text : String
  valid : idIsValid text = .ok ()
  deriving DecidableEq

abbrev ManifestId := ContextId

abbrev AttemptId := String
abbrev EvidenceId := String

structure RecordCount where
  value : UInt32
  bounded : value ≤ CONTEXT_RECORD_COUNT_MAX
  deriving DecidableEq

def RecordCount.new (value : UInt32) : Except TruthRecordError RecordCount :=
  if bounded : value ≤ CONTEXT_RECORD_COUNT_MAX then .ok ⟨value, bounded⟩
  else .error .countTooLarge

structure ObservationIndex where
  value : UInt32
  bounded : value ≠ 0 ∧ value ≤ CONTEXT_RECORD_COUNT_MAX
  deriving DecidableEq

/-- Bounded evidence references stored inline with a truth record. -/
structure EvidenceRefs where
  asSlice : List EvidenceId
  short : asSlice.length ≤ CONTEXT_EVIDENCE_MAX_COUNT
  valid : ∀ id ∈ asSlice, idIsValid id = .ok ()
  deriving DecidableEq

def EvidenceRefs.new (values : List EvidenceId) : Except TruthRecordError EvidenceRefs :=
  if short : values.length ≤ CONTEXT_EVIDENCE_MAX_COUNT then
    if valid : ∀ id ∈ values, idIsValid id = .ok () then .ok ⟨values, short, valid⟩
    else .error .invalidEvidenceRef
  else .error .tooManyEvidenceRefs

/-! ## Participation -/

inductive ContentClass where
  | conformance | privateContent
  deriving DecidableEq

inductive ParticipationState where
  | available | selectable | active | excluded | unavailable
  deriving DecidableEq

def ParticipationState.requiresReason : ParticipationState → Bool
  | .excluded => true
  | .unavailable => true
  | _ => false

inductive ParticipationReason where
  | precedenceLoss | permissionDenied | budgetCut | quarantined | rejected | pinDrift | notEligible
  | unavailable
  deriving DecidableEq

/-- One candidate's participation record inside a resolved manifest. -/
structure Participation where
  digest : Digest
  contentClass : ContentClass
  state : ParticipationState
  reason : Option ParticipationReason
  detail : Option String
  deriving DecidableEq

/-- Why a participation record is not internally consistent. -/
inductive ParticipationError where
  | missingReason | unexpectedReason | detailWithoutReason

namespace Participation

def active (digest : Digest) (contentClass : ContentClass) : Participation where
  digest := digest
  contentClass := contentClass
  state := .active
  reason := none
  detail := none

def excluded (digest : Digest) (contentClass : ContentClass) (reason : ParticipationReason) :
    Participation where
  digest := digest
  contentClass := contentClass
  state := .excluded
  reason := some reason
  detail := none

def validate (participation : Participation) : Except ParticipationError Unit :=
  match participation.state.requiresReason, participation.reason.isSome with
  | true, false => .error .missingReason
  | false, true => .error .unexpectedReason
  | _, _ =>
    if participation.detail.isSome ∧ participation.reason.isNone then .error .detailWithoutReason
    else .ok ()

end Participation

def checkParticipation (participation : Participation) : Except TruthRecordError Unit :=
  match participation.validate with
  | .error _ => .error .invalidParticipation
  | .ok () =>
    if participation.detail.any fun detail =>
        detail.utf8ByteSize > CONTEXT_PARTICIPATION_DETAIL_MAX_BYTES then
      .error .participationDetailTooLong
    else .ok ()

/-- Bounded, internally consistent participation records for one manifest. -/
structure ParticipationRecords where
  asSlice : List Participation
  short : asSlice.length ≤ CONTEXT_PARTICIPATION_MAX_COUNT
  valid : asSlice.forM checkParticipation = .ok ()
  deriving DecidableEq

def ParticipationRecords.new (values : List Participation) :
    Except TruthRecordError ParticipationRecords :=
  if short : values.length ≤ CONTEXT_PARTICIPATION_MAX_COUNT then
    match valid : values.forM checkParticipation with
    | .error error => .error error
    | .ok () => .ok ⟨values, short, valid⟩
  else .error .tooManyParticipations

/-! ## The four records -/

/-- The one immutable compiler output for a spawn attempt. -/
structure ResolvedManifest where
  id : ManifestId
  attemptId : AttemptId
  (manifestDigest routeDigest authorityDigest : Digest)
  sourceCount : RecordCount
  sourceBytes : ByteCount
  participations : ParticipationRecords
  evidenceIds : EvidenceRefs
  resolvedAt : Timestamp

/-- The adapter-rendered material and tool schemas released to an engine. -/
structure ReleaseSupplement where
  id : ContextId
  manifestId : ManifestId
  (renderedDigest toolSchemaDigest : Digest)
  renderedBytes : ByteCount
  toolSchemaCount : RecordCount
  evidenceIds : EvidenceRefs
  releasedAt : Timestamp

/-- One ordered post-boundary fact and the visibility limit around it. -/
structure ObservationSupplement where
  id : ContextId
  manifestId : ManifestId
  observationIndex : ObservationIndex
  factDigest : Digest
  observedBytes : ByteCount
  visibleSourceCount : RecordCount
  truncated : Bool
  evidenceIds : EvidenceRefs
  observedAt : Timestamp

/-- The assurance level a completed run is eligible to claim. -/
inductive Assurance where
  | trace | deterministic
  deriving DecidableEq

/-- The completed run's outputs, verification, lifecycle root and assurance. -/
structure FinalizationSupplement where
  id : ContextId
  manifestId : ManifestId
  (outputDigest verificationDigest : Digest)
  (approvalCount observationCount : RecordCount)
  finalEventRoot : Digest
  lifecycleComplete : Bool
  assurance : Assurance
  evidenceIds : EvidenceRefs
  finalizedAt : Timestamp

/-! ## Encoding -/

/-- The two functions both crates take from libraries: the JSON serialization of a
manifest, which may fail with a message, and SHA-256. -/
structure Encoding where
  toVec : ResolvedManifest → Except String (List UInt8)
  sha256 : List UInt8 → Vector UInt8 32

end Gridwork.Context
