import Gridwork.Context.Truth
import Gridwork.Lib.Checks

/-!
# The independent verifier

`verify` checks the four truth records of one attempt against each other and against
the evidence a store holds, without the compiler's code.  Its digest, its order
checks and its counts are second readings of the canonical form; the definitions here
share only the records of `Gridwork.Context.Truth` with the compiler's.
-/

namespace Gridwork.Context.Verifier

open Domain Lib Std

inductive VerifyError where
  | manifestDigest (recorded recomputed : Digest)
  | encode (detail : String)
  | participationOrder (position : Nat)
  | participationDuplicate (digest : Digest)
  | sourceCount (recorded : UInt32) (active : Nat)
  | evidenceOrder (position : Nat)
  | evidenceDuplicate (id : EvidenceId)
  | supplementBinding (named expected : ManifestId)
  | observationSequence (position : Nat) (index : UInt32)
  | observationCount (recorded : UInt32) (observed : Nat)
  | evidenceUnresolved (id : EvidenceId)
  | lifecycleIncomplete

/-- The four truth records for one attempt, as a reader holds them. -/
structure Package where
  manifest : ResolvedManifest
  release : Option ReleaseSupplement
  observations : List ObservationSupplement
  finalization : Option FinalizationSupplement

/-! ## The digest -/

def MANIFEST_DIGEST_PLACEHOLDER_HEX : String :=
  "0000000000000000000000000000000000000000000000000000000000000000"

def fromDigit (digit : Nat) : Option Char :=
  if digit < 10 then some (Char.ofNat (48 + digit))
  else if digit < 16 then some (Char.ofNat (87 + digit))
  else none

def hexLower (bytes : Vector UInt8 32) : String :=
  String.ofList (bytes.toList.flatMap fun byte : UInt8 =>
    [(fromDigit (byte >>> 4).toNat).getD '0', (fromDigit (byte &&& 0x0f).toNat).getD '0'])

def liftDigest (result : Except DigestError Digest) : Except VerifyError Digest :=
  result.mapError fun error => VerifyError.encode (toString error)

/-- SHA-256 over the record serialized with the placeholder for its digest. -/
def manifestDigest (encoding : Encoding) (manifest : ResolvedManifest) :
    Except VerifyError Digest := do
  let placeholder ← liftDigest (Digest.fromHex MANIFEST_DIGEST_PLACEHOLDER_HEX)
  let bytes ← (encoding.toVec { manifest with manifestDigest := placeholder }).mapError
    VerifyError.encode
  liftDigest (Digest.fromHex (hexLower (encoding.sha256 bytes)))

/-! ## Order and uniqueness -/

def ascending {α : Type} [Ord α] (duplicate : α → VerifyError) (disorder : Nat → VerifyError) :
    Nat → List α → Except VerifyError Unit
  | position, first :: second :: rest =>
    match compare first second with
    | .lt => ascending duplicate disorder (position + 1) (second :: rest)
    | .eq => .error (duplicate first)
    | .gt => .error (disorder (position + 1))
  | _, _ => .ok ()

def rowsAreOrderedAndUnique (rows : List Participation) : Except VerifyError Unit :=
  ascending .participationDuplicate .participationOrder 0 (rows.map Participation.digest)

def evidenceIsOrderedAndUnique (ids : List EvidenceId) : Except VerifyError Unit :=
  ascending .evidenceDuplicate .evidenceOrder 0 ids

/-! ## The manifest -/

def activeRows (rows : List Participation) : Nat :=
  (rows.filter fun row => row.state = .active).length

def verifyManifest (encoding : Encoding) (manifest : ResolvedManifest) :
    Except VerifyError Unit := do
  let recomputed ← manifestDigest encoding manifest
  require (recomputed = manifest.manifestDigest)
    (.manifestDigest manifest.manifestDigest recomputed)
  let rows := manifest.participations.asSlice
  rowsAreOrderedAndUnique rows
  let active := activeRows rows
  require (manifest.sourceCount.value.toNat = active)
    (.sourceCount manifest.sourceCount.value active)
  evidenceIsOrderedAndUnique manifest.evidenceIds.asSlice

/-! ## The package -/

def bindsTo (named expected : ManifestId) : Except VerifyError Unit :=
  require (named = expected) (.supplementBinding named expected)

def verifyRelease (manifestId : ManifestId) (release : ReleaseSupplement) :
    Except VerifyError Unit := do
  bindsTo release.manifestId manifestId
  evidenceIsOrderedAndUnique release.evidenceIds.asSlice

/-- `u32::try_from(position + 1).unwrap_or(u32::MAX)`. -/
def expectedIndex (position : Nat) : UInt32 :=
  if position + 1 < 2 ^ 32 then UInt32.ofNat (position + 1) else UInt32.ofNat (2 ^ 32 - 1)

/-- Observation indices are `1..=n`, in order, without gaps. -/
def verifyObservation (manifestId : ManifestId) (entry : ObservationSupplement × Nat) :
    Except VerifyError Unit := do
  let (observation, position) := entry
  bindsTo observation.manifestId manifestId
  evidenceIsOrderedAndUnique observation.evidenceIds.asSlice
  require (observation.observationIndex.value = expectedIndex position)
    (.observationSequence position observation.observationIndex.value)

def verifyFinalization (package : Package) (finalization : FinalizationSupplement) :
    Except VerifyError Unit := do
  bindsTo finalization.manifestId package.manifest.id
  evidenceIsOrderedAndUnique finalization.evidenceIds.asSlice
  require (finalization.observationCount.value.toNat = package.observations.length)
    (.observationCount finalization.observationCount.value package.observations.length)
  require (¬ (finalization.lifecycleComplete ∧ package.release.isNone)) .lifecycleIncomplete

def citedEvidence (package : Package) : TreeSet EvidenceId :=
  let manifest := TreeSet.ofList package.manifest.evidenceIds.asSlice
  let released := manifest.insertMany
    ((package.release.map fun release => release.evidenceIds.asSlice).getD [])
  let observed := package.observations.foldl
    (fun cited observation => cited.insertMany observation.evidenceIds.asSlice) released
  observed.insertMany
    ((package.finalization.map fun finalization => finalization.evidenceIds.asSlice).getD [])

def resolves (knownEvidence : TreeSet EvidenceId) (id : EvidenceId) : Except VerifyError Unit :=
  require (id ∈ knownEvidence) (.evidenceUnresolved id)

/-- Every property the four records claim, checked against each other and against the
evidence a store holds. -/
def verify (encoding : Encoding) (package : Package) (knownEvidence : TreeSet EvidenceId) :
    Except VerifyError Unit := do
  verifyManifest encoding package.manifest
  package.release.toList.forM (verifyRelease package.manifest.id)
  package.observations.zipIdx.forM (verifyObservation package.manifest.id)
  package.finalization.toList.forM (verifyFinalization package)
  (citedEvidence package).toList.forM (resolves knownEvidence)

end Gridwork.Context.Verifier
