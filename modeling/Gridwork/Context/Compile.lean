import Gridwork.Context.Truth
import Gridwork.Lib.Sorting
import Gridwork.Lib.Checks

/-!
# The context compiler

`compile` turns a request, a route, an authority and a list of candidates into one
resolved manifest.  It validates the candidates in canonical order, records what
upstream already decided, resolves precedence slot by slot, admits winners against
the byte budget, checks its own completeness and narrowing, and digests the finished
record.
-/

namespace Gridwork.Context

open Domain Lib Std

/-! ## Precedence -/

inductive PrecedenceTier where
  | security | runDeclaration | routeConfig | requestedSkill | automaticSkill | annotation
  deriving DecidableEq

/-- The position of a tier; a smaller rank outranks a larger one. -/
def PrecedenceTier.rank : PrecedenceTier → Nat
  | .security => 0
  | .runDeclaration => 1
  | .routeConfig => 2
  | .requestedSkill => 3
  | .automaticSkill => 4
  | PrecedenceTier.annotation => 5

instance : Min PrecedenceTier where
  min left right := if left.rank ≤ right.rank then left else right

structure Contribution (T : Type) where
  tier : PrecedenceTier
  value : T

/-- The top tier disagreed with itself, so nothing was decided. -/
structure PrecedenceConflict where
  tier : PrecedenceTier
  distinctValues : Nat
  deriving DecidableEq

structure Tally where
  winner : Option Nat
  distinct : Nat

section Resolve

variable {T : Type} [BEq T]

/-- One pass of the resolver's loop.  A top-tier value is compared with those between
the first top-tier contribution and itself, exclusive. -/
def resolveStep (contributions : List (Contribution T)) (top : PrecedenceTier) (tally : Tally)
    (entry : Contribution T × Nat) : Tally :=
  let (contribution, index) := entry
  if contribution.tier ≠ top then tally
  else
    match tally.winner with
    | none => { winner := some index, distinct := 1 }
    | some first =>
      let alreadySeen := (((contributions.take index).drop first).filter
        fun other => other.tier = top).any fun other => other.value == contribution.value
      if alreadySeen then tally else { tally with distinct := tally.distinct + 1 }

/-- Resolve one decision from every tier that spoke to it: nothing spoke, one
contribution won, or the top tier disagreed with itself. -/
def resolve (contributions : List (Contribution T)) : Except PrecedenceConflict (Option Nat) :=
  match (contributions.map Contribution.tier).min? with
  | none => .ok none
  | some top =>
    let tally := contributions.zipIdx.foldl (resolveStep contributions top)
      { winner := none, distinct := 0 }
    if tally.distinct > 1 then .error { tier := top, distinctValues := tally.distinct }
    else .ok tally.winner

end Resolve

/-- A lower tier between two top-tier contributions does not mask their
disagreement. -/
example :
    resolve [⟨.security, "deny"⟩, ⟨ PrecedenceTier.annotation, "allow"⟩, ⟨.security, "allow"⟩] =
      .error { tier := .security, distinctValues := 2 } := by
  decide

/-! ## Inputs -/

/-- The route the manifest is bound to, by digest only. -/
structure Route where
  digest : Digest

structure Authority where
  digest : Digest
  tools : TreeSet String

inductive Standing where
  | ready | notEligible | denied | quarantined | rejected | pinDrift | unreadable

/-- The participation row an upstream verdict becomes; `none` for the one standing
that competes. -/
def Standing.verdict : Standing → Option (ParticipationState × ParticipationReason)
  | .ready => none
  | .notEligible => some (.excluded, .notEligible)
  | .denied => some (.excluded, .permissionDenied)
  | .quarantined => some (.unavailable, .quarantined)
  | .rejected => some (.unavailable, .rejected)
  | .pinDrift => some (.unavailable, .pinDrift)
  | .unreadable => some (.unavailable, .unavailable)

structure Candidate where
  digest : Digest
  contentClass : ContentClass
  slot : String
  tier : PrecedenceTier
  bytes : ByteCount
  claimedTools : List String
  standing : Standing

structure CompileRequest where
  manifestId : ManifestId
  attemptId : AttemptId
  resolvedAt : Timestamp
  budget : Option ByteCount
  evidence : List EvidenceId

inductive CompileError where
  | emptySlot (digest : Digest)
  | slotTooLong (digest : Digest)
  | duplicateCandidate (digest : Digest)
  | precedenceConflict (slot : String) (conflict : PrecedenceConflict)
  | securityCut (digest : Digest) (bytes remaining : ByteCount)
  | sourceBytesOverflow
  | bound (error : TruthRecordError)
  | encode (detail : String)
  | incomplete (offered recorded : Nat)
  | widened (digest : Digest) (tool : String)

/-! ## The passes -/

/-- The canonical order: highest authority first, then slot, then digest. -/
def canonical (left right : Candidate) : Ordering :=
  (compare left.tier.rank right.tier.rank).then
    ((compare left.slot right.slot).then (compare left.digest right.digest))

/-- Sort candidates into canonical order; equal ones keep their order. -/
def sortCanonical (candidates : List Candidate) : List Candidate :=
  sortBy canonical candidates

/-- Refuse a candidate without a slot, with an overlong slot, or offered twice. -/
def validateFrom (seen : TreeSet Digest) : List Candidate → Except CompileError Unit
  | [] => .ok ()
  | candidate :: rest =>
    if candidate.slot.isEmpty then .error (.emptySlot candidate.digest)
    else if candidate.slot.utf8ByteSize > CONTEXT_ID_MAX_BYTES then
      .error (.slotTooLong candidate.digest)
    else if candidate.digest ∈ seen then .error (.duplicateCandidate candidate.digest)
    else validateFrom (seen.insert candidate.digest) rest

/-- The participation rows, keyed and ordered by digest. -/
abbrev Rows := TreeMap Digest Participation

/-- Record one candidate's upstream verdict, or keep it to compete. -/
def recordVerdict (state : Rows × List Candidate) (candidate : Candidate) : Rows × List Candidate :=
  match candidate.standing.verdict with
  | some (participationState, reason) =>
    (state.1.insert candidate.digest
      { digest := candidate.digest
        contentClass := candidate.contentClass
        state := participationState
        reason := some reason
        detail := none }, state.2)
  | none => (state.1, state.2 ++ [candidate])

def groupBySlot (ready : List Candidate) : TreeMap String (List Candidate) :=
  ready.foldl (fun groups candidate =>
    groups.insert candidate.slot (groups.getD candidate.slot [] ++ [candidate])) ∅

/-- Keep the winner of a slot and record the others as precedence losses. -/
def splitWinner (winner : Nat) (state : Rows × List Candidate) (entry : Candidate × Nat) :
    Rows × List Candidate :=
  let (candidate, index) := entry
  if index = winner then (state.1, state.2 ++ [candidate])
  else
    (state.1.insert candidate.digest
      (Participation.excluded candidate.digest candidate.contentClass .precedenceLoss), state.2)

def decideSlot (state : Rows × List Candidate) (entry : String × List Candidate) :
    Except CompileError (Rows × List Candidate) :=
  let (slot, group) := entry
  match resolve (group.map fun candidate => ⟨candidate.tier, candidate.digest⟩) with
  | .ok (some winner) => .ok (group.zipIdx.foldl (splitWinner winner) state)
  | .ok none => .ok state
  | .error conflict => .error (.precedenceConflict slot conflict)

structure Admission where
  remaining : Option ByteCount
  sourceBytes : ByteCount
  tools : TreeMap Digest (TreeSet String)
  rows : Rows

def checkedAdd (left right : UInt64) : Option UInt64 :=
  if left.toNat + right.toNat < 2 ^ 64 then some (left + right) else none

def effectiveTools (authority : Authority) (candidate : Candidate) : TreeSet String :=
  TreeSet.ofList (candidate.claimedTools.filter fun tool => authority.tools.contains tool)

/-- Admit one winner, cut it, or refuse to cut a security constraint. -/
def admitCandidate (authority : Authority) (state : Admission) (candidate : Candidate) :
    Except CompileError Admission :=
  if state.remaining.all fun left => candidate.bytes ≤ left then
    match checkedAdd state.sourceBytes candidate.bytes with
    | none => .error .sourceBytesOverflow
    | some sourceBytes =>
      .ok { remaining := state.remaining.map fun left => left - candidate.bytes
            sourceBytes := sourceBytes
            tools := state.tools.insert candidate.digest (effectiveTools authority candidate)
            rows := state.rows.insert candidate.digest
              (Participation.active candidate.digest candidate.contentClass) }
  else if candidate.tier = .security then
    .error (.securityCut candidate.digest candidate.bytes
      (state.remaining.getD (UInt64.ofNat (2 ^ 64 - 1))))
  else
    .ok { state with
      rows := state.rows.insert candidate.digest
        (Participation.excluded candidate.digest candidate.contentClass .budgetCut) }

/-- The first tool of an emitted set that the authority never granted. -/
def widening (authority : Authority) (tools : TreeMap Digest (TreeSet String)) :
    Option CompileError :=
  tools.toList.findSome? fun entry =>
    (entry.2.toList.find? fun tool => !authority.tools.contains tool).map fun tool =>
      .widened entry.1 tool

/-! ## The record -/

/-- The bare hex a manifest carries while its digest is being computed. -/
def MANIFEST_DIGEST_PLACEHOLDER_HEX : String :=
  "0000000000000000000000000000000000000000000000000000000000000000"

def placeholder : Digest := ⟨MANIFEST_DIGEST_PLACEHOLDER_HEX, by decide⟩

def HEX : List Char :=
  ['0', '1', '2', '3', '4', '5', '6', '7', '8', '9', 'a', 'b', 'c', 'd', 'e', 'f']

def hexLower (bytes : List UInt8) : String :=
  String.ofList (bytes.flatMap fun byte : UInt8 =>
    [HEX.getD (byte >>> 4).toNat '0', HEX.getD (byte &&& 0x0f).toNat '0'])

/-- SHA-256 over the record serialized with the placeholder for its digest. -/
def manifestDigest (encoding : Encoding) (manifest : ResolvedManifest) :
    Except CompileError Digest :=
  match encoding.toVec { manifest with manifestDigest := placeholder } with
  | .error detail => .error (.encode detail)
  | .ok bytes =>
    match Digest.fromHex (hexLower (encoding.sha256 bytes).toList) with
    | .error error => .error (.encode (toString error))
    | .ok digest => .ok digest

def COMPILER : String := "gwk-context-compiler/0.0.1"

/-- Source attribution, derived from the manifest and nothing else. -/
structure ContextAttribution where
  compiler : String
  (routeDigest authorityDigest : Digest)
  derivedFrom : ManifestId

def attribution (manifest : ResolvedManifest) : ContextAttribution where
  compiler := COMPILER
  routeDigest := manifest.routeDigest
  authorityDigest := manifest.authorityDigest
  derivedFrom := manifest.id

structure Compiled where
  manifest : ResolvedManifest
  tools : TreeMap Digest (TreeSet String)
  attribution : ContextAttribution

def countOfLen (length : Nat) : Except TruthRecordError UInt32 :=
  if length < 2 ^ 32 then .ok (UInt32.ofNat length) else .error .countTooLarge

def liftBound {α : Type} (result : Except TruthRecordError α) : Except CompileError α :=
  result.mapError CompileError.bound

/-- The finished record of an admission, before its digest is filled in. -/
def draftManifest (request : CompileRequest) (route : Route) (authority : Authority)
    (admission : Admission) : Except CompileError ResolvedManifest := do
  let active ← liftBound (countOfLen admission.tools.size)
  let sourceCount ← liftBound (RecordCount.new active)
  let participations ←
    liftBound (ParticipationRecords.new (admission.rows.toList.map Prod.snd))
  let evidenceIds ← liftBound (EvidenceRefs.new (sortDedup request.evidence))
  return {
    id := request.manifestId
    attemptId := request.attemptId
    manifestDigest := placeholder
    routeDigest := route.digest
    authorityDigest := authority.digest
    sourceCount := sourceCount
    sourceBytes := admission.sourceBytes
    participations := participations
    evidenceIds := evidenceIds
    resolvedAt := request.resolvedAt }

/-- Precedence, slot by slot, over the candidates upstream left standing. -/
def decideAll (ordered : List Candidate) : Except CompileError (Rows × List Candidate) :=
  let verdicts := ordered.foldl recordVerdict (∅, [])
  (groupBySlot verdicts.2).toList.foldlM decideSlot (verdicts.1, [])

def admitAll (request : CompileRequest) (authority : Authority) (rows : Rows)
    (winners : List Candidate) : Except CompileError Admission :=
  (sortCanonical winners).foldlM (admitCandidate authority)
    { remaining := request.budget, sourceBytes := 0, tools := ∅, rows := rows }

def compile (encoding : Encoding) (request : CompileRequest) (route : Route)
    (authority : Authority) (candidates : List Candidate) : Except CompileError Compiled := do
  let ordered := sortCanonical candidates
  validateFrom ∅ ordered
  let decided ← decideAll ordered
  let admission ← admitAll request authority decided.1 decided.2
  require (admission.rows.size = candidates.length)
    (.incomplete candidates.length admission.rows.size)
  refuseSome (widening authority admission.tools)
  let draft ← draftManifest request route authority admission
  let digest ← manifestDigest encoding draft
  let manifest := { draft with manifestDigest := digest }
  return { manifest := manifest, tools := admission.tools, attribution := attribution manifest }

end Gridwork.Context
