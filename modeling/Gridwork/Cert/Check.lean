import Gridwork.Domain.Transition
import Gridwork.Lib.Table
import Gridwork.Lib.Text

/-!
# The stream checker

`checkStream` replays an exported event stream against the contract and returns
every violation it finds.  The loop body is `checkEvent`; its state carries the
findings so far, the last sequence number, the replayed state and version of every
aggregate, the idempotency keys seen, the aggregates whose creation was seen, and
what each stop command declared at creation.

The expected version of an aggregate's next event is computed with a plain `+ 1` on
a `u32`.  `checkEvent` answers `none` for the overflow panic of a build with
overflow checks.
-/

namespace Gridwork.Cert

open Lib Domain

/-- An exported event: its payload is a JSON tree. -/
abbrev Event := EventEnvelope Json

/-! ## Findings -/

inductive FindingCode where
  | envelopeMalformed | schemaVersionUnknown | seqNotIncreasing | createdNotFirst | creationMissing
  | creationStateInvalid | aggregateVersionGap | stateChangeMalformed | fromStateMismatch
  | illegalTransition | terminalMutation | flipWrongActor | flipMissingReceipt
  | idempotencyDuplicate | outcomeMissing | outcomeOnNonTerminal | outcomeDisagreesWithTargets
  | inlinePayloadTooLarge | payloadRefInvalid
  deriving DecidableEq

structure Finding where
  code : FindingCode
  seq : Option Seq
  eventId : Option EventId
  message : String
  deriving DecidableEq

variable (event : Event)

def findingAt (code : FindingCode) (message : String) : Finding where
  code := code
  seq := some event.globalSequence
  eventId := some event.eventId
  message := message

/-! ## Reading an event -/

def payloadStr (key : String) : Option String :=
  (event.payload.get key).bind Json.asStr

/-- The `targets` array of a command payload, if present and an array. -/
def payloadTargets : Option (List String) :=
  ((event.payload.get "targets").bind Json.asArray).map fun items => items.filterMap Json.asStr

def endsWith (text suffix : String) : Bool :=
  suffix.toList.isSuffixOf text.toList

def isCreation : Bool :=
  endsWith event.eventType "_created"

def isStateChange : Bool :=
  endsWith event.eventType "_state_changed"

/-- The declared initial state of a machine-governed aggregate type. -/
def machineInitial : String → Option String
  | "task" => some "submitted"
  | "attempt" => some "queued"
  | "message" => some "accepted"
  | "command" => some "issued"
  | _ => none

/-- Edge legality and terminality of two state names of the machine `S`.  An
unknown name is an illegal transition. -/
def checkNames (S : Type) [DecidableEq S] [StateMachine S] (source target : String) : Bool × Bool :=
  match (StateMachine.parse source : Option S), (StateMachine.parse target : Option S) with
  | some f, some t => (StateMachine.canTransition f t, StateMachine.isTerminal f)
  | _, _ => (false, false)

/-- Edge legality and terminality by wire name; `none` for an aggregate type no
machine governs. -/
def fsmCheck (aggregateType source target : String) : Option (Bool × Bool) :=
  match aggregateType with
  | "task" => some (checkNames TaskState source target)
  | "attempt" => some (checkNames AttemptState source target)
  | "message" => some (checkNames MessageState source target)
  | "command" => some (checkNames CommandState source target)
  | _ => none

/-! ## Canonical spelling of an aggregate type -/

/-- Fold the common Cyrillic and Greek homoglyphs of the letters that spell the
governed names. -/
def foldConfusable (c : Char) : Char :=
  match c.toNat with
  | 0x0430 | 0x03B1 => 'a'
  | 0x0435 | 0x03B5 => 'e'
  | 0x043E | 0x03BF => 'o'
  | 0x0441 => 'c'
  | 0x0440 | 0x03C1 => 'p'
  | 0x0442 | 0x03C4 => 't'
  | 0x043A | 0x03BA => 'k'
  | 0x043C | 0x03BC => 'm'
  | 0x0455 => 's'
  | 0x0501 => 'd'
  | _ => c

variable (text : String)

def foldConfusables : String :=
  String.ofList (text.toList.map foldConfusable)

/-- The Unicode `White_Space` property, as `char::is_whitespace` tests it. -/
def isWhitespace (c : Char) : Bool :=
  let n := c.toNat
  (9 ≤ n ∧ n ≤ 13) ∨ n = 0x20 ∨ n = 0x85 ∨ n = 0xA0 ∨ n = 0x1680 ∨
    (0x2000 ≤ n ∧ n ≤ 0x200A) ∨ n = 0x2028 ∨ n = 0x2029 ∨ n = 0x202F ∨ n = 0x205F ∨ n = 0x3000

def trim : String :=
  String.ofList ((text.toList.dropWhile isWhitespace).reverse.dropWhile isWhitespace).reverse

def toAsciiLowercase : String :=
  String.ofList (text.toList.map fun c =>
    if 65 ≤ c.toNat ∧ c.toNat ≤ 90 then Char.ofNat (c.toNat + 32) else c)

/-- The spelling every machine dispatch uses: trimmed and lowercased, and folded
only where folding reveals a governed name. -/
def canonicalType (aggregateType : String) : String :=
  let trimmed := toAsciiLowercase (trim aggregateType)
  if (machineInitial trimmed).isSome then trimmed
  else
    let folded := foldConfusables trimmed
    if (machineInitial folded).isSome then folded else trimmed

/-- A homoglyph spelling is read as the machine it imitates, and an unrelated type
is left alone. -/
example : canonicalType " Tasк\n" = "task" ∧ canonicalType "тea" = "тea" := by decide

/-! ## The state of the loop -/

/-- Where replay has brought an aggregate.  The state is empty until a creation or a
state change is seen. -/
structure ReplayState where
  state : String
  version : UInt32
  deriving DecidableEq

/-- What creation told about a stop command: the targets it named, and which of them
were already canceled. -/
structure CommandCtx where
  (targets preCanceled : List String)

abbrev Replay := Table (String × AggregateId) ReplayState

structure CheckState where
  findings : List Finding
  lastSeq : Option Seq
  replay : Replay
  seenKeys : List (String × AggregateId × IdempotencyKey)
  seenCreation : List (String × AggregateId)
  commands : Table AggregateId CommandCtx

def CheckState.empty : CheckState where
  findings := []
  lastSeq := none
  replay := ∅
  seenKeys := []
  seenCreation := []
  commands := ∅

/-! ## Envelope checks -/

def schemaFindings : List Finding :=
  match acceptSchemaVersion event.schemaVersion ENVELOPE_SCHEMA_VERSION [] with
  | .error err => [findingAt event .schemaVersionUnknown (toString err)]
  | .ok () => []

def seqFindings (lastSeq : Option Seq) (event : Event) : List Finding :=
  match lastSeq with
  | some previous =>
    if event.globalSequence ≤ previous then
      [findingAt event .seqNotIncreasing ("global_sequence " ++ toString event.globalSequence ++
        " after " ++ toString previous ++ " (must be strictly increasing; gaps are fine)")]
    else []
  | none => []

def inlineFindings : List Finding :=
  let inlineLen := event.payload.renderedSize
  if inlineLen > INLINE_PAYLOAD_MAX_BYTES then
    [findingAt event .inlinePayloadTooLarge ("inline payload " ++ toString inlineLen ++
      " bytes exceeds the " ++ toString INLINE_PAYLOAD_MAX_BYTES ++ "-byte bound")]
  else []

def payloadRefFindings : List Finding :=
  match event.payloadRef with
  | some payloadRef =>
    if ¬ ':' ∈ payloadRef.digest.toList ∨ payloadRef.mediaType.isEmpty then
      [findingAt event .payloadRefInvalid
        "payload_ref needs a <scheme>:<address> digest and a media_type"]
    else []
  | none => []

def fullKey : Option (String × AggregateId × IdempotencyKey) :=
  event.idempotencyKey.map fun key => (event.aggregateType, event.aggregateId, key)

def idempotencyFindings (seenKeys : List (String × AggregateId × IdempotencyKey))
    (event : Event) : List Finding :=
  match fullKey event with
  | some key =>
    if key ∈ seenKeys then
      [findingAt event .idempotencyDuplicate ("idempotency_key " ++ key.2.2 ++
        " appears twice for this aggregate — a retry must not append twice")]
    else []
  | none => []

variable (state : CheckState)

/-- The checks that read the envelope alone, in the order they are made. -/
def envelopeFindings (event : Event) : List Finding :=
  schemaFindings event ++ seqFindings state.lastSeq event ++ inlineFindings event ++
    payloadRefFindings event ++ idempotencyFindings state.seenKeys event

/-! ## Aggregate checks made on every event -/

variable (aggType : String)

def spellingFindings (event : Event) : List Finding :=
  if aggType ≠ event.aggregateType ∧ (machineInitial aggType).isSome then
    [findingAt event .envelopeMalformed ("aggregate_type " ++ debugStr event.aggregateType ++
      " is a non-canonical spelling of the governed FSM " ++ debugStr aggType)]
  else []

variable (checks : OverflowChecks)

/-- The version the aggregate's next event must carry: one above the replayed one,
or 1 on first sight. -/
def expectedVersion (replay : Replay) (event : Event) : Option UInt32 :=
  match replay.lookup event.aggregate with
  | some current => plainSucc checks current.version
  | none => some 1

def versionFindings (expected : UInt32) (event : Event) : List Finding :=
  if event.aggregateVersion ≠ expected then
    [findingAt event .aggregateVersionGap ("aggregate_version " ++
      toString event.aggregateVersion ++ " but replay expects " ++ toString expected ++
      " (contiguous from 1)")]
  else []

variable (replay : Replay)

/-- The version cursor advances on every event of every aggregate. -/
def advanceVersion (event : Event) : Replay :=
  match replay.lookup event.aggregate with
  | some current => replay.insert event.aggregate { current with version := event.aggregateVersion }
  | none => replay.insert event.aggregate { state := "", version := event.aggregateVersion }

def setState (aggregate : String × AggregateId) (state : String) : Replay :=
  match replay.lookup aggregate with
  | some current => replay.insert aggregate { current with state := state }
  | none => replay

def creationMissingFindings (replay : Replay) (event : Event) : List Finding :=
  if (replay.lookup event.aggregate).isNone ∧ ¬ isCreation event ∧ (machineInitial aggType).isSome
  then
    [findingAt event .creationMissing ("first event for this " ++ event.aggregateType ++ " is " ++
      event.eventType ++ " — a machine-governed aggregate starts at its creation event")]
  else []

/-! ## Creations -/

def createdNotFirstFindings (alreadyCreated : Bool) (event : Event) : List Finding :=
  if alreadyCreated then
    [findingAt event .createdNotFirst "creation event on an aggregate that already exists"]
  else []

def creationStateFindings (event : Event) : List Finding :=
  match machineInitial aggType, payloadStr event "state" with
  | some want, some seeded =>
    if seeded ≠ want then
      [findingAt event .creationStateInvalid ("created with state " ++ seeded ++ " but a " ++
        event.aggregateType ++ " begins at " ++ want)]
    else []
  | _, _ => []

/-- The state a creation seeds: the machine's own, or what an ungoverned aggregate
says. -/
def seededState (event : Event) : String :=
  match machineInitial aggType with
  | some want => want
  | none => (payloadStr event "state").getD ""

def attemptState (target : AggregateId) : Option String :=
  (replay.lookup ("attempt", target)).map ReplayState.state

def declaredTargets (event : Event) : CommandCtx :=
  let targets := (payloadTargets event).getD []
  { targets := targets
    preCanceled := targets.filter fun target => attemptState replay target = some "canceled" }

/-- A creation event.  A duplicate creation must not reset the replayed state. -/
def checkCreation (state : CheckState) (event : Event) : CheckState :=
  let alreadyCreated := decide (event.aggregate ∈ state.seenCreation)
  let replay :=
    if alreadyCreated then state.replay
    else setState state.replay event.aggregate (seededState aggType event)
  { state with
    findings := state.findings ++ createdNotFirstFindings alreadyCreated event ++
      creationStateFindings aggType event
    seenCreation :=
      if alreadyCreated then state.seenCreation else event.aggregate :: state.seenCreation
    replay := replay
    commands :=
      if aggType = "command" then
        state.commands.insert event.aggregateId (declaredTargets replay event)
      else state.commands }

/-! ## State changes -/

/-- A mismatch is a claim about a known prior state: only compare once a creation has
seeded it. -/
def fromStateFindings (event : Event) (source : String) : List Finding :=
  match state.replay.lookup event.aggregate with
  | some current =>
    if event.aggregate ∈ state.seenCreation ∧ current.state ≠ source then
      [findingAt event .fromStateMismatch ("payload.from is " ++ source ++
        " but replay says " ++ current.state)]
    else []
  | none => []

def edgeFindings (event : Event) (source target : String) : List Finding :=
  match fsmCheck aggType source target with
  | some (_, true) =>
    [findingAt event .terminalMutation (source ++ " is terminal; nothing leaves a terminal")]
  | some (false, false) =>
    [findingAt event .illegalTransition (event.aggregateType ++ ": " ++ source ++ " -> " ++
      target ++ " is not a legal edge")]
  | _ => []

def flipFindings (event : Event) (source target : String) : List Finding :=
  if aggType = "attempt" ∧
      ((source = "running" ∧ target = "blocked") ∨ (source = "blocked" ∧ target = "running")) then
    (if event.actor.kind ≠ LIVENESS_PRODUCER_KIND then
      [findingAt event .flipWrongActor ("running<->blocked flip by actor kind " ++
        event.actor.kind ++ " — only " ++ LIVENESS_PRODUCER_KIND ++ " may write it")]
    else []) ++
    (if receiptMissing (payloadStr event "receipt_id") then
      [findingAt event .flipMissingReceipt "running<->blocked flip without a receipt_id"]
    else [])
  else []

/-- A declared target the terminal event dropped from its own list. -/
def droppedFindings (created : List String) : List Finding :=
  match payloadTargets event with
  | some listed =>
    (created.filter fun target => !listed.contains target).map fun dropped =>
      findingAt event .outcomeDisagreesWithTargets ("outcome clean but declared target " ++
        dropped ++ " was dropped from the terminal event's target list")
  | none => []

/-- The created targets, with the restated ones the creation did not name added in
order. -/
def allTargets (created : List String) : List String :=
  ((payloadTargets event).getD []).foldl
    (fun targets target => if target ∈ targets then targets else targets ++ [target]) created

def targetFindings (event : Event) (ctx : Option CommandCtx) (target : String) : List Finding :=
  let state := attemptState replay target
  if state ≠ some "canceled" then
    [findingAt event .outcomeDisagreesWithTargets ("outcome clean but target " ++ target ++
      " is " ++ state.getD "<absent>" ++ " at the terminal event")]
  else if ctx.any fun declared => declared.preCanceled.contains target then
    [findingAt event .outcomeDisagreesWithTargets ("outcome clean but target " ++ target ++
      " was already canceled when the command was created")]
  else []

/-- A `clean` outcome claims that this command verifiably stopped its targets. -/
def cleanFindings (event : Event) : List Finding :=
  let ctx := state.commands.lookup event.aggregateId
  let created := (ctx.map CommandCtx.targets).getD []
  let targets := allTargets event created
  droppedFindings event created ++ (if targets.isEmpty then
      [findingAt event .outcomeDisagreesWithTargets
        "outcome clean but the command names no targets to agree with"]
    else []) ++
    targets.flatMap (targetFindings state.replay event ctx)

/-- Outcome if and only if terminal, written with the terminal transition. -/
def outcomeFindings (state : CheckState) (event : Event) (target : String) : List Finding :=
  if aggType = "command" then
    if target = "verification_complete" then
      match payloadStr event "outcome" with
      | none =>
        [findingAt event .outcomeMissing
          "verification_complete without an outcome in the same event"]
      | some "clean" => cleanFindings state event
      | some "partial" => []
      | some "unknown" => []
      | some other =>
        [findingAt event .stateChangeMalformed ("outcome " ++ other ++
          " is not one of clean, partial, unknown")]
    else if (payloadStr event "outcome").isSome then
      [findingAt event .outcomeOnNonTerminal ("outcome on a non-terminal transition to " ++ target)]
    else []
  else []

/-- A state change.  A payload without string `from` and `to` ends the event's
checks. -/
def checkStateChange (state : CheckState) (event : Event) : CheckState :=
  match payloadStr event "from", payloadStr event "to" with
  | some source, some target =>
    { state with
      findings := state.findings ++ fromStateFindings state event source ++
        edgeFindings aggType event source target ++ flipFindings aggType event source target ++
        outcomeFindings aggType state event target
      replay := setState state.replay event.aggregate target }
  | _, _ =>
    { state with
      findings := state.findings ++ [findingAt event .stateChangeMalformed
        "state-change payload must carry string \x60from\x60 and \x60to\x60"] }

/-! ## The loop -/

/-- Everything recorded about an event before its type is looked at. -/
def checkEnvelope (expected : UInt32) (state : CheckState) (event : Event) : CheckState :=
  { state with
    findings := state.findings ++ envelopeFindings state event ++ spellingFindings aggType event ++
      versionFindings expected event ++ creationMissingFindings aggType state.replay event
    lastSeq := some event.globalSequence
    seenKeys := (fullKey event).toList ++ state.seenKeys
    replay := advanceVersion state.replay event }

/-- One pass of the loop; `none` is an overflow panic. -/
def checkEvent (state : CheckState) (event : Event) : Option CheckState :=
  let aggType := canonicalType event.aggregateType
  (expectedVersion checks state.replay event).map fun expected =>
    let entered := checkEnvelope aggType expected state event
    if isCreation event then checkCreation aggType entered event
    else if isStateChange event then checkStateChange aggType entered event
    else entered

def checkFrom (state : CheckState) (events : List Event) : Option CheckState :=
  events.foldlM (checkEvent checks) state

/-- Replay `events` in stream order and return every violation found. -/
def checkStream (events : List Event) : Option (List Finding) :=
  (checkFrom checks .empty events).map CheckState.findings

end Gridwork.Cert
