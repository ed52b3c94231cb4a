import Gridwork.Cert.Soundness

/-!
# A lawful stream has no finding

The converse of soundness.  `Lawful` says what the writers of one governed aggregate
do: they create it at version 1 in its initial state and go on with events at the
following versions, whose state changes are the transitions that `apply` answered
`applied` from the running cursor.  `LawfulStream` says that every aggregate of a stream is
written so, and that the envelopes keep the contract's rules.

The invariant is `Awaits`: the replay table mirrors the cursor of an aggregate, and the events of
the aggregate that are still to come follow from that cursor.
-/

namespace Gridwork.Cert

open Lib Domain List Option StateMachine TransitionGuard Machine Prod

/-! ## Lawful histories -/

def isFlip : (machine : Machine) → machine.State → machine.State → Bool
  | .attempt, source, target => AttemptState.isFlip source target
  | .task, _, _ => false
  | .message, _, _ => false
  | .command, _, _ => false

/-- A state-change event records a transition of its actor that was applied: it carries the
version of the answer, names the edge taken, and shows the receipt of a flip. -/
structure Records {machine : Machine} (cursor : Cursor machine.State) (event : Event)
    (req : TransitionRequest machine.State) : Prop where
  change : isStateChange event = true
  actor : req.actor = event.actor
  answered : apply cursor req = .applied req.target event.aggregateVersion
  source : payloadStr event "from" = some (wire cursor.state)
  target : payloadStr event "to" = some (wire req.target)
  receipt : isFlip machine cursor.state req.target = true →
    payloadStr event "receipt_id" = req.receiptId

/-- The events of a created aggregate, from a cursor on: each carries the next version, and
is a recorded transition or neither a state change nor a creation.  Whatever a writer keeps
of keys and actors, the cursor after an event is at its state and version. -/
inductive Follows {machine : Machine} : Cursor machine.State → List Event → Prop where
  | done (cursor : Cursor machine.State) : Follows cursor []
  | changed {cursor : Cursor machine.State} {event : Event} {rest : List Event}
      (req : TransitionRequest machine.State)
      (next : event.aggregateVersion.toNat = cursor.version.toNat + 1)
      (records : Records cursor event req) (after : Cursor machine.State)
      (state : after.state = req.target) (version : after.version = event.aggregateVersion)
      (later : Follows after rest) : Follows cursor (event :: rest)
  | noted {cursor : Cursor machine.State} {event : Event} {rest : List Event}
      (next : event.aggregateVersion.toNat = cursor.version.toNat + 1)
      (notCreation : isCreation event = false) (notChange : isStateChange event = false)
      (later : Follows { cursor with version := event.aggregateVersion } rest) :
      Follows cursor (event :: rest)

/-- A history that starts with a creation at version 1, in the initial state or with none
given, and goes on from the cursor it left. -/
inductive Lawful (machine : Machine) : List Event → Prop where
  | created {first : Event} {rest : List Event} (start : Cursor machine.State)
      (creation : isCreation first = true) (atOne : first.aggregateVersion = 1)
      (seeded : ∀ state ∈ payloadStr first "state", state = wire machine.initial)
      (initial : start.state = machine.initial) (version : start.version = 1)
      (later : Follows start rest) : Lawful machine (first :: rest)

/-- A command's terminal event carries an outcome without targets to agree with, and no
other event of a command carries one. -/
def OutcomeLaw (event : Event) : Prop :=
  if isStateChange event = true ∧ payloadStr event "to" = some "verification_complete" then
    payloadStr event "outcome" = some "partial" ∨ payloadStr event "outcome" = some "unknown"
  else payloadStr event "outcome" = none

/-- The rules a stream's envelopes keep, whatever their aggregates do. -/
structure Enveloped (events : List Event) : Prop where
  governed : ∀ event ∈ events, ∃ machine : Machine, event.aggregateType = machine.aggregateType
  increasing : events.Pairwise fun prior later => prior.globalSequence < later.globalSequence
  schema : ∀ event ∈ events, event.schemaVersion = ENVELOPE_SCHEMA_VERSION
  inlineBound : ∀ event ∈ events, event.payload.renderedSize ≤ INLINE_PAYLOAD_MAX_BYTES
  refs : ∀ event ∈ events, ∀ ref ∈ event.payloadRef,
    ':' ∈ ref.digest.toList ∧ ref.mediaType.isEmpty = false
  keys : (events.filterMap fullKey).Nodup
  outcomes : ∀ event ∈ events, event.aggregateType = Machine.command.aggregateType →
    OutcomeLaw event

/-- An interleaving of lawful histories of any number of governed aggregates. -/
structure LawfulStream (events : List Event) : Prop where
  enveloped : Enveloped events
  histories : ∀ (machine : Machine) (id : AggregateId),
    aggregateEvents (machine.aggregateType, id) events ≠ [] →
      Lawful machine (aggregateEvents (machine.aggregateType, id) events)

theorem Enveloped.tail {event : Event} {rest : List Event} (enveloped : Enveloped (event :: rest)) :
    Enveloped rest where
  governed other mem := enveloped.governed other (mem_cons_of_mem _ mem)
  increasing := (pairwise_cons.mp enveloped.increasing).2
  schema other mem := enveloped.schema other (mem_cons_of_mem _ mem)
  inlineBound other mem := enveloped.inlineBound other (mem_cons_of_mem _ mem)
  refs other mem := enveloped.refs other (mem_cons_of_mem _ mem)
  keys := by
    have keys := enveloped.keys
    rw [filterMap_cons] at keys
    split at keys
    · exact keys
    · exact (nodup_cons.mp keys).2
  outcomes other mem := enveloped.outcomes other (mem_cons_of_mem _ mem)

/-! ## What an applied transition shows -/

variable {S : Type} {before after state : CheckState} {left rest events : List Event}
  {machine : Machine} {checks : OverflowChecks} {event : Event} {id : AggregateId}
  {source target : machine.State}

theorem isTerminal_eq_false_of_canTransition [DecidableEq S] [StateMachine S]
    {source target : S} (legal : canTransition source target = true) :
    isTerminal source = false := by
  have edge : (source, target) ∈ (edges : List (S × S)) := of_decide_eq_true legal
  rw [isTerminal, Bool.not_eq_false', List.any_eq_true]
  exact ⟨(source, target), edge, decide_eq_true rfl⟩

theorem guard_and_edge_of_applied [DecidableEq S] [TransitionGuard S]
    {cursor : Cursor S} {req : TransitionRequest S} {state : S} {version : UInt32}
    (answered : apply cursor req = .applied state version) (moved : version ≠ cursor.version) :
    guard cursor.state req.target ⟨req.actor, req.receiptId⟩ = .ok () ∧
      canTransition cursor.state req.target = true := by
  unfold apply at answered
  split at answered
  · cases answered
  next guarded =>
    refine ⟨guarded, ?_⟩
    by_cases echo : isEcho cursor req = true
    · rw [if_pos echo] at answered
      cases answered
      exact absurd rfl moved
    · rw [if_neg echo] at answered
      by_contra illegal
      rw [if_pos (by simpa using illegal)] at answered
      cases answered

theorem flipFindings_of_guard {receipt : Option ReceiptId}
    (guarded : guard source target ⟨event.actor, receipt⟩ = .ok ())
    (shown : isFlip machine source target = true → payloadStr event "receipt_id" = receipt) :
    flipFindings machine.aggregateType event (wire source) (wire target) = [] := by
  cases machine with
  | task | message | command => rfl
  | attempt =>
    change AttemptState at source target
    by_cases flip : AttemptState.isFlip source target = true
    · have isReceipt : payloadStr event "receipt_id" = receipt := shown flip
      have rule : event.actor.kind = LIVENESS_PRODUCER_KIND ∧ receiptMissing receipt = false := by
        simp only [TransitionGuard.guard, flip, if_true] at guarded
        by_cases actor : event.actor.kind = LIVENESS_PRODUCER_KIND
        · rw [if_neg (not_not_intro actor)] at guarded
          refine ⟨actor, ?_⟩
          by_contra missing
          rw [if_pos (by simpa using missing)] at guarded
          cases guarded
        · rw [if_pos actor] at guarded
          cases guarded
      simp [flipFindings, isReceipt, rule.1, rule.2]
    · have names : ¬ ((wire source = "running" ∧ wire target = "blocked")
          ∨ (wire source = "blocked" ∧ wire target = "running")) := by
        revert flip
        cases source <;> cases target <;> decide
      exact if_neg fun both => names both.2

theorem edgeFindings_of_canTransition (legal : canTransition source target = true) :
    edgeFindings machine.aggregateType event (wire source) (wire target) = [] := by
  simp only [edgeFindings, fsmCheck_aggregateType, checkNames, parse_wire, legal,
    isTerminal_eq_false_of_canTransition legal]

theorem outcomeFindings_of_law (state : CheckState) (change : isStateChange event = true)
    (named : payloadStr event "to" = some (wire target))
    (law : event.aggregateType = command.aggregateType → OutcomeLaw event)
    (governed : event.aggregateType = machine.aggregateType) :
    outcomeFindings machine.aggregateType state event (wire target) = [] := by
  cases machine with
  | task | attempt | message => rfl
  | command =>
    have outcome := law governed
    simp only [OutcomeLaw, change, named, true_and, Option.some.injEq] at outcome
    unfold outcomeFindings
    rw [if_pos (show command.aggregateType = "command" from rfl)]
    by_cases terminal : wire target = "verification_complete"
    · rw [if_pos terminal]
      rw [if_pos terminal] at outcome
      rcases outcome with isPartial | isUnknown
      · rw [isPartial]
        rfl
      · rw [isUnknown]
        rfl
    · rw [if_neg terminal]
      rw [if_neg terminal] at outcome
      rw [outcome]
      rfl

/-! ## The invariant -/

/-- The checker mirrors the cursor of an aggregate, and the aggregate's events to come
follow from there. -/
inductive Awaits (machine : Machine) (aggregate : String × AggregateId) (left : List Event)
    (state : CheckState) : Prop where
  | unseen (lawful : left ≠ [] → Lawful machine left)
      (noEntry : state.replay.lookup aggregate = none) (uncreated : aggregate ∉ state.seenCreation)
  | seen (cursor : Cursor machine.State) (follows : Follows cursor left)
      (entry : state.replay.lookup aggregate =
        some { state := wire cursor.state, version := cursor.version })
      (created : aggregate ∈ state.seenCreation)

/-- What the loop holds before the events that are left. -/
structure Ready (state : CheckState) (left : List Event) : Prop where
  quiet : state.findings = []
  sequence : ∀ previous ∈ state.lastSeq, ∀ event ∈ left, previous < event.globalSequence
  unused : ∀ key ∈ state.seenKeys, key ∉ left.filterMap fullKey
  awaits : ∀ (machine : Machine) (id : AggregateId), Awaits machine (machine.aggregateType, id)
    (aggregateEvents (machine.aggregateType, id) left) state

theorem Awaits.frame {aggregate : String × AggregateId}
    (awaits : Awaits machine aggregate left before)
    (stepped : checkEvent checks before event = some after)
    (ne : aggregate ≠ event.aggregate) : Awaits machine aggregate left after := by
  obtain ⟨sameEntry, sameCreation⟩ := checkEvent_frame stepped ne
  cases awaits with
  | unseen lawful noEntry uncreated =>
    exact .unseen lawful (sameEntry.trans noEntry) (mt sameCreation.mp uncreated)
  | seen cursor follows entry created =>
    exact .seen cursor follows (sameEntry.trans entry) (sameCreation.mpr created)

theorem checkEvent_bookkeeping (stepped : checkEvent checks before event = some after) :
    after.lastSeq = some event.globalSequence ∧
      after.seenKeys = (fullKey event).toList ++ before.seenKeys := by
  obtain ⟨expected, -, rfl⟩ := (checkEvent_some checks before after event).mp stepped
  by_cases creation : isCreation event = true
  · rw [if_pos creation]
    exact ⟨rfl, rfl⟩
  · rw [if_neg creation]
    by_cases change : isStateChange event = true
    · rw [if_pos change]
      unfold checkStateChange
      split
      · exact ⟨rfl, rfl⟩
      · exact ⟨rfl, rfl⟩
    · rw [if_neg change]
      exact ⟨rfl, rfl⟩

section Pass

section Next

variable (enveloped : Enveloped (event :: rest)) (ready : Ready state (event :: rest))

include enveloped ready

theorem envelopeFindings_of_ready : envelopeFindings state event = [] := by
  have mem : event ∈ event :: rest := mem_cons_self
  have schema : schemaFindings event = [] := by
    rw [schemaFindings, enveloped.schema event mem]
    rfl
  have sequence : seqFindings state.lastSeq event = [] := by
    unfold seqFindings
    split
    next previous isLast => exact if_neg (not_le.mpr (ready.sequence previous isLast event mem))
    next => rfl
  have inlined : inlineFindings event = [] :=
    if_neg (Nat.not_lt.mpr (enveloped.inlineBound event mem))
  have refs : payloadRefFindings event = [] := by
    unfold payloadRefFindings
    split
    next ref isRef =>
      obtain ⟨scheme, media⟩ := enveloped.refs event mem ref isRef
      simp [scheme, media]
    next => rfl
  have keys : idempotencyFindings state.seenKeys event = [] := by
    unfold idempotencyFindings
    split
    next key isKey =>
      refine if_neg fun seen => ready.unused key seen ?_
      exact mem_filterMap.mpr ⟨event, mem, isKey⟩
    next => rfl
  rw [envelopeFindings, schema, sequence, inlined, refs, keys]
  rfl

theorem checkEnvelope_findings (governed : event.aggregateType = machine.aggregateType)
    (starts : state.replay.lookup event.aggregate = none → isCreation event = true) :
    (checkEnvelope machine.aggregateType event.aggregateVersion state event).findings = [] := by
  have spelled : spellingFindings machine.aggregateType event = [] :=
    if_neg fun wrong => wrong.1 governed.symm
  have version : versionFindings event.aggregateVersion event = [] := if_neg (not_not_intro rfl)
  have creation : creationMissingFindings machine.aggregateType state.replay event = [] :=
    if_neg fun missing => missing.2.1 (starts (by simpa using missing.1))
  simp only [checkEnvelope, ready.quiet, envelopeFindings_of_ready enveloped ready, spelled,
    version, creation, append_nil]

theorem checkEvent_created (own : event.aggregate = (machine.aggregateType, id))
    (lawful : Lawful machine (event :: left)) (noEntry : state.replay.lookup event.aggregate = none)
    (uncreated : event.aggregate ∉ state.seenCreation) :
    ∃ after, checkEvent checks state event = some after ∧ after.findings = [] ∧
      Awaits machine event.aggregate left after := by
  have governed : event.aggregateType = machine.aggregateType := congrArg fst own
  cases lawful with
  | created start creation atOne seeded initial version later =>
    have expected : expectedVersion checks state.replay event = some event.aggregateVersion := by
      rw [expectedVersion, noEntry, atOne]
    have entered := checkEnvelope_findings enveloped ready governed fun _ => creation
    refine ⟨_, (checkEvent_some checks state _ event).mpr ⟨_, expected, rfl⟩, ?_, ?_⟩
    · have seed : creationStateFindings machine.aggregateType event = [] := by
        rw [creationStateFindings, machineInitial_aggregateType]
        split
        next want given isWant isGiven =>
          cases isWant
          exact if_neg (not_not_intro (seeded given isGiven))
        next => rfl
      have notTwice : createdNotFirstFindings (decide (event.aggregate ∈
          (checkEnvelope machine.aggregateType event.aggregateVersion state event).seenCreation))
          event = [] :=
        if_neg (by simpa [checkEnvelope] using uncreated)
      simp only [if_pos creation, governed, canonicalType_aggregateType, checkCreation, entered,
        notTwice, seed, append_nil]
    · have advanced := lookup_advanceVersion_self state.replay event
      simp only [if_pos creation, governed, canonicalType_aggregateType]
      refine .seen start later ?_ ?_
      · simp [checkCreation, checkEnvelope, uncreated, lookup_setState_self advanced, seededState,
          machineInitial_aggregateType, initial, version, atOne]
      · simp [checkCreation, checkEnvelope, uncreated]

theorem checkEvent_followed (own : event.aggregate = (machine.aggregateType, id))
    {cursor : Cursor machine.State} (follows : Follows cursor (event :: left))
    (entry : state.replay.lookup event.aggregate =
      some { state := wire cursor.state, version := cursor.version })
    (created : event.aggregate ∈ state.seenCreation) :
    ∃ after, checkEvent checks state event = some after ∧ after.findings = [] ∧
      Awaits machine event.aggregate left after := by
  have governed : event.aggregateType = machine.aggregateType := congrArg fst own
  have numbered : event.aggregateVersion.toNat = cursor.version.toNat + 1 := by
    cases follows with
    | changed req next records after state version later => exact next
    | noted next notCreation notChange later => exact next
  have room : cursor.version.toNat + 1 < 2 ^ 32 := numbered ▸ event.aggregateVersion.toNat_lt
  have expected : expectedVersion checks state.replay event = some event.aggregateVersion := by
    rw [expectedVersion, entry]
    exact (plainSucc_eq_checkedSucc checks room).trans ((checkedSucc_some _ _).mpr numbered)
  have entered := checkEnvelope_findings enveloped ready governed fun unseen => by
    rw [entry] at unseen
    cases unseen
  have advanced := lookup_advanceVersion_self state.replay event
  rw [entry] at advanced
  refine ⟨_, (checkEvent_some checks state _ event).mpr ⟨_, expected, rfl⟩, ?_⟩
  simp only [governed, canonicalType_aggregateType]
  cases follows with
  | changed req next records after isState isVersion later =>
    have notCreation : ¬ isCreation event = true := by
      intro creation
      have notChange := isStateChange_eq_false_of_isCreation creation
      rw [records.change] at notChange
      cases notChange
    have moved : event.aggregateVersion ≠ cursor.version := by
      intro eq
      rw [eq] at numbered
      omega
    obtain ⟨guarded, legal⟩ := guard_and_edge_of_applied records.answered moved
    rw [records.actor] at guarded
    have fromState : fromStateFindings
        (checkEnvelope machine.aggregateType event.aggregateVersion state event) event
        (wire cursor.state) = [] := by
      simp [fromStateFindings, checkEnvelope, advanced]
    have outcome := outcomeFindings_of_law
      (checkEnvelope machine.aggregateType event.aggregateVersion state event) records.change
      records.target (enveloped.outcomes event mem_cons_self) governed
    rw [if_neg notCreation, if_pos records.change]
    simp only [checkStateChange, records.source, records.target, entered, fromState,
      edgeFindings_of_canTransition legal, flipFindings_of_guard guarded records.receipt, outcome,
      append_nil, true_and]
    refine .seen _ later ?_ created
    rw [isState, isVersion]
    exact lookup_setState_self advanced _
  | noted next notCreation notChange later =>
    rw [if_neg (Bool.eq_false_iff.mp notCreation), if_neg (Bool.eq_false_iff.mp notChange)]
    exact ⟨entered, .seen _ later advanced created⟩

end Next

/-- **One pass finds nothing.**  The awaited event of its aggregate is taken, and the loop is
ready for the rest of the stream. -/
theorem checkEvent_awaited (checks : OverflowChecks) (enveloped : Enveloped (event :: rest))
    (ready : Ready state (event :: rest)) :
    ∃ after, checkEvent checks state event = some after ∧ Ready after rest := by
  obtain ⟨machine, governed⟩ := enveloped.governed event mem_cons_self
  have own : event.aggregate = (machine.aggregateType, event.aggregateId) :=
    Prod.ext governed rfl
  have mine : aggregateEvents event.aggregate (event :: rest) =
      event :: aggregateEvents event.aggregate rest :=
    filter_cons_of_pos (decide_eq_true rfl)
  obtain ⟨after, stepped, quiet, awaited⟩ : ∃ after, checkEvent checks state event = some after ∧
      after.findings = [] ∧
        Awaits machine event.aggregate (aggregateEvents event.aggregate rest) after := by
    have awaits := ready.awaits machine event.aggregateId
    rw [← own, mine] at awaits
    cases awaits with
    | unseen lawful noEntry uncreated =>
      exact checkEvent_created enveloped ready own (lawful (cons_ne_nil _ _)) noEntry uncreated
    | seen cursor follows entry created =>
      exact checkEvent_followed enveloped ready own follows entry created
  have kept : after.lastSeq = some event.globalSequence ∧
      after.seenKeys = (fullKey event).toList ++ state.seenKeys :=
    checkEvent_bookkeeping stepped
  refine ⟨after, stepped, quiet, ?_, ?_, ?_⟩
  · intro previous isLast other mem
    rw [kept.1] at isLast
    cases isLast
    exact (pairwise_cons.mp enveloped.increasing).1 other mem
  · intro key seen used
    rw [kept.2, mem_append] at seen
    have keys := enveloped.keys
    rw [filterMap_cons] at keys
    rcases seen with isOwn | prior
    · have isKey : fullKey event = some key := mem_toList.mp isOwn
      rw [isKey] at keys
      exact (nodup_cons.mp keys).1 used
    · refine ready.unused key prior ?_
      rw [filterMap_cons]
      split
      · exact used
      · exact mem_cons_of_mem _ used
  · intro other id
    by_cases eq : (other.aggregateType, id) = event.aggregate
    · have isMachine : other = machine := by
        have sameType : other.aggregateType = machine.aggregateType :=
          (congrArg fst eq).trans governed
        revert sameType
        cases other <;> cases machine <;> decide
      rw [isMachine] at eq ⊢
      rw [eq]
      exact awaited
    · have awaits := ready.awaits other id
      rw [aggregateEvents, filter_cons_of_neg (by simpa using Ne.symm eq)] at awaits
      exact awaits.frame stepped eq

end Pass

/-! ## Whole streams -/

theorem checkFrom_of_ready (checks : OverflowChecks)
    (enveloped : Enveloped events) (ready : Ready state events) :
    ∃ final, checkFrom checks state events = some final ∧ final.findings = [] := by
  induction events generalizing state with
  | nil => exact ⟨state, rfl, ready.quiet⟩
  | cons event rest ih =>
    obtain ⟨after, stepped, next⟩ := checkEvent_awaited checks enveloped ready
    obtain ⟨final, finished, clean⟩ := ih enveloped.tail next
    refine ⟨final, ?_, clean⟩
    rw [checkFrom, foldlM_cons, stepped]
    exact finished

/-- **A lawful stream has no finding.**  However the histories of its aggregates are
interleaved, and in every build, the checker ends with nothing to report. -/
theorem checkStream_of_lawful (checks : OverflowChecks) (events : List Event)
    (lawful : LawfulStream events) : checkStream checks events = some [] := by
  have ready : Ready .empty events := by
    refine ⟨rfl, nofun, nofun, ?_⟩
    intro machine id
    exact .unseen (lawful.histories machine id) rfl (by simp [CheckState.empty])
  obtain ⟨final, finished, clean⟩ := checkFrom_of_ready checks lawful.enveloped ready
  rw [checkStream, finished, map_some, clean]

/-! ## An attempt and the command that stops it -/

/-- An event of one of the two aggregates, at a version and a sequence number. -/
def stopEvent (machine : Machine) (kind : String) (version : UInt32) (sequence : Seq)
    (payload : List (String × Json)) : Event where
  eventId := "e"
  projectId := "p"
  aggregateType := machine.aggregateType
  aggregateId := "a"
  aggregateVersion := version
  eventType := machine.aggregateType ++ kind
  schemaVersion := 1
  globalSequence := sequence
  occurredAt := "2026-07-27T00:00:00Z"
  appendedAt := "2026-07-27T00:00:00Z"
  actor := { kind := LIVENESS_PRODUCER_KIND, id := none }
  origin := { system := "kernel", ref := none }
  causationId := none
  correlationId := none
  idempotencyKey := none
  payload := .object payload
  payloadRef := none

def edgePayload (source target : String) : List (String × Json) :=
  [("from", .string source), ("to", .string target)]

/-- An attempt that is leased, noted and started, runs and is blocked, with the life of a stop
command in between. -/
def stopStream : List Event :=
  [stopEvent .attempt "_created" 1 1 [("state", .string "queued")],
    stopEvent .command "_created" 1 2 [("targets", .array [.string "a"])],
    stopEvent .attempt "_state_changed" 2 4 (edgePayload "queued" "leased"),
    stopEvent .command "_state_changed" 2 5 (edgePayload "issued" "targeted"),
    stopEvent .attempt "_noted" 3 6 [],
    stopEvent .attempt "_state_changed" 4 7 (edgePayload "leased" "starting"),
    stopEvent .attempt "_state_changed" 5 8 (edgePayload "starting" "running"),
    stopEvent .command "_state_changed" 3 9 (edgePayload "targeted" "signaled"),
    stopEvent .attempt "_state_changed" 6 12
      (edgePayload "running" "blocked" ++ [("receipt_id", .string "r")]),
    stopEvent .command "_state_changed" 4 13
      (edgePayload "signaled" "verification_complete" ++ [("outcome", .string "partial")])]

/-- The request of the liveness producer for a change at a version. -/
def stopRequest {S : Type} (target : S) (version : UInt32) : TransitionRequest S where
  target := target
  expectedVersion := version
  actor := { kind := LIVENESS_PRODUCER_KIND, id := none }
  idempotencyKey := none
  receiptId := some "r"

def stopCursor {S : Type} (state : S) (version : UInt32) : Cursor S where
  state := state
  version := version
  appliedIdempotencyKey := none
  appliedBy := none

theorem follows_stop (machine : Machine) (source target : machine.State) (version : UInt32)
    (facts : event.aggregateVersion.toNat = version.toNat + 1 ∧ isStateChange event = true ∧
      (stopRequest target version).actor = event.actor ∧
      apply (stopCursor source version) (stopRequest target version) =
        .applied target event.aggregateVersion ∧
      payloadStr event "from" = some (wire source) ∧
      payloadStr event "to" = some (wire target) ∧
      (isFlip machine source target = true → payloadStr event "receipt_id" = some "r"))
    (later : Follows (stopCursor target event.aggregateVersion) rest) :
    Follows (stopCursor source version) (event :: rest) := by
  obtain ⟨next, change, actor, answered, isSource, isTarget, receipt⟩ := facts
  exact .changed (stopRequest target version) next
    ⟨change, actor, answered, isSource, isTarget, receipt⟩ _ rfl rfl later

theorem lawful_stopAttempt :
    Lawful .attempt (aggregateEvents (attempt.aggregateType, "a") stopStream) := by
  refine .created (stopCursor .queued 1) (by decide) rfl (by decide) rfl rfl ?_
  refine follows_stop .attempt .queued .leased 1 (by decide) ?_
  refine .noted (by decide) (by decide) (by decide) ?_
  refine follows_stop .attempt .leased .starting 3 (by decide) ?_
  refine follows_stop .attempt .starting .running 4 (by decide) ?_
  refine follows_stop .attempt .running .blocked 5 (by decide) ?_
  exact .done _

theorem lawful_stopCommand :
    Lawful .command (aggregateEvents (command.aggregateType, "a") stopStream) := by
  refine .created (stopCursor .issued 1) (by decide) rfl (by decide) rfl rfl ?_
  refine follows_stop .command .issued .targeted 1 (by decide) ?_
  refine follows_stop .command .targeted .signaled 2 (by decide) ?_
  refine follows_stop .command .signaled .verificationComplete 3 (by decide) ?_
  exact .done _

theorem lawfulStream_stopStream : LawfulStream stopStream where
  enveloped :=
    { governed := by
        have governed : ∀ event ∈ stopStream, event.aggregateType = "attempt" ∨
            event.aggregateType = "command" := by decide
        intro event mem
        rcases governed event mem with isAttempt | isCommand
        · exact ⟨.attempt, isAttempt⟩
        · exact ⟨.command, isCommand⟩
      increasing := by decide
      schema := by decide
      inlineBound := by decide
      refs := by decide
      keys := by decide
      outcomes := by
        unfold OutcomeLaw
        decide }
  histories machine id nonempty := by
    have known : ∀ event ∈ stopStream, event.aggregateId = "a" ∧
        (event.aggregateType = "attempt" ∨ event.aggregateType = "command") := by decide
    obtain ⟨event, listed⟩ := exists_mem_of_ne_nil _ nonempty
    obtain ⟨mem, own⟩ := mem_filter.mp listed
    obtain ⟨isType, isId⟩ := Prod.ext_iff.mp (of_decide_eq_true own)
    obtain ⟨sameId, governed⟩ := known event mem
    obtain rfl : "a" = id := sameId.symm.trans isId
    rw [show event.aggregateType = machine.aggregateType from isType] at governed
    cases machine with
    | attempt => exact lawful_stopAttempt
    | command => exact lawful_stopCommand
    | task | message => exact absurd governed (by decide)

theorem checkStream_of_lawful_stopStream :
    LawfulStream stopStream ∧ checkStream .off stopStream = some [] :=
  ⟨lawfulStream_stopStream, checkStream_of_lawful .off stopStream lawfulStream_stopStream⟩

theorem checkStream_certifies_iff_stopStream : checkStream .off stopStream = some [] ∧
    Certified .attempt (aggregateEvents (attempt.aggregateType, "a") stopStream) := by
  have passes : checkStream .off stopStream = some [] := by decide +kernel
  have certified := checkStream_certifies_iff .off stopStream passes .attempt "a" (by decide)
  exact ⟨passes, certified.mpr (.inr (by decide))⟩

end Gridwork.Cert
