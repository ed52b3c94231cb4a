import Gridwork.Cert.Check
import Gridwork.Lib.Run

/-!
# A clean stream replays through the transition function

The checker replays four machines by wire name, over a table keyed by aggregate, with placeholder
states for aggregates it has not seen created.  The transition function is typed and works on one
cursor.

`Certified` says what a clean stream means for one governed aggregate: its events
start with its creation at version 1, carry the versions 1, 2, 3, …, contain no
second creation, and its state changes are answered `applied` by `apply`, each from
the cursor its predecessors left.

The invariant is `Tracked`: the table entry of an aggregate is the cursor its events replay to.

The expected version is computed with a plain `+ 1`.  Where it cannot wrap, a clean
stream is certified; an aggregate of 2 ^ 32 events makes it wrap in a build without
overflow checks.
-/

namespace Gridwork.Cert

open Lib Domain List Option StateMachine UInt32 TransitionGuard

/-! ## What a certified history is -/

def startCursor (machine : Machine) : Cursor machine.State where
  state := machine.initial
  version := 1
  appliedIdempotencyKey := none
  appliedBy := none

def replayRequest {S : Type} (event : Event) (target : S) : TransitionRequest S where
  target := target
  expectedVersion := event.aggregateVersion - 1
  actor := event.actor
  idempotencyKey := none
  receiptId := payloadStr event "receipt_id"

/-- Replay one event on a cursor.  A state change must be answered `applied`, with
the state it names and the version it carries; any other event only advances the
version. -/
def replayStep {S : Type} [DecidableEq S] [TransitionGuard S] (cursor : Cursor S) (event : Event) :
    Option (Cursor S) :=
  if isStateChange event then
    ((payloadStr event "to").bind parse).bind fun target =>
      if apply cursor (replayRequest event target) = .applied target event.aggregateVersion then
        some { cursor with state := target, version := event.aggregateVersion }
      else none
  else some { cursor with version := event.aggregateVersion }

/-- What a clean stream says of the events of one governed aggregate. -/
structure Certified (machine : Machine) (history : List Event) : Prop where
  created : ∃ first rest, history = first :: rest ∧ isCreation first = true ∧
    first.aggregateVersion = 1
  contiguous : history.map (fun event => event.aggregateVersion.toNat) =
    List.range' 1 history.length
  createdOnce : ∀ event ∈ history.tail, isCreation event = false
  replays : ∃ cursor, history.tail.foldlM replayStep (startCursor machine) = some cursor

variable {history : List Event} {other aggregate : String × AggregateId} {machine : Machine}
  {checks : OverflowChecks} {before after final state : CheckState} {event : Event}
  {id : AggregateId} {cursor : Cursor machine.State} {shorter longer position : Nat}

theorem Certified.length_lt (certified : Certified machine history) : history.length < 2 ^ 32 := by
  obtain ⟨first, rest, split, -, -⟩ := certified.created
  have last : history.length ∈ history.map fun event => event.aggregateVersion.toNat := by
    rw [certified.contiguous, mem_range'_1, split, length_cons]
    omega
  obtain ⟨event, -, eq⟩ := List.mem_map.mp last
  rw [← eq]
  exact event.aggregateVersion.toNat_lt

/-! ## Governed types -/

theorem isStateChange_eq_false_of_isCreation (creation : isCreation event = true) :
    isStateChange event = false := by
  by_contra both
  simp only [Bool.not_eq_false] at both
  have created : "_created".toList <:+ event.eventType.toList := by
    simpa [isCreation, endsWith] using creation
  have changed : "_state_changed".toList <:+ event.eventType.toList := by
    simpa [isStateChange, endsWith] using both
  rcases suffix_or_suffix_of_suffix created changed with inside | inside
  · exact absurd inside (by decide)
  · exact absurd inside (by decide)

theorem canonicalType_aggregateType (machine : Machine) :
    canonicalType machine.aggregateType = machine.aggregateType := by
  cases machine <;> decide

theorem machineInitial_aggregateType (machine : Machine) :
    machineInitial machine.aggregateType = some (wire machine.initial) := by
  cases machine <;> rfl

theorem fsmCheck_aggregateType (machine : Machine) (source target : String) :
    fsmCheck machine.aggregateType source target =
      some (checkNames machine.State source target) := by
  cases machine <;> rfl

/-! ## Reading the replay table -/

theorem lookup_advanceVersion_self (replay : Replay) (event : Event) :
    (advanceVersion replay event).lookup event.aggregate =
      some { state := ((replay.lookup event.aggregate).map ReplayState.state).getD ""
             version := event.aggregateVersion } := by
  cases hit : replay.lookup event.aggregate with
  | none | some => simp [advanceVersion, hit]

theorem lookup_advanceVersion_other (replay : Replay) (event : Event)
    (ne : other ≠ event.aggregate) :
    (advanceVersion replay event).lookup other = replay.lookup other := by
  cases hit : replay.lookup event.aggregate with
  | none | some => simp [advanceVersion, hit, AList.lookup_insert_ne ne]

theorem lookup_setState_self {replay : Replay}
    {current : ReplayState} (hit : replay.lookup aggregate = some current) (state : String) :
    (setState replay aggregate state).lookup aggregate = some { current with state := state } := by
  simp [setState, hit]

theorem lookup_setState_other (replay : Replay) (aggregate : String × AggregateId) (state : String)
    (ne : other ≠ aggregate) :
    (setState replay aggregate state).lookup other = replay.lookup other := by
  cases hit : replay.lookup aggregate with
  | none => simp [setState, hit]
  | some current => simp [setState, hit, AList.lookup_insert_ne ne]

/-! ## One pass of the loop -/

theorem checkEvent_some (checks : OverflowChecks) (before after : CheckState) (event : Event) :
    checkEvent checks before event = some after ↔
      ∃ expected, expectedVersion checks before.replay event = some expected ∧
        (let aggType := canonicalType event.aggregateType
         let entered := checkEnvelope aggType expected before event
         if isCreation event then checkCreation aggType entered event
         else if isStateChange event then checkStateChange aggType entered event
         else entered) = after := by
  simp only [checkEvent, map_eq_some_iff]

/-- **An event moves no other aggregate.**  Neither the replayed state nor the
creation ledger of another aggregate changes. -/
theorem checkEvent_frame
    (stepped : checkEvent checks before event = some after) (ne : other ≠ event.aggregate) :
    after.replay.lookup other = before.replay.lookup other ∧
      (other ∈ after.seenCreation ↔ other ∈ before.seenCreation) := by
  obtain ⟨expected, -, rfl⟩ := (checkEvent_some checks before after event).mp stepped
  have advanced := lookup_advanceVersion_other before.replay event ne
  by_cases creation : isCreation event = true
  · rw [if_pos creation]
    by_cases already : event.aggregate ∈ before.seenCreation
    · simp [checkCreation, checkEnvelope, already, advanced]
    · simp [checkCreation, checkEnvelope, already, advanced, ne,
        lookup_setState_other _ _ _ ne]
  · rw [if_neg creation]
    by_cases change : isStateChange event = true
    · rw [if_pos change]
      unfold checkStateChange
      split
      · exact ⟨(lookup_setState_other _ _ _ ne).trans advanced, Iff.rfl⟩
      · exact ⟨advanced, Iff.rfl⟩
    · rw [if_neg change]
      exact ⟨advanced, Iff.rfl⟩

/-- The checks every event passes when its pass leaves no finding. -/
structure EnvelopeClean (aggType : String) (expected : UInt32) (before : CheckState)
    (event : Event) : Prop where
  quiet : before.findings = []
  version : event.aggregateVersion = expected
  startsCreated : before.replay.lookup event.aggregate = none →
    (machineInitial aggType).isSome → isCreation event = true

theorem EnvelopeClean.of_findings {aggType : String} {expected : UInt32}
    (clean : (checkEnvelope aggType expected before event).findings = []) :
    EnvelopeClean aggType expected before event := by
  simp only [checkEnvelope, append_eq_nil_iff] at clean
  obtain ⟨⟨⟨⟨quiet, -⟩, -⟩, versions⟩, creations⟩ := clean
  refine ⟨quiet, ?_, ?_⟩
  · by_contra gap
    simp [versionFindings, gap] at versions
  · intro unseen governed
    by_contra missing
    simp [creationMissingFindings, unseen, governed, missing] at creations

theorem envelopeClean_of_checkEvent (stepped : checkEvent checks before event = some after)
    (clean : after.findings = []) :
    ∃ expected, expectedVersion checks before.replay event = some expected ∧
      EnvelopeClean (canonicalType event.aggregateType) expected before event := by
  obtain ⟨expected, hit, rfl⟩ := (checkEvent_some checks before after event).mp stepped
  refine ⟨expected, hit, EnvelopeClean.of_findings ?_⟩
  by_cases creation : isCreation event = true
  · simp only [if_pos creation, checkCreation, append_eq_nil_iff] at clean
    exact clean.1.1
  · by_cases change : isStateChange event = true
    · simp only [if_neg creation, if_pos change, checkStateChange] at clean
      split at clean
      · simp only [append_eq_nil_iff] at clean
        exact clean.1.1.1.1
      · simp at clean
    · simpa only [if_neg creation, if_neg change] using clean

/-! ## The two steps of an aggregate's own events -/

theorem guard_of_flipFindings (machine : Machine) (event : Event) (source target : machine.State)
    (clean : flipFindings machine.aggregateType event (wire source) (wire target) = []) :
    guard source target ⟨event.actor, payloadStr event "receipt_id"⟩ = .ok () := by
  cases machine with
  | task | message | command => rfl
  | attempt =>
    change AttemptState at source target
    by_cases flip : AttemptState.isFlip source target = true
    · have names : (wire source = "running" ∧ wire target = "blocked") ∨
          (wire source = "blocked" ∧ wire target = "running") := by
        revert flip
        cases source <;> cases target <;> decide
      have rule : event.actor.kind = LIVENESS_PRODUCER_KIND ∧
          receiptMissing (payloadStr event "receipt_id") = false := by
        simpa [flipFindings, Machine.aggregateType, names] using clean
      simp [TransitionGuard.guard, flip, rule.1, rule.2]
    · simp [TransitionGuard.guard, flip]

theorem edge_of_edgeFindings (machine : Machine) (event : Event) (source target : String)
    (clean : edgeFindings machine.aggregateType event source target = []) :
    ∃ f t : machine.State, wire f = source ∧ parse target = some t ∧ canTransition f t = true := by
  rw [edgeFindings, fsmCheck_aggregateType] at clean
  simp only [checkNames] at clean
  cases parsedSource : (parse source : Option machine.State) with
  | none => simp [parsedSource] at clean
  | some f =>
    cases parsedTarget : (parse target : Option machine.State) with
    | none => simp [parsedSource, parsedTarget] at clean
    | some t =>
      refine ⟨f, t, wire_of_parse parsedSource, rfl, ?_⟩
      cases legal : canTransition f t with
      | true => rfl
      | false =>
        cases terminal : isTerminal f <;>
          simp [parsedSource, parsedTarget, legal, terminal] at clean

theorem replayStep_of_edge {target : machine.State} (change : isStateChange event = true)
    (named : payloadStr event "to" = some (wire target))
    (guarded : guard cursor.state target ⟨event.actor, payloadStr event "receipt_id"⟩ = .ok ())
    (legal : canTransition cursor.state target = true)
    (next : event.aggregateVersion.toNat = cursor.version.toNat + 1) :
    replayStep cursor event =
      some { cursor with state := target, version := event.aggregateVersion } := by
  have previous : (event.aggregateVersion - 1).toNat = cursor.version.toNat := by
    have one : (1 : UInt32) ≤ event.aggregateVersion := by
      rw [le_iff_toNat_le]
      simp only [reduceToNat]
      omega
    rw [UInt32.toNat_sub_of_le _ _ one]
    simp only [reduceToNat]
    omega
  have answered : apply cursor (replayRequest event target) =
      .applied target event.aggregateVersion :=
    apply_eq_applied_of_unkeyed rfl guarded legal (UInt32.toNat_inj.mp previous.symm)
      (next.trans (congrArg (· + 1) previous.symm))
  simp [replayStep, change, named, answered]

theorem checkEvent_create (own : event.aggregate = (machine.aggregateType, id))
    (stepped : checkEvent checks before event = some after) (clean : after.findings = [])
    (unseen : before.replay.lookup event.aggregate = none)
    (uncreated : event.aggregate ∉ before.seenCreation) :
    isCreation event = true ∧ event.aggregateVersion = 1 ∧ after.replay.lookup event.aggregate =
        some { state := wire machine.initial, version := 1 } ∧
      event.aggregate ∈ after.seenCreation := by
  have governed : event.aggregateType = machine.aggregateType := congrArg Prod.fst own
  obtain ⟨expected, hit, envelope⟩ := envelopeClean_of_checkEvent stepped clean
  rw [governed, canonicalType_aggregateType] at envelope
  have creation : isCreation event = true :=
    envelope.startsCreated unseen (by simp [machineInitial_aggregateType])
  have first : event.aggregateVersion = 1 := by
    have expectedOne : expected = 1 := by simpa [expectedVersion, unseen] using hit.symm
    rw [envelope.version, expectedOne]
  obtain ⟨_, -, rfl⟩ := (checkEvent_some checks before after event).mp stepped
  simp only [if_pos creation, governed, canonicalType_aggregateType]
  refine ⟨creation, first, ?_, ?_⟩
  · have advanced := lookup_advanceVersion_self before.replay event
    simp [checkCreation, checkEnvelope, uncreated, lookup_setState_self advanced, seededState,
      machineInitial_aggregateType, first]
  · simp [checkCreation, checkEnvelope, uncreated]

theorem checkEvent_advance (own : event.aggregate = (machine.aggregateType, id))
    (stepped : checkEvent checks before event = some after) (clean : after.findings = [])
    (tracked : before.replay.lookup event.aggregate =
      some { state := wire cursor.state, version := cursor.version })
    (created : event.aggregate ∈ before.seenCreation) :
    isCreation event = false ∧ plainSucc checks cursor.version = some event.aggregateVersion ∧
      event.aggregate ∈ after.seenCreation ∧
      (event.aggregateVersion.toNat = cursor.version.toNat + 1 →
        ∃ next, replayStep cursor event = some next ∧ next.version = event.aggregateVersion ∧
          after.replay.lookup event.aggregate =
            some { state := wire next.state, version := next.version }) := by
  have governed : event.aggregateType = machine.aggregateType := congrArg Prod.fst own
  obtain ⟨expected, hit, envelope⟩ := envelopeClean_of_checkEvent stepped clean
  have following : plainSucc checks cursor.version = some event.aggregateVersion := by
    rw [envelope.version, ← hit, expectedVersion, tracked]
  obtain ⟨_, -, rfl⟩ := (checkEvent_some checks before after event).mp stepped
  have advanced := lookup_advanceVersion_self before.replay event
  rw [tracked] at advanced
  by_cases creation : isCreation event = true
  · -- a second creation is reported, so it cannot be clean
    simp [creation, checkCreation, checkEnvelope, created, createdNotFirstFindings] at clean
  · simp only [if_neg creation, governed, canonicalType_aggregateType] at clean ⊢
    refine ⟨by simpa using creation, following, ?_⟩
    by_cases change : isStateChange event = true
    · simp only [if_pos change, checkStateChange] at clean ⊢
      split at clean
      · next source target sourceName targetName =>
          simp only [append_eq_nil_iff] at clean
          obtain ⟨⟨⟨⟨-, fromState⟩, edge⟩, flip⟩, -⟩ := clean
          obtain ⟨f, t, rfl, parsed, legal⟩ := edge_of_edgeFindings machine event source target edge
          have here : f = cursor.state := by
            by_contra elsewhere
            have differ : wire cursor.state ≠ wire f :=
              fun eq => elsewhere (wire_injective eq).symm
            simp [fromStateFindings, checkEnvelope, advanced, created, differ] at fromState
          obtain rfl := wire_of_parse parsed
          rw [here] at legal flip
          refine ⟨created, fun next =>
            ⟨{ cursor with state := t, version := event.aggregateVersion }, ?_, rfl,
              lookup_setState_self advanced _⟩⟩
          exact replayStep_of_edge change targetName (guard_of_flipFindings machine event _ _ flip)
            legal next
      · simp at clean
    · simp only [if_neg change]
      exact ⟨created, fun _ =>
        ⟨{ cursor with version := event.aggregateVersion }, by simp [replayStep, change], rfl,
          advanced⟩⟩

/-! ## The invariant over a stream -/

/-- The version counter does not wrap on a history of this length. -/
def NoWrap (checks : OverflowChecks) (length : Nat) : Prop :=
  checks = .on ∨ length < 2 ^ 32

theorem NoWrap.mono (le : shorter ≤ longer)
    (noWrap : NoWrap checks longer) : NoWrap checks shorter :=
  noWrap.imp_right fun bound => Nat.lt_of_le_of_lt le bound

theorem toNat_of_plainSucc {version next : UInt32}
    (noWrap : NoWrap checks (version.toNat + 1)) (stepped : plainSucc checks version = some next) :
    next.toNat = version.toNat + 1 := by
  rcases noWrap with rfl | bound
  · exact (checkedSucc_some version next).mp stepped
  · rw [plainSucc_eq_checkedSucc checks bound] at stepped
    exact (checkedSucc_some version next).mp stepped

/-- An aggregate's events replay to a cursor, and its table entry is that cursor. -/
structure AtCursor (machine : Machine) (aggregate : String × AggregateId) (history : List Event)
    (state : CheckState) (cursor : Cursor machine.State) : Prop where
  certified : Certified machine history
  replayed : history.tail.foldlM replayStep (startCursor machine) = some cursor
  counted : cursor.version.toNat = history.length
  entry : state.replay.lookup aggregate =
    some { state := wire cursor.state, version := cursor.version }
  created : aggregate ∈ state.seenCreation

/-- An aggregate is either unknown to the checker and without events, or at the
cursor its events replay to. -/
inductive Tracked (machine : Machine) (aggregate : String × AggregateId) (history : List Event)
    (state : CheckState) : Prop where
  | unseen (noEvents : history = []) (noEntry : state.replay.lookup aggregate = none)
      (uncreated : aggregate ∉ state.seenCreation)
  | seen (cursor : Cursor machine.State) (at_ : AtCursor machine aggregate history state cursor)

theorem Tracked.frame (tracked : Tracked machine aggregate history before)
    (stepped : checkEvent checks before event = some after)
    (ne : aggregate ≠ event.aggregate) : Tracked machine aggregate history after := by
  obtain ⟨sameEntry, sameCreation⟩ := checkEvent_frame stepped ne
  cases tracked with
  | unseen noEvents noEntry uncreated =>
    exact .unseen noEvents (sameEntry.trans noEntry) (mt sameCreation.mp uncreated)
  | seen cursor at_ =>
    exact .seen cursor { at_ with
        entry := sameEntry.trans at_.entry
        created := sameCreation.mpr at_.created }

theorem Tracked.create (own : event.aggregate = (machine.aggregateType, id))
    (stepped : checkEvent checks before event = some after) (clean : after.findings = [])
    (noEntry : before.replay.lookup event.aggregate = none)
    (uncreated : event.aggregate ∉ before.seenCreation) :
    Tracked machine event.aggregate [event] after := by
  obtain ⟨creation, first, entry, created⟩ :=
    checkEvent_create own stepped clean noEntry uncreated
  refine .seen (startCursor machine) ⟨⟨⟨event, [], rfl, creation, first⟩, ?_, ?_, ?_⟩, rfl, rfl,
    entry, created⟩
  · simp [first]
  · simp
  · exact ⟨startCursor machine, rfl⟩

theorem Tracked.advance (own : event.aggregate = (machine.aggregateType, id))
    (stepped : checkEvent checks before event = some after) (clean : after.findings = [])
    (noWrap : NoWrap checks (history.length + 1))
    (at_ : AtCursor machine event.aggregate history before cursor) :
    Tracked machine event.aggregate (history ++ [event]) after := by
  obtain ⟨notCreation, succ, created, moves⟩ :=
    checkEvent_advance own stepped clean at_.entry at_.created
  have number := toNat_of_plainSucc (at_.counted ▸ noWrap) succ
  obtain ⟨next, replay, version, entry⟩ := moves number
  obtain ⟨first, rest, rfl, creation, firstVersion⟩ := at_.certified.created
  have replayed : ((first :: rest) ++ [event]).tail.foldlM replayStep (startCursor machine) =
      some next :=
    (foldlM_append_eq_some replayStep rest [event] (startCursor machine) next).mpr
      ⟨cursor, at_.replayed, by simpa using replay⟩
  refine .seen next ⟨⟨⟨first, rest ++ [event], rfl, creation, firstVersion⟩, ?_, ?_,
    next, replayed⟩,
    replayed, ?_, entry, created⟩
  · rw [map_append, at_.certified.contiguous, length_append, length_singleton,
      range'_1_concat, map_singleton, number, at_.counted, Nat.add_comm]
  · intro later mem
    rcases mem_snoc.mp mem with old | rfl
    · exact at_.certified.createdOnce later old
    · exact notCreation
  · rw [version, number, at_.counted, length_append, length_singleton]

/-- **A clean stream tracks every governed aggregate.** -/
theorem tracked_of_clean (machine : Machine) (id : AggregateId)
    (events : List Event) (finished : checkFrom checks .empty events = some final) :
    final.findings = [] →
      NoWrap checks (aggregateEvents (machine.aggregateType, id) events).length →
      Tracked machine (machine.aggregateType, id)
        (aggregateEvents (machine.aggregateType, id) events) final := by
  -- the invariant is over the events read so far, and findings are never taken back
  refine (Run.of_foldlM_option finished).prefix_induction (fun read state =>
    state.findings = [] → NoWrap checks (aggregateEvents (machine.aggregateType, id) read).length →
    Tracked machine (machine.aggregateType, id)
      (aggregateEvents (machine.aggregateType, id) read) state) ?_ ?_
  · intro _ _
    exact .unseen rfl rfl (by simp [CheckState.empty])
  · intro read event _ before after _ ih stepped clean noWrap
    obtain ⟨_, -, envelope⟩ := envelopeClean_of_checkEvent stepped clean
    rw [aggregateEvents, filter_append, ← aggregateEvents] at noWrap ⊢
    by_cases own : event.aggregate = (machine.aggregateType, id)
    · simp only [filter_singleton, own, decide_true, cond_true, length_append,
        length_singleton] at noWrap ⊢
      have tracked := ih envelope.quiet (noWrap.mono (Nat.le_succ _))
      rw [← own] at tracked ⊢
      cases tracked with
      | unseen noEvents noEntry uncreated =>
        rw [noEvents]
        exact Tracked.create own stepped clean noEntry uncreated
      | seen cursor at_ => exact Tracked.advance own stepped clean (own ▸ noWrap) at_
    · simp only [filter_singleton, own, decide_false, cond_false, append_nil] at noWrap ⊢
      exact (ih envelope.quiet noWrap).frame stepped (Ne.symm own)

/-- **A clean stream certifies exactly the aggregates whose version counter does not
wrap.**  Where overflow checks are compiled in that is every governed aggregate of the
stream; without them it is every one with fewer than 2 ^ 32 events. -/
theorem checkStream_certifies_iff (checks : OverflowChecks) (events : List Event)
    (passed : checkStream checks events = some []) (machine : Machine) (id : AggregateId)
    (present : aggregateEvents (machine.aggregateType, id) events ≠ []) :
    Certified machine (aggregateEvents (machine.aggregateType, id) events) ↔
      checks = .on ∨ (aggregateEvents (machine.aggregateType, id) events).length < 2 ^ 32 := by
  constructor
  · intro certified
    exact .inr certified.length_lt
  · intro noWrap
    obtain ⟨final, finished, clean⟩ := map_eq_some_iff.mp passed
    cases tracked_of_clean machine id events finished clean noWrap with
    | unseen noEvents _ _ => exact absurd noEvents present
    | seen cursor at_ => exact at_.certified

/-! ## The history that wraps -/

def plainTaskEvent (eventType : String) (position : Nat) : Event where
  eventId := "e"
  projectId := "p"
  aggregateType := "task"
  aggregateId := "t"
  aggregateVersion := UInt32.ofNat position
  eventType := eventType
  schemaVersion := 1
  globalSequence := UInt64.ofNat position
  occurredAt := "2026-07-27T00:00:00Z"
  appendedAt := "2026-07-27T00:00:00Z"
  actor := { kind := "kernel", id := none }
  origin := { system := "kernel", ref := none }
  causationId := none
  correlationId := none
  idempotencyKey := none
  payload := .object []
  payloadRef := none

/-- A task created at version 1, with notes at the following versions modulo
2 ^ 32. -/
def notedTask (notes : Nat) : List Event :=
  plainTaskEvent "task_created" 1 ::
    (List.range notes).map fun note => plainTaskEvent "task_noted" (note + 2)

/-- What the loop holds after the event at a position. -/
structure NotedUpTo (position : Nat) (state : CheckState) : Prop where
  quiet : state.findings = []
  lastSeq : state.lastSeq = some (UInt64.ofNat position)
  entry : state.replay.lookup ("task", "t") =
    some { state := "submitted", version := UInt32.ofNat position }

theorem notedUpTo_one : ∃ state,
    checkEvent .off .empty (plainTaskEvent "task_created" 1) = some state ∧ NotedUpTo 1 state :=
  ⟨_, rfl, by decide, rfl, by decide⟩

theorem NotedUpTo.next (noted : NotedUpTo position state) (bound : position + 1 < 2 ^ 64) : ∃ after,
    checkEvent .off state (plainTaskEvent "task_noted" (position + 1)) = some after ∧
      NotedUpTo (position + 1) after := by
  set note := plainTaskEvent "task_noted" (position + 1)
  have expected : expectedVersion .off state.replay note = some (ofNat (position + 1)) := by
    simp [expectedVersion, EventEnvelope.aggregate, note, plainTaskEvent, noted.entry, plainSucc]
  have increasing : ¬ UInt64.ofNat (position + 1) ≤ UInt64.ofNat position := by
    rw [UInt64.le_iff_toNat_le, UInt64.toNat_ofNat_of_lt' bound,
      UInt64.toNat_ofNat_of_lt' (Nat.lt_of_succ_lt bound)]
    omega
  refine ⟨checkEnvelope "task" (ofNat (position + 1)) state note,
    (checkEvent_some ..).mpr ⟨_, expected, ?_⟩, ?_, rfl, ?_⟩
  · have canonical : canonicalType "task" = "task" := by decide
    have noCreation : endsWith "task_noted" "_created" = false := by decide
    have noChange : endsWith "task_noted" "_state_changed" = false := by decide
    simp [isCreation, isStateChange, note, plainTaskEvent, canonical, noCreation, noChange]
  · have sequence : seqFindings state.lastSeq note = [] := by
      rw [noted.lastSeq]
      exact if_neg increasing
    have version : versionFindings (ofNat (position + 1)) note = [] :=
      if_neg (not_not.mpr rfl)
    have started : creationMissingFindings "task" state.replay note = [] := by
      simp [creationMissingFindings, EventEnvelope.aggregate, note, plainTaskEvent, noted.entry]
    simp only [checkEnvelope, envelopeFindings, noted.quiet, sequence, version, started]
    rfl
  · have advanced := lookup_advanceVersion_self state.replay note
    rw [show note.aggregate = ("task", "t") from rfl, noted.entry] at advanced
    exact advanced

theorem notedTask_clean (notes : Nat) (bound : notes + 1 < 2 ^ 64) : ∃ state,
    checkFrom .off .empty (notedTask notes) = some state ∧ NotedUpTo (notes + 1) state := by
  induction notes with
  | zero =>
    obtain ⟨state, stepped, noted⟩ := notedUpTo_one
    exact ⟨state, by simpa [checkFrom, notedTask] using stepped, noted⟩
  | succ notes ih =>
    obtain ⟨state, finished, noted⟩ := ih (by omega)
    obtain ⟨after, stepped, next⟩ := noted.next bound
    refine ⟨after, ?_, next⟩
    have split : notedTask (notes + 1) =
        notedTask notes ++ [plainTaskEvent "task_noted" (notes + 2)] := by
      simp [notedTask, range_succ]
    rw [split]
    exact (foldlM_append_eq_some ..).mpr ⟨state, finished, by simpa using stepped⟩

theorem aggregateEvents_notedTask (notes : Nat) :
    aggregateEvents (Machine.task.aggregateType, "t") (notedTask notes) = notedTask notes := by
  rw [aggregateEvents, filter_eq_self]
  intro event mem
  simp only [notedTask, mem_cons, List.mem_map, mem_range] at mem
  rcases mem with rfl | ⟨note, -, rfl⟩ <;> rfl

/-- **The version counter wraps.**  A task with 2 ^ 32 events is clean in a build
without overflow checks: its last event carries version 0 where its position is
2 ^ 32. -/
theorem checkStream_certifies_wrapped : checkStream .off (notedTask (2 ^ 32 - 1)) = some [] ∧
      aggregateEvents (Machine.task.aggregateType, "t") (notedTask (2 ^ 32 - 1)) ≠ [] ∧
      ¬ Certified .task
        (aggregateEvents (Machine.task.aggregateType, "t") (notedTask (2 ^ 32 - 1))) := by
  obtain ⟨state, finished, noted⟩ := notedTask_clean (2 ^ 32 - 1) (by omega)
  rw [aggregateEvents_notedTask]
  refine ⟨?_, cons_ne_nil _ _, fun certified => ?_⟩
  · rw [checkStream, finished, map_some, noted.quiet]
  · have short := certified.length_lt
    rw [notedTask, length_cons, length_map, length_range] at short
    omega

end Gridwork.Cert
