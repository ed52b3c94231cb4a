import Mathlib.Data.List.Nodup
import Gridwork.Kernel.History

/-!
# Retries

A key names one event of its project and one event of its aggregate.  A call under a used
key is therefore answered from the log: with the original event when it asks for the same
thing, and with a conflict when it does not.  Neither answer writes anything, and neither
depends on what happened in between, so grants, versions and states that have moved on do
not matter: `after_retries`.
-/

namespace Gridwork.Kernel

open Domain Lib List Option

variable {pg : Postgres} {codec : Codec} {deliveries more : List PtyDelivery}
  {projectId : ProjectId} {events : List Event}

/-! ## What an applied call leaves -/

/-- A call asks for what another call asked for; the bytes of a PTY input are compared by
their binding. -/
structure SameRequest (first : Call) (firstRequest : Request) (call : Call) (request : Request) :
    Prop where
  projectId : call.envelope.projectId = first.envelope.projectId
  actor : call.envelope.actor = first.envelope.actor
  aggregateType : request.route.aggregateType = firstRequest.route.aggregateType
  aggregateId : request.route.aggregateId = firstRequest.route.aggregateId
  command : request.command = firstRequest.command
  binding : request.command.isPtyInput = true → request.inputBinding = firstRequest.inputBinding

structure OnRecord (db : Db) (call : Call) (request : Request) (row : Event) : Prop where
  logged : row ∈ db.events
  key : row.idempotencyKey = some call.envelope.idempotencyKey
  projectId : row.projectId = call.envelope.projectId
  aggregateType : row.aggregateType = request.route.aggregateType
  aggregateId : row.aggregateId = request.route.aggregateId
  actor : row.actor = call.envelope.actor
  payload : row.payload = .command request.command
  binding : request.command.isPtyInput = true → ∃ bound, request.inputBinding = some bound ∧
    storedBinding db.deliveries call.envelope.projectId call.envelope.idempotencyKey = some bound

variable {key : IdempotencyKey}

theorem storedBinding_append {bound : List UInt8}
    (stored : storedBinding deliveries projectId key = some bound) :
    storedBinding (deliveries ++ more) projectId key = some bound := by
  obtain ⟨delivery, hit, binds⟩ := bind_eq_some_iff.mp stored
  simp only [storedBinding, find?_append, hit, some_or, bind_some, binds]

theorem storedBinding_snoc {delivery : PtyDelivery}
    (free : deliveryIndexesFree deliveries delivery) :
    storedBinding (deliveries ++ [delivery]) delivery.projectId delivery.idempotencyKey =
      delivery.inputBinding := by
  have absent : deliveries.find? (fun other => other.projectId = delivery.projectId ∧
      other.idempotencyKey = delivery.idempotencyKey) = none := by
    rw [find?_eq_none]
    intro other mem eq
    simp only [decide_eq_true_eq] at eq
    exact (free other mem).1 (Prod.ext eq.1 eq.2)
  rw [storedBinding, find?_append, absent]
  simp

theorem OnRecord.grow {before after : Db} {call : Call} {request : Request} {row : Event}
    (record : OnRecord before call request row) (grows : Grows before after) :
    OnRecord after call request row where
  logged := grows.events.subset record.logged
  key := record.key
  projectId := record.projectId
  aggregateType := record.aggregateType
  aggregateId := record.aggregateId
  actor := record.actor
  payload := record.payload
  binding isInput := by
    obtain ⟨bound, binds, stored⟩ := record.binding isInput
    obtain ⟨more, appended⟩ := grows.deliveries
    exact ⟨bound, binds, appended ▸ storedBinding_append stored⟩

variable {command : KernelCommand}

theorem bytes_of_inputRefusal {envelope : CommandEnvelope}
    {ptyInput : Option PtyInputCarrier} (isInput : command.isPtyInput = true)
    (valid : inputRefusal envelope command ptyInput = none) :
    ∃ bytes, ptyInput = some (.bytes bytes) := by
  cases command with
  | sendPtyInput =>
    rcases ptyInput with _ | (bytes | message)
    · cases valid
    · exact ⟨bytes, rfl⟩
    · cases valid
  | _ => cases isInput

theorem Passes.bound_of_isPtyInput {call : Call} {request : Request}
    (passes : Passes codec call request) (valid : request.refusal = none)
    (isInput : request.command.isPtyInput = true) :
    ∃ bound, request.inputBinding = some bound := by
  have carrier := passes.carrier
  simp only [checkCarrier, isInput, if_true, Except.ok.injEq, valid] at carrier
  obtain ⟨bytes, carried⟩ := bytes_of_inputRefusal isInput carrier
  have bound := passes.bound
  rw [carried, bindInput] at bound
  split at bound
  next => cases bound
  next key _ => exact ⟨_, (Except.ok.inj bound).symm⟩

theorem mem_eventsForKey {log : List Event} {aggregateType : String} {aggregateId : AggregateId}
    {event : Event} :
    event ∈ eventsForKey log projectId aggregateType aggregateId key ↔
      event ∈ log ∧ event.idempotencyKey = some key ∧ (event.projectId = projectId ∨
        (event.aggregateType = aggregateType ∧ event.aggregateId = aggregateId)) := by
  simp only [eventsForKey, mem_filter, decide_eq_true_eq]

theorem receiptedPty_of_isPtyInput (isInput : command.isPtyInput = true) :
    command.receiptedPty = true := by
  cases command with
  | sendPtyInput => rfl
  | _ => cases isInput

theorem onRecord_of_step {db applied : Db} {call : Call} {request : Request}
    (passes : Passes codec call request)
    (unchanged : storedBody pg (.command request.command) = some (.command request.command))
    (step : Step pg codec db call request ⟨applied, .ok events⟩) :
    ∃ row, events = [row] ∧ OnRecord applied call request row := by
  cases step with
  | replayed valid prior bytes =>
    obtain ⟨row, stored, rfl, projectId, aggregateType, aggregateId, actor, payload⟩ :=
      priorForKey_eq_replay_iff.mp prior
    obtain ⟨logged, key, -⟩ := mem_eventsForKey.mp (stored ▸ mem_singleton_self row)
    refine ⟨row, rfl, logged, key, projectId, aggregateType, aggregateId, actor, payload, ?_⟩
    intro isInput
    obtain ⟨bound, binds⟩ := passes.bound_of_isPtyInput valid isInput
    exact ⟨bound, binds, (bytes isInput).trans binds⟩
  | @landed _ receipts _ row tables fresh _ _ _ _ _ _ lands =>
    obtain ⟨occurred, payload, -, stored, isRow, -⟩ := insertEvent_ok.mp lands.inserted
    rw [show (commandEvent call.envelope request.command request.route _).payload =
      .command request.command from rfl, unchanged, Option.some.injEq] at stored
    subst stored
    have logged : row ∈ (landing pg codec { db with receipts } call request row tables).events := by
      rw [landing_events]
      exact mem_append_right _ mem_cons_self
    subst isRow
    refine ⟨_, rfl, logged, rfl, rfl, rfl, rfl, rfl, rfl, ?_⟩
    intro isInput
    obtain ⟨bound, binds⟩ := passes.bound_of_isPtyInput fresh.valid isInput
    have control := receiptedPty_of_isPtyInput isInput
    refine ⟨bound, binds, ?_⟩
    rw [landing_deliveries, control, if_pos rfl]
    exact (storedBinding_snoc (lands.delivered control)).trans binds

/-! ## Answers from the log -/

theorem eq_singleton_of_nodup {Item : Type} {items : List Item} {item : Item}
    (distinct : items.Nodup) (mem : item ∈ items) (only : ∀ other ∈ items, other = item) :
    items = [item] := by
  have copies := eq_replicate_of_mem only
  have most : items.length ≤ 1 := by
    rw [copies, nodup_replicate] at distinct
    exact distinct
  have least : 0 < items.length := length_pos_of_mem mem
  rw [copies, show items.length = 1 by omega]
  rfl

theorem LogInvariant.nodup {db : Db} (log : LogInvariant db) : db.events.Nodup :=
  log.apart.imp fun apart eq => apart.1 (congrArg _ eq)

variable {db : Db} {first call : Call} {firstRequest request : Request} {row : Event}

theorem OnRecord.priorForKey_eq (record : OnRecord db first firstRequest row)
    (log : LogInvariant db)
    (sameKey : call.envelope.idempotencyKey = first.envelope.idempotencyKey)
    (eq : SameRequest first firstRequest call request) :
    priorForKey db.events call.envelope request = .replay [row] := by
  have projectId : row.projectId = call.envelope.projectId :=
    record.projectId.trans eq.projectId.symm
  have aggregateType : row.aggregateType = request.route.aggregateType :=
    record.aggregateType.trans eq.aggregateType.symm
  have aggregateId : row.aggregateId = request.route.aggregateId :=
    record.aggregateId.trans eq.aggregateId.symm
  have key : row.idempotencyKey = some call.envelope.idempotencyKey :=
    record.key.trans (congrArg some sameKey.symm)
  have payload : row.payload = .command request.command :=
    record.payload.trans (congrArg EventBody.command eq.command.symm)
  refine priorForKey_eq_replay_iff.mpr ⟨row, ?_, rfl, projectId, aggregateType, aggregateId,
    record.actor.trans eq.actor.symm, payload⟩
  refine eq_singleton_of_nodup (log.nodup.filter _)
    (mem_eventsForKey.mpr ⟨record.logged, key, .inl projectId⟩) ?_
  intro other mem
  obtain ⟨logged, otherKey, shared⟩ := mem_eventsForKey.mp mem
  refine log.eq_of_key logged record.logged otherKey key ?_
  rcases shared with sameProject | ⟨sameType, sameId⟩
  · exact .inl (sameProject.trans projectId.symm)
  · exact .inr (Prod.ext (sameType.trans aggregateType.symm) (sameId.trans aggregateId.symm))

theorem OnRecord.submit_same (record : OnRecord db first firstRequest row)
    (log : LogInvariant db) (passes : Passes codec call request) (valid : request.refusal = none)
    (admits : Admits db call request) (answers : call.moment.storage = .answers)
    (sameKey : call.envelope.idempotencyKey = first.envelope.idempotencyKey)
    (eq : SameRequest first firstRequest call request) :
    ∃ mark, submit pg codec db call = (.commandApplied call.envelope.commandId [row] mark, db) := by
  have bytes (isInput : request.command.isPtyInput = true) :
      storedBinding db.deliveries call.envelope.projectId call.envelope.idempotencyKey =
        request.inputBinding := by
    obtain ⟨bound, binds, stored⟩ := record.binding (eq.command ▸ isInput)
    rw [eq.projectId, sameKey, stored, eq.binding isInput, binds]
  cases mark : watermark db.events with
  | none =>
    have logged := record.logged
    rw [watermark_none.mp mark] at logged
    cases logged
  | some mark' =>
    refine ⟨mark', ?_⟩
    rw [submit_of_step passes admits
      (.replayed valid (record.priorForKey_eq log sameKey eq) bytes)]
    simp only [Committed.reply, applied, answers, mark]

theorem transact_of_admits (admits : Admits db call request) (valid : request.refusal = none) :
    transact pg codec db call request = keyed pg codec db call request := by
  have locked : lockWriter call.store db = .ok () := require_ok.mpr admits.locked
  simp only [transact, admits.answers, locked, admits.admitted, valid]
  rfl

theorem replayed_conflict (differ : ¬ (request.command.isPtyInput = true →
      storedBinding db.deliveries call.envelope.projectId call.envelope.idempotencyKey =
        request.inputBinding)) (events : List Event) :
    ∃ refusal : Refusal, refusal.code = .idempotencyConflict ∧
      replayed db call request events = .error refusal := by
  rw [replayed, require, if_neg differ]
  exact ⟨_, rfl, rfl⟩

theorem OnRecord.submit_other (record : OnRecord db first firstRequest row)
    (passes : Passes codec call request) (valid : request.refusal = none)
    (admits : Admits db call request)
    (sameKey : call.envelope.idempotencyKey = first.envelope.idempotencyKey)
    (shared : call.envelope.projectId = first.envelope.projectId ∨
      (request.route.aggregateType = firstRequest.route.aggregateType ∧
        request.route.aggregateId = firstRequest.route.aggregateId))
    (other : ¬ SameRequest first firstRequest call request) :
    ∃ refusal : Refusal, refusal.code = .idempotencyConflict ∧
      submit pg codec db call = (.error refusal, db) := by
  have listed : row ∈ eventsForKey db.events call.envelope.projectId request.route.aggregateType
      request.route.aggregateId call.envelope.idempotencyKey := by
    refine mem_eventsForKey.mpr ⟨record.logged, record.key.trans (congrArg some sameKey.symm), ?_⟩
    rcases shared with sameProject | ⟨sameType, sameId⟩
    · exact .inl (record.projectId.trans sameProject.symm)
    · exact .inr ⟨record.aggregateType.trans sameType.symm, record.aggregateId.trans sameId.symm⟩
  suffices conflict : ∃ refusal : Refusal, refusal.code = .idempotencyConflict ∧
      keyed pg codec db call request = .error refusal by
    obtain ⟨refusal, code, refused⟩ := conflict
    refine ⟨refusal, code, ?_⟩
    have outcome : preflight codec call >>= transact pg codec db call = .error refusal := by
      rw [preflight_ok.mpr passes]
      exact (transact_of_admits admits valid).trans refused
    simp only [submit, outcome]
  unfold keyed
  cases prior : priorForKey db.events call.envelope request with
  | unused =>
    rw [priorForKey_eq_unused_iff.mp prior] at listed
    cases listed
  | conflict reason => exact ⟨_, rfl, rfl⟩
  | replay events =>
    -- everything the log can compare agrees, so it is the bytes that differ
    obtain ⟨hit, stored, rfl, projectId, aggregateType, aggregateId, actor, payload⟩ :=
      priorForKey_eq_replay_iff.mp prior
    rw [stored, mem_singleton] at listed
    subst listed
    have sameCommand : request.command = firstRequest.command :=
      EventBody.command.inj (payload.symm.trans record.payload)
    have differ : ¬ (request.command.isPtyInput = true →
        storedBinding db.deliveries call.envelope.projectId call.envelope.idempotencyKey =
          request.inputBinding) := by
      intro bytes
      refine other ⟨projectId.symm.trans record.projectId, actor.symm.trans record.actor,
        aggregateType.symm.trans record.aggregateType, aggregateId.symm.trans record.aggregateId,
        sameCommand, ?_⟩
      intro isInput
      obtain ⟨bound, binds, storedBound⟩ := record.binding (sameCommand ▸ isInput)
      rw [binds, ← bytes isInput, ← storedBound, sameKey, projectId.symm.trans record.projectId]
    exact replayed_conflict differ [row]

/-- **Retries are stable.**  Whatever happened since a call was applied, a call under its key
that gets as far as the key is answered with the original event if it asks for the same
thing, and with a conflict if it asks for something else in the same project or on the same
aggregate; neither writes anything.  So a project and key name one event. -/
theorem after_retries {initial : Db} (init : Initialised pg codec initial) (calls : List Call) :
    (∀ more first firstRequest applied events, preflight codec first = .ok firstRequest →
      transact pg codec (after pg codec initial calls) first firstRequest =
        .ok ⟨applied, .ok events⟩ →
      storedBody pg (.command firstRequest.command) = some (.command firstRequest.command) →
      ∃ row, events = [row] ∧ ∀ call request, preflight codec call = .ok request →
      request.refusal = none →
      Admits (after pg codec initial (calls ++ first :: more)) call request →
      call.moment.storage = .answers →
      call.envelope.idempotencyKey = first.envelope.idempotencyKey →
      (SameRequest first firstRequest call request → ∃ mark,
        submit pg codec (after pg codec initial (calls ++ first :: more)) call =
          (.commandApplied call.envelope.commandId [row] mark,
            after pg codec initial (calls ++ first :: more))) ∧
      (¬ SameRequest first firstRequest call request →
        call.envelope.projectId = first.envelope.projectId ∨
          (request.route.aggregateType = firstRequest.route.aggregateType ∧
            request.route.aggregateId = firstRequest.route.aggregateId) →
        ∃ refusal : Refusal, refusal.code = .idempotencyConflict ∧
          submit pg codec (after pg codec initial (calls ++ first :: more)) call =
            (.error refusal, after pg codec initial (calls ++ first :: more)))) ∧
    ∀ event ∈ (after pg codec initial calls).events,
      ∀ other ∈ (after pg codec initial calls).events,
        event.projectId = other.projectId → event.idempotencyKey.isSome →
        event.idempotencyKey = other.idempotencyKey → event = other := by
  constructor
  · intro more first firstRequest applied events preflighted applies unchanged
    have passes := preflight_ok.mp preflighted
    obtain ⟨row, isRow, record⟩ :=
      onRecord_of_step passes unchanged (transact_ok.mp applies).2
    have leaves : (submit pg codec (after pg codec initial calls) first).2 = applied := by
      rw [submit_of_ok (bind_ok.mpr ⟨firstRequest, preflighted, applies⟩)]
    have later : after pg codec initial (calls ++ first :: more) = after pg codec applied more := by
      rw [after_append, ← leaves]
      rfl
    have recorded : OnRecord (after pg codec initial (calls ++ first :: more)) first firstRequest
        row := later ▸ record.grow (after_grows applied more)
    have log := after_logInvariant init (calls ++ first :: more)
    refine ⟨row, isRow, ?_⟩
    intro call request preflightedAgain valid admits answers sameKey
    have passesAgain := preflight_ok.mp preflightedAgain
    exact ⟨recorded.submit_same log passesAgain valid admits answers sameKey,
      fun other shared => recorded.submit_other passesAgain valid admits sameKey shared other⟩
  · intro event mem other otherMember sameProject isSome sameKey
    obtain ⟨key, keyed⟩ := isSome_iff_exists.mp isSome
    exact (after_logInvariant init calls).eq_of_key mem otherMember keyed
      (sameKey ▸ keyed) (.inl sameProject)

open Sample in
/-- A declaration is repeated under a new command id, with a time that is none, after
something else was paged. -/
theorem after_retries_declared : ∃ row mark mark',
      (submit postgres Sample.codec (ran [activate]) declared).1 =
        .commandApplied "k0" [row] mark ∧
      submit postgres Sample.codec
          (ran ([activate] ++ declared :: [ungranted "k1"]))
          (again 1) =
        (.commandApplied "k9" [row] mark',
          ran ([activate] ++ declared :: [ungranted "k1"])) := by
  obtain ⟨row, isRow, stable⟩ := (after_retries init [activate]).1
    [ungranted "k1"] declared _ _ _ rfl rfl rfl
  cases isRow
  obtain ⟨mark', answer⟩ := (stable (again 1) _ rfl rfl ⟨rfl, rfl, rfl⟩ rfl rfl).1
    ⟨rfl, rfl, rfl, rfl, rfl, nofun⟩
  exact ⟨_, _, mark', rfl, answer⟩

open Sample in
/-- The same declaration in an envelope of another schema version: it is refused before its
key is looked at. -/
theorem after_retries_outdated :
    (∃ row mark, (submit postgres Sample.codec (ran [activate])
        declared).1 = .commandApplied "k0" [row] mark) ∧
      KernelCommand.fromEnvelope (again 2).envelope =
        KernelCommand.fromEnvelope declared.envelope ∧
      (again 2).envelope.projectId = declared.envelope.projectId ∧
      (again 2).envelope.idempotencyKey = declared.envelope.idempotencyKey ∧
      (again 2).envelope.actor = declared.envelope.actor ∧
      ∃ refusal : Refusal, refusal.code = .schema ∧
        (submit postgres Sample.codec (ran [activate, declared])
          (again 2)).1 = .error refusal :=
  ⟨⟨_, _, rfl⟩, rfl, rfl, rfl, rfl, _, rfl, rfl⟩

end Gridwork.Kernel
