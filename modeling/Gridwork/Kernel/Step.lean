import Gridwork.Kernel.Submit
import Gridwork.Lib.Run

/-!
# What one call can do

`Step` lists everything a committed transaction of the command path can be: the answer to a
repeated key, a refused PTY input or control with its receipt, a page with its receipt and item, or
an event that landed.  `transact_ok` proves the list exact, and `land_ok` says when
an event lands and what it leaves.
-/

namespace Gridwork.Kernel

open Domain Lib List

variable {pg : Postgres} {codec : Codec} {store : Store} {locked : Writer} {now : Instant}
  {appended events log : List Event} {db attested initial before mid : Db}
  {actionClass basis : String} {call : Call} {request : Request} {row event : Event}
  {tables : Projections} {want : UInt32} {envelope : CommandEnvelope} {command : KernelCommand}
  {route : Route}

/-! ## The checkpoint barrier -/

theorem checkpointIfDue_cases : checkpointIfDue pg codec store locked now appended db = db ∨
      ∃ last ∈ appended.getLast?, checkpointIfDue pg codec store locked now appended db =
        snapshot codec db last.globalSequence now (pg.render now) := by
  unfold checkpointIfDue
  split
  next key last _ isLast =>
    split
    · exact .inr ⟨last, isLast, rfl⟩
    · exact .inl rfl
  next => exact .inl rfl

theorem checkpointIfDue_frame :
    let result := checkpointIfDue pg codec store locked now appended db
    result.events = db.events ∧ result.tables = db.tables ∧ result.receipts = db.receipts ∧
      result.deliveries = db.deliveries ∧ result.writer.epoch = db.writer.epoch ∧
      result.writer.nextSeq = db.writer.nextSeq := by
  intro result
  have cases : result = db ∨ ∃ last ∈ appended.getLast?,
      result = snapshot codec db last.globalSequence now (pg.render now) := checkpointIfDue_cases
  rcases cases with eq | ⟨last, -, eq⟩
  · rw [eq]
    exact ⟨rfl, rfl, rfl, rfl, rfl, rfl⟩
  · rw [eq]
    exact ⟨rfl, rfl, rfl, rfl, rfl, rfl⟩

/-! ## Attesting -/

theorem attest_ok :
    attest pg db call request actionClass basis = .ok attested ↔ ∃ receipts,
      writeReceipt (pg.asOf call.moment.now)
          (receiptFor call.envelope request.route request.command actionClass basis) db.receipts =
            .ok receipts ∧ attested = { db with receipts } := by
  simp only [attest, bind_ok, pure_ok]

def Attests (pg : Postgres) (call : Call) (request : Request) (result : Option (String × String))
    (before after : Rows Receipt) : Prop :=
  match result with
  | none => after = before
  | some (actionClass, basis) =>
    writeReceipt (pg.asOf call.moment.now)
      (receiptFor call.envelope request.route request.command actionClass basis)
      before = .ok after

theorem attestResult_ok {result : Option (String × String)} :
    attestResult pg db call request result = .ok attested ↔
      ∃ receipts, Attests pg call request result db.receipts receipts ∧
        attested = { db with receipts } := by
  cases result with
  | none =>
    simp only [attestResult, Attests, Except.ok.injEq]
    constructor
    · rintro rfl
      exact ⟨_, rfl, rfl⟩
    · rintro ⟨_, rfl, rfl⟩
      rfl
  | some named => exact attest_ok

/-! ## Landing -/

/-- The event a request produces lands as `row`, and projects to `tables`. -/
structure Lands (pg : Postgres) (codec : Codec) (db : Db) (call : Call) (request : Request)
    (want : UInt32) (row : Event) (tables : Projections) : Prop where
  agreed : ∀ version ∈ call.envelope.expectedVersion, version = want
  below : want.toNat + 1 < 2 ^ 32
  fits : codec.inlineSize (.command request.command) ≤ INLINE_PAYLOAD_MAX_BYTES
  current : currentAggregateVersion db.events request.route.aggregateType
    request.route.aggregateId = want
  inserted : insertEvent pg call.moment.now db.events db.writer.nextSeq
    (commandEvent call.envelope request.command request.route (want + 1)) = .ok row
  sequenced : db.writer.nextSeq.toNat + 1 < 2 ^ 64
  projected : applyEvent (pg.asOf call.moment.now) row db.tables = .ok tables
  delivered : request.command.receiptedPty = true →
    deliveryIndexesFree db.deliveries (deliveryOf call request row)

/-- The database with a landed event in it, before the barrier. -/
def withEvent (db : Db) (call : Call) (request : Request) (row : Event) (tables : Projections) :
    Db :=
  { db with
    events := db.events ++ [row]
    writer := { db.writer with nextSeq := db.writer.nextSeq + 1 }
    tables
    deliveries := db.deliveries ++
      if request.command.receiptedPty then [deliveryOf call request row] else [] }

def landing (pg : Postgres) (codec : Codec) (db : Db) (call : Call) (request : Request)
    (row : Event) (tables : Projections) : Db :=
  checkpointIfDue pg codec call.store db.writer call.moment.now [row]
    (withEvent db call request row tables)

@[simp] theorem landing_events :
    (landing pg codec db call request row tables).events = db.events ++ [row] :=
  checkpointIfDue_frame.1

@[simp] theorem landing_tables : (landing pg codec db call request row tables).tables = tables :=
  checkpointIfDue_frame.2.1

@[simp] theorem landing_receipts :
    (landing pg codec db call request row tables).receipts = db.receipts :=
  checkpointIfDue_frame.2.2.1

@[simp] theorem landing_deliveries :
    (landing pg codec db call request row tables).deliveries = db.deliveries ++
      if request.command.receiptedPty then [deliveryOf call request row] else [] :=
  checkpointIfDue_frame.2.2.2.1

@[simp] theorem landing_epoch :
    (landing pg codec db call request row tables).writer.epoch = db.writer.epoch :=
  checkpointIfDue_frame.2.2.2.2.1

@[simp] theorem landing_nextSeq :
    (landing pg codec db call request row tables).writer.nextSeq = db.writer.nextSeq + 1 :=
  checkpointIfDue_frame.2.2.2.2.2

theorem landing_checkpoints_subset :
    (landing pg codec db call request row tables).checkpoints ⊆ db.checkpoints ++
      [checkpointOf codec tables.derived row.globalSequence (pg.render call.moment.now)] := by
  have cases : landing pg codec db call request row tables = withEvent db call request row tables ∨
      ∃ last ∈ [row].getLast?, landing pg codec db call request row tables =
        snapshot codec (withEvent db call request row tables) last.globalSequence call.moment.now
          (pg.render call.moment.now) := checkpointIfDue_cases
  rcases cases with eq | ⟨last, isLast, eq⟩
  · rw [eq]
    exact subset_append_left _ _
  · cases isLast
    rw [eq]
    simp only [snapshot]
    split
    · exact subset_append_left _ _
    · exact List.Subset.refl _

theorem storedUnderKeys_eq_nil {key : IdempotencyKey} (keyed : event.idempotencyKey = some key)
    (unused : eventsForKey log event.projectId event.aggregateType event.aggregateId key = []) :
    storedUnderKeys log event [event] = [] := by
  simp only [eventsForKey, filter_eq_nil_iff, decide_eq_true_eq, not_and] at unused
  simp only [storedUnderKeys, filter_eq_nil_iff, decide_eq_true_eq, map_cons,
    map_nil, mem_singleton, keyed]
  rintro other mem ⟨eq, -, keyEq⟩
  refine unused other mem keyEq (.inr ?_)
  exact Prod.ext_iff.mp eq

theorem checkedSucc_below (below : want.toNat + 1 < 2 ^ 32) :
    checkedSucc want = some (want + 1) :=
  (checkedSucc_some _ _).mpr (toNat_succ below)

theorem checkedSucc_ceiling (ceiling : ¬ want.toNat + 1 < 2 ^ 32) :
    checkedSucc want = none := by
  cases hit : checkedSucc want with
  | none => rfl
  | some next =>
    have nextBound := next.toNat_lt
    have := (checkedSucc_some _ _).mp hit
    omega

theorem buildEvent_ok : buildEvent envelope command route want = .ok event ↔
      want.toNat + 1 < 2 ^ 32 ∧ event = commandEvent envelope command route (want + 1) := by
  by_cases below : want.toNat + 1 < 2 ^ 32
  · simp only [buildEvent, checkedSucc_below below, Except.ok.injEq, below, true_and]
    exact eq_comm
  · simp only [buildEvent, checkedSucc_ceiling below, reduceCtorEq, below, false_and]

theorem land_ok {committed : Committed}
    (unused : eventsForKey db.events call.envelope.projectId request.route.aggregateType
      request.route.aggregateId call.envelope.idempotencyKey = []) :
    land pg codec db call request want = .ok committed ↔
      ∃ row tables, Lands pg codec db call request want row tables ∧
        committed = ⟨landing pg codec db call request row tables, .ok [row]⟩ := by
  have stored (version : UInt32) : storedUnderKeys db.events
      (commandEvent call.envelope request.command request.route version)
      [commandEvent call.envelope request.command request.route version] = [] :=
    storedUnderKeys_eq_nil rfl unused
  simp only [land, bind_ok, exists_unit, pure_ok, mapError_ok,
    checkExpectedVersion, forM_require_ok, buildEvent_ok]
  constructor
  · rintro ⟨agreed, _, ⟨below, rfl⟩, appended, append, projected, project, registered, register,
      rfl⟩
    obtain ⟨row, valid, current, inserted, sequenced, rfl⟩ :=
      (appendLocked_singleton (stored _)).mp append
    obtain ⟨-, -, -, fits⟩ := validateBatch_singleton.mp valid
    simp only [projectAppended, Bool.false_eq_true, if_false, foldlM_cons, foldlM_nil,
      bind_pure, bind_ok, pure_ok] at project
    obtain ⟨tables, applies, rfl⟩ := project
    cases receipted : request.command.receiptedPty with
    | false =>
      simp only [registerDelivery, receipted, or_true, if_true, Except.ok.injEq] at register
      subst register
      refine ⟨row, tables, ⟨agreed, below, fits, current, inserted, sequenced, applies, ?_⟩, ?_⟩
      · simp [receipted]
      · simp [landing, withEvent, receipted]
    | true =>
      simp only [registerDelivery, receipted, Bool.true_eq_false, Bool.false_eq_true, or_false,
        if_false, bind_ok, exists_unit, require_ok, pure_ok] at register
      obtain ⟨free, rfl⟩ := register
      refine ⟨row, tables, ⟨agreed, below, fits, current, inserted, sequenced, applies, ?_⟩, ?_⟩
      · exact fun _ => free
      · simp [landing, withEvent, receipted]
  · rintro ⟨row, tables, ⟨agreed, below, fits, current, inserted, sequenced, applies, delivered⟩,
      rfl⟩
    refine ⟨agreed, _, ⟨below, rfl⟩, _, (appendLocked_singleton (stored _)).mpr
      ⟨row, validateBatch_singleton.mpr ⟨below, toNat_succ below, nofun, fits⟩, current,
        inserted, sequenced, rfl⟩, ?_⟩
    simp only [projectAppended, Bool.false_eq_true, if_false, foldlM_cons, foldlM_nil,
      bind_pure, bind_ok, pure_ok]
    refine ⟨_, ⟨tables, applies, rfl⟩, withEvent db call request row tables, ?_, rfl⟩
    cases receipted : request.command.receiptedPty with
    | false => simp [registerDelivery, withEvent, receipted]
    | true =>
      simp only [registerDelivery, receipted, Bool.true_eq_false, Bool.false_eq_true, or_false,
        if_false, bind_ok, exists_unit, require_ok, pure_ok]
      exact ⟨delivered receipted, by simp [withEvent, receipted]⟩

/-! ## Steps -/

/-- A request under a key that names nothing yet, on an aggregate its project may write. -/
structure Fresh (db : Db) (call : Call) (request : Request) : Prop where
  valid : request.refusal = none
  unused : eventsForKey db.events call.envelope.projectId request.route.aggregateType
    request.route.aggregateId call.envelope.idempotencyKey = []
  owned : ∀ first ∈ (aggregateEvents (request.route.aggregateType, request.route.aggregateId)
    db.events).head?, first.projectId = call.envelope.projectId
  commandId : request.command.receiptedPty = true →
    ∀ delivery ∈ db.deliveries, delivery.commandId ≠ call.envelope.commandId
  cutover : checkSecondCutover db.events (epochOf db.events) request.command = .ok ()

inductive Step (pg : Postgres) (codec : Codec) (db : Db) (call : Call) (request : Request) :
    Committed → Prop where
  /-- The key already named this request. -/
  | replayed {events : List Event} (valid : request.refusal = none)
      (prior : priorForKey db.events call.envelope request = .replay events)
      (bytes : request.command.isPtyInput = true →
        storedBinding db.deliveries call.envelope.projectId call.envelope.idempotencyKey =
          request.inputBinding) :
      Step pg codec db call request ⟨db, .ok events⟩
  /-- A PTY input that fails its own validation. -/
  | refusedInput {refusal : Refusal} {receipts : Rows Receipt}
      (invalid : request.refusal = some refusal)
      (attested : writeReceipt (pg.asOf call.moment.now)
        (receiptFor call.envelope request.route request.command
        PTY_INPUT_ACTION_CLASS (refusedBasis "request validation" refusal)) db.receipts =
          .ok receipts) :
      Step pg codec db call request ⟨{ db with receipts }, .error refusal⟩
  /-- A page. -/
  | paged {actionClass basis : String} {receipts : Rows Receipt} {attention : Rows AttentionItem}
      (fresh : Fresh db call request)
      (decided : authorityDecision pg db call request = .ok (.page actionClass basis))
      (attested : writeReceipt (pg.asOf call.moment.now)
        (receiptFor call.envelope request.route request.command
        actionClass basis) db.receipts = .ok receipts)
      (raised : pageAttention (pg.asOf call.moment.now) (pageItemId actionClass request.route)
        s!"{call.envelope.commandType} requires an unexpired {actionClass} grant"
        (pageSubject request.route) call.envelope.actor call.envelope.issuedAt
        db.tables.attention = .ok attention) :
      Step pg codec db call request
        ⟨{ db with receipts, tables := { db.tables with attention } },
          .error (pageRefusal call.envelope request.route actionClass)⟩
  /-- A PTY control the decision refused. -/
  | refusedControl {actionClass basis : String} {refusal : Refusal} {receipts : Rows Receipt}
      (fresh : Fresh db call request) (control : request.command.receiptedPty = true)
      (decided : authorityDecision pg db call request = .ok (.allow actionClass basis))
      (refused : decide db call.envelope request.command request.route = .error refusal)
      (attested : writeReceipt (pg.asOf call.moment.now)
        (receiptFor call.envelope request.route request.command
        actionClass (refusedBasis basis refusal)) db.receipts = .ok receipts) :
      Step pg codec db call request ⟨{ db with receipts }, .error refusal⟩
  /-- An event landed. -/
  | landed {decision : Decision} {receipts : Rows Receipt} {want : UInt32} {row : Event}
      {tables : Projections} (fresh : Fresh db call request)
      (decided : authorityDecision pg db call request = .ok decision)
      (allowed : ∀ actionClass basis, decision ≠ .page actionClass basis)
      (classified : request.command.receiptedPty = true → decision ≠ .unclassified)
      (attested : Attests pg call request decision.result db.receipts receipts)
      (distinct : checkAttentionDedup db.tables.attention request.command = .ok ())
      (accepted : decide db call.envelope request.command request.route = .ok want)
      (lands : Lands pg codec { db with receipts } call request want row tables) :
      Step pg codec db call request
        ⟨landing pg codec { db with receipts } call request row tables, .ok [row]⟩

/-! ## The steps are exact -/

variable {committed : Committed}

theorem receiptedPtyRefusal_ok {refusal : Refusal} :
    receiptedPtyRefusal pg db call request actionClass basis refusal = .ok committed ↔
      ∃ receipts, writeReceipt (pg.asOf call.moment.now)
        (receiptFor call.envelope request.route request.command
          actionClass (refusedBasis basis refusal)) db.receipts = .ok receipts ∧
        committed = ⟨{ db with receipts }, .error refusal⟩ := by
  simp only [receiptedPtyRefusal, bind_ok, pure_ok, attest_ok]
  constructor
  · rintro ⟨_, ⟨receipts, attested, rfl⟩, rfl⟩
    exact ⟨receipts, attested, rfl⟩
  · rintro ⟨receipts, attested, rfl⟩
    exact ⟨_, ⟨receipts, attested, rfl⟩, rfl⟩

theorem paged_ok : paged pg db call request actionClass basis = .ok committed ↔
      ∃ receipts attention,
        writeReceipt (pg.asOf call.moment.now)
          (receiptFor call.envelope request.route request.command actionClass basis)
          db.receipts = .ok receipts ∧
        pageAttention (pg.asOf call.moment.now) (pageItemId actionClass request.route)
          s!"{call.envelope.commandType} requires an unexpired {actionClass} grant"
          (pageSubject request.route) call.envelope.actor call.envelope.issuedAt
          db.tables.attention = .ok attention ∧
        committed = ⟨{ db with receipts, tables := { db.tables with attention } },
          .error (pageRefusal call.envelope request.route actionClass)⟩ := by
  simp only [paged, bind_ok, pure_ok, attest_ok]
  constructor
  · rintro ⟨_, ⟨receipts, attested, rfl⟩, attention, raised, rfl⟩
    exact ⟨receipts, attention, attested, raised, rfl⟩
  · rintro ⟨receipts, attention, attested, raised, rfl⟩
    exact ⟨_, ⟨receipts, attested, rfl⟩, attention, raised, rfl⟩

theorem checkAttentionDedup_of_receiptedPty {items : Rows AttentionItem}
    (control : command.receiptedPty = true) : checkAttentionDedup items command = .ok () := by
  cases command with
  | raiseAttention => cases control
  | _ => rfl

theorem proceed_ok {authority : Option (String × String)}
    (unused : eventsForKey db.events call.envelope.projectId request.route.aggregateType
      request.route.aggregateId call.envelope.idempotencyKey = []) :
    proceed pg codec db call request authority = .ok committed ↔
      (∃ actionClass basis refusal receipts, request.command.receiptedPty = true ∧
        authority = some (actionClass, basis) ∧
        decide db call.envelope request.command request.route = .error refusal ∧
        writeReceipt (pg.asOf call.moment.now)
          (receiptFor call.envelope request.route request.command actionClass
          (refusedBasis basis refusal)) db.receipts = .ok receipts ∧
        committed = ⟨{ db with receipts }, .error refusal⟩) ∨
      ∃ receipts want row tables, (request.command.receiptedPty = true → authority ≠ none) ∧
        Attests pg call request authority db.receipts receipts ∧
        checkAttentionDedup db.tables.attention request.command = .ok () ∧
        decide db call.envelope request.command request.route = .ok want ∧
        Lands pg codec { db with receipts } call request want row tables ∧
        committed = ⟨landing pg codec { db with receipts } call request row tables, .ok [row]⟩ := by
  have landIff (receipts : Rows Receipt) (want : UInt32) :
      land pg codec { db with receipts } call request want = .ok committed ↔
        ∃ row tables, Lands pg codec { db with receipts } call request want row tables ∧
          committed = ⟨landing pg codec { db with receipts } call request row tables, .ok [row]⟩ :=
    land_ok unused
  have decideSame (receipts : Rows Receipt) :
      decide { db with receipts } call.envelope request.command request.route =
        decide db call.envelope request.command request.route := rfl
  cases control : request.command.receiptedPty with
  | false =>
    simp only [proceed, control, Bool.false_eq_true, if_false, bind_ok, exists_unit,
      attestResult_ok]
    constructor
    · rintro ⟨_, ⟨receipts, attested, rfl⟩, distinct, committing⟩
      simp only [decideSame] at committing
      cases decided : decide db call.envelope request.command request.route with
      | error refusal => simp [decided] at committing
      | ok want =>
        simp only [decided] at committing
        obtain ⟨row, tables, lands, rfl⟩ := (landIff receipts want).mp committing
        exact .inr ⟨receipts, want, row, tables, nofun, attested, distinct, rfl, lands, rfl⟩
    · rintro (⟨_, _, _, _, no, -⟩ |
        ⟨receipts, want, row, tables, -, attested, distinct, decided, lands, rfl⟩)
      · cases no
      · refine ⟨_, ⟨receipts, attested, rfl⟩, distinct, ?_⟩
        simp only [decideSame, decided]
        exact (landIff receipts want).mpr ⟨row, tables, lands, rfl⟩
  | true =>
    have distinct : checkAttentionDedup db.tables.attention request.command = .ok () :=
      checkAttentionDedup_of_receiptedPty control
    simp only [proceed, control, if_true, attestResult, bind_ok, exists_unit,
      Except.ok.injEq, exists_eq_left', distinct, true_and]
    cases decided : decide db call.envelope request.command request.route with
    | error refusal =>
      cases authority with
      | none => simp
      | some result =>
        obtain ⟨actionClass, basis⟩ := result
        simp only [receiptedPtyRefusal_ok]
        constructor
        · rintro ⟨receipts, attested, rfl⟩
          exact .inl ⟨_, _, _, receipts, rfl, rfl, attested, rfl⟩
        · rintro (⟨_, _, _, receipts, ⟨⟩, ⟨⟩, attested, rfl⟩ | ⟨_, _, _, _, -, -, ⟨⟩, -⟩)
          exact ⟨receipts, attested, rfl⟩
    | ok want =>
      cases authority with
      | none => simp
      | some result =>
        obtain ⟨actionClass, basis⟩ := result
        simp only [bind_ok, attest_ok]
        constructor
        · rintro ⟨_, ⟨receipts, attested, rfl⟩, committing⟩
          obtain ⟨row, tables, lands, rfl⟩ := (landIff receipts want).mp committing
          exact .inr ⟨receipts, want, row, tables, nofun, attested, rfl, lands, rfl⟩
        · rintro (⟨_, _, _, _, -, ⟨⟩, -⟩ | ⟨receipts, _, row, tables, -, attested, ⟨⟩, lands, rfl⟩)
          exact ⟨_, ⟨receipts, attested, rfl⟩,
            (landIff receipts want).mpr ⟨row, tables, lands, rfl⟩⟩

theorem priorForKey_eq_unused_iff : priorForKey events call.envelope request = .unused ↔
      eventsForKey events call.envelope.projectId request.route.aggregateType
        request.route.aggregateId call.envelope.idempotencyKey = [] := by
  cases stored : eventsForKey events call.envelope.projectId request.route.aggregateType
      request.route.aggregateId call.envelope.idempotencyKey with
  | nil => simp [priorForKey, stored]
  | cons first rest =>
    simp only [priorForKey, stored]
    split
    · simp
    · simp

theorem priorForKey_eq_replay_iff : priorForKey log envelope request = .replay events ↔
      ∃ row, eventsForKey log envelope.projectId request.route.aggregateType
          request.route.aggregateId envelope.idempotencyKey = [row] ∧ events = [row] ∧
        row.projectId = envelope.projectId ∧ row.aggregateType = request.route.aggregateType ∧
        row.aggregateId = request.route.aggregateId ∧ row.actor = envelope.actor ∧
        row.payload = .command request.command := by
  cases stored : eventsForKey log envelope.projectId request.route.aggregateType
      request.route.aggregateId envelope.idempotencyKey with
  | nil => simp [priorForKey, stored]
  | cons first rest =>
    simp only [priorForKey, stored]
    split
    next matched =>
      obtain ⟨rfl, matched⟩ := matched
      simp only [Prior.replay.injEq, List.cons.injEq, and_true]
      constructor
      · rintro rfl
        exact ⟨first, rfl, rfl, matched⟩
      · rintro ⟨row, rfl, rfl, -⟩
        rfl
    next ne =>
      simp only [reduceCtorEq, List.cons.injEq, false_iff, not_exists, not_and]
      rintro row ⟨rfl, rfl⟩ - projectId aggregateType aggregateId actor payload
      exact ne ⟨rfl, projectId, aggregateType, aggregateId, actor, payload⟩

theorem fresh_ok (valid : request.refusal = none)
    (unused : eventsForKey db.events call.envelope.projectId request.route.aggregateType
      request.route.aggregateId call.envelope.idempotencyKey = []) :
    fresh pg codec db call request = .ok committed ↔
      Fresh db call request ∧ Step pg codec db call request committed := by
  simp only [fresh, bind_ok, exists_unit, checkAggregateOwner, forM_require_ok,
    checkCommandId, require_ok]
  constructor
  · rintro ⟨owned, commandId, cutover, decision, decided, committing⟩
    have isFresh : Fresh db call request := ⟨valid, unused, owned, commandId, cutover⟩
    refine ⟨isFresh, ?_⟩
    -- an absent result and an allowing one go on the same way
    have proceeding (allowed : ∀ actionClass basis, decision ≠ .page actionClass basis)
        (goesOn : proceed pg codec db call request decision.result = .ok committed) :
        Step pg codec db call request committed := by
      rcases (proceed_ok unused).mp goesOn with
        ⟨actionClass, basis, refusal, receipts, control, result, refused, attested, rfl⟩ |
        ⟨receipts, want, row, tables, classified, attested, distinct, accepted, lands, rfl⟩
      · cases decision with
        | unclassified => cases result
        | allow _ _ =>
          cases result
          exact .refusedControl isFresh control decided refused attested
        | page _ _ => exact absurd rfl (allowed _ _)
      · refine .landed isFresh decided allowed ?_ attested distinct accepted lands
        rintro control rfl
        exact classified control rfl
    cases decision with
    | unclassified | allow => exact proceeding nofun committing
    | page actionClass basis =>
      obtain ⟨receipts, attention, attested, raised, rfl⟩ := paged_ok.mp committing
      exact .paged isFresh decided attested raised
  · rintro ⟨⟨-, -, owned, commandId, cutover⟩, step⟩
    refine ⟨owned, commandId, cutover, ?_⟩
    cases step with
    | @replayed events _ prior _ =>
      rw [priorForKey_eq_unused_iff.mpr unused] at prior
      cases prior
    | refusedInput invalid _ => simp [valid] at invalid
    | paged _ decided attested raised =>
      exact ⟨_, decided, paged_ok.mpr ⟨_, _, attested, raised, rfl⟩⟩
    | refusedControl _ control decided refused attested =>
      exact ⟨_, decided, (proceed_ok unused).mpr
        (.inl ⟨_, _, _, _, control, rfl, refused, attested, rfl⟩)⟩
    | @landed decision _ _ _ _ _ decided allowed classified attested distinct accepted lands =>
      refine ⟨decision, decided, ?_⟩
      cases decision with
      | unclassified =>
        exact (proceed_ok unused).mpr (.inr ⟨_, _, _, _,
          fun control => absurd rfl (classified control), attested, distinct, accepted, lands,
          rfl⟩)
      | allow actionClass basis =>
        exact (proceed_ok unused).mpr (.inr ⟨_, _, _, _, nofun, attested, distinct,
          accepted, lands, rfl⟩)
      | page actionClass basis => exact absurd rfl (allowed _ _)

/-- What a call must meet before the transaction looks at its request. -/
structure Admits (db : Db) (call : Call) (request : Request) : Prop where
  answers : storageAnswers call.moment = .ok ()
  locked : db.writer.epoch = call.store.bootEpoch
  admitted : admitted (epochOf db.events) request.command = true

/-- **A transaction commits exactly the steps.** -/
theorem transact_ok : transact pg codec db call request = .ok committed ↔
      Admits db call request ∧ Step pg codec db call request committed := by
  simp only [transact, bind_ok, exists_unit, mapError_ok, lockWriter, require_ok]
  constructor
  · rintro ⟨answers, locked, admits, committing⟩
    refine ⟨⟨answers, locked, admits⟩, ?_⟩
    cases valid : request.refusal with
    | some refusal =>
      simp only [valid] at committing
      obtain ⟨receipts, attested, rfl⟩ := receiptedPtyRefusal_ok.mp committing
      exact .refusedInput valid attested
    | none =>
      simp only [valid, keyed] at committing
      split at committing
      next events prior =>
        simp only [replayed, bind_ok, exists_unit, require_ok, pure_ok] at committing
        obtain ⟨bytes, rfl⟩ := committing
        exact .replayed valid prior bytes
      next => cases committing
      next unused =>
        exact ((fresh_ok valid (priorForKey_eq_unused_iff.mp unused)).mp committing).2
  · rintro ⟨⟨answers, locked, admits⟩, step⟩
    refine ⟨answers, locked, admits, ?_⟩
    have goesOn (isFresh : Fresh db call request) :
        keyed pg codec db call request = .ok committed := by
      simp only [keyed, priorForKey_eq_unused_iff.mpr isFresh.unused]
      exact (fresh_ok isFresh.valid isFresh.unused).mpr ⟨isFresh, step⟩
    cases step with
    | replayed valid prior bytes =>
      simp only [valid, keyed, prior, replayed, bind_ok, exists_unit, require_ok]
      exact ⟨bytes, rfl⟩
    | refusedInput invalid attested =>
      simp only [invalid]
      exact receiptedPtyRefusal_ok.mpr ⟨_, attested, rfl⟩
    | paged isFresh _ _ _ =>
      simp only [isFresh.valid]
      exact goesOn isFresh
    | refusedControl isFresh _ _ _ _ =>
      simp only [isFresh.valid]
      exact goesOn isFresh
    | landed isFresh _ _ _ _ _ _ _ =>
      simp only [isFresh.valid]
      exact goesOn isFresh

/-! ## Histories -/

def after (pg : Postgres) (codec : Codec) (db : Db) (calls : List Call) : Db :=
  calls.foldl (fun db call => (submit pg codec db call).2) db

theorem after_append (pg : Postgres) (codec : Codec) (db : Db) (calls more : List Call) :
    after pg codec db (calls ++ more) = after pg codec (after pg codec db calls) more :=
  foldl_append

def Committed.reply (call : Call) (committed : Committed) : KernelResult :=
  match committed.answer with
  | .error refusal => .error refusal
  | .ok events => applied call committed.db events

theorem submit_of_ok
    (commits : preflight codec call >>= transact pg codec db call = .ok committed) :
    submit pg codec db call = (committed.reply call, committed.db) := by
  obtain ⟨committed, answer⟩ := committed
  cases answer with
  | error | ok => simp only [submit, commits, Committed.reply]

theorem submit_of_step (passes : Passes codec call request) (admits : Admits db call request)
    (step : Step pg codec db call request committed) :
    submit pg codec db call = (committed.reply call, committed.db) :=
  submit_of_ok (bind_ok.mpr ⟨request, preflight_ok.mpr passes, transact_ok.mpr ⟨admits, step⟩⟩)

theorem submit_cases (db : Db) (call : Call) :
    (∃ refusal, submit pg codec db call = (.error refusal, db)) ∨
      ∃ request committed, Passes codec call request ∧ Admits db call request ∧
        Step pg codec db call request committed ∧
        submit pg codec db call = (committed.reply call, committed.db) := by
  cases outcome : preflight codec call >>= transact pg codec db call with
  | error refusal => exact .inl ⟨refusal, by simp only [submit, outcome]⟩
  | ok committed =>
    obtain ⟨request, passes, commits⟩ := bind_ok.mp outcome
    obtain ⟨admits, step⟩ := transact_ok.mp commits
    exact .inr ⟨request, committed, preflight_ok.mp passes, admits, step, submit_of_ok outcome⟩

/-- **The history rule.**  An invariant every step keeps holds after every list of calls. -/
theorem after_induction (invariant : Db → Prop) (initially : invariant initial)
    (preserved : ∀ db call request committed, invariant db → Passes codec call request →
      Admits db call request → Step pg codec db call request committed → invariant committed.db)
    (calls : List Call) : invariant (after pg codec initial calls) := by
  refine (Run.of_foldl _ calls initial).invariant_induction invariant initially ?_
  rintro call - before _ holds rfl
  rcases submit_cases before call with
    ⟨refusal, eq⟩ | ⟨request, committed, passes, admits, step, eq⟩
  · rw [eq]
    exact holds
  · rw [eq]
    exact preserved before call request committed holds passes admits step

/-- What lands stays: the log and the deliveries only grow. -/
structure Grows (before after : Db) : Prop where
  events : before.events <+: after.events
  deliveries : before.deliveries <+: after.deliveries

theorem Grows.refl (db : Db) : Grows db db :=
  ⟨prefix_rfl, prefix_rfl⟩

theorem Grows.trans {after : Db} (first : Grows before mid)
    (later : Grows mid after) : Grows before after :=
  ⟨first.events.trans later.events, first.deliveries.trans later.deliveries⟩

theorem Step.grows (step : Step pg codec db call request committed) : Grows db committed.db := by
  cases step with
  | replayed => exact .refl db
  | refusedInput | paged | refusedControl => exact ⟨prefix_rfl, prefix_rfl⟩
  | landed =>
    constructor
    · rw [landing_events]
      exact prefix_append _ _
    · rw [landing_deliveries]
      exact prefix_append _ _

/-- **Every history only adds to the log and to the deliveries.** -/
theorem after_grows (db : Db) (calls : List Call) : Grows db (after pg codec db calls) := by
  refine after_induction (Grows db) (.refl db) ?_ calls
  intro before call request committed holds passes admits step
  exact holds.trans step.grows

end Gridwork.Kernel
