import Gridwork.Kernel.Versions
import Gridwork.Kernel.Writers

/-!
# The epochs of a log

A kernel's epoch is not stored: it is the version of the kernel's own aggregate.  A log without
events has none, genesis seals it, and activation opens it.

A `Deed` is anything that happens to the database of a kernel: a process boots, asks for genesis,
submits, or records a fact.  A deed that is cut off before its commit leaves nothing, so histories
with crashes are histories with fewer deeds.
-/

namespace Gridwork.Kernel

open Domain Lib List Prod

variable {pg : Postgres} {codec : Codec} {genesis activation row event other : Event}
  {cutoverId manifest publicRevision : String} {events : List Event} {db : Db} {call : Call}

/-! ## Deeds -/

inductive Deed where
  | boot
  | genesis (store : Store) (now : Instant) (publicRevision : String)
  | act (act : Act)

def Deed.perform (pg : Postgres) (codec : Codec) (db : Db) : Deed → Db
  | .boot => writerRow.claim db
  | .genesis store now publicRevision =>
    match ensureGenesis pg codec store now publicRevision db with
    | .ok opened => opened
    | .error _ => db
  | .act performed => Kernel.perform pg codec db performed

def deeds (pg : Postgres) (codec : Codec) (db : Db) (done : List Deed) : Db :=
  done.foldl (Deed.perform pg codec) db

/-- The cutover an act asks to activate at, if it is an activation. -/
def Act.cutover : Act → Option String
  | submit call =>
    match KernelCommand.fromEnvelope call.envelope with
    | .ok (.activateKernel cutoverId _) => some cutoverId
    | _ => none
  | record _ => none

/-! ## The shape of a log -/

/-- The event that opened the kernel at a cutover. -/
structure ActivationEvent (event : Event) (cutoverId : String) : Prop where
  payload : ∃ manifest, event.payload = .command (.activateKernel cutoverId manifest)
  aggregate : event.aggregate = (KERNEL_AGGREGATE, KERNEL_SINGLETON)
  eventType : event.eventType = ACTIVATION_EVENT_TYPE

/-- An event that is neither genesis nor an activation, and on another aggregate. -/
structure PlainEvent (event : Event) : Prop where
  family : event.aggregateType ≠ KERNEL_AGGREGATE
  notGenesis : event.eventType ≠ GENESIS_EVENT_TYPE
  notActivation : event.eventType ≠ ACTIVATION_EVENT_TYPE

/-- Nothing, or genesis alone, or genesis and one activation and then plain events. -/
inductive EpochShape : List Event → Prop where
  | absent : EpochShape []
  | sealed {genesis : Event} (opens : GenesisEvent genesis)
      (version : genesis.aggregateVersion = 1) : EpochShape [genesis]
  | active {genesis activation : Event} {later : List Event} {cutoverId : String}
      (opens : GenesisEvent genesis) (version : genesis.aggregateVersion = 1)
      (activates : ActivationEvent activation cutoverId)
      (next : activation.aggregateVersion = 2) (plain : ∀ event ∈ later, PlainEvent event) :
      EpochShape (genesis :: activation :: later)

theorem epochOf_sealed (opens : GenesisEvent genesis)
    (version : genesis.aggregateVersion = 1) : epochOf [genesis] = .sealed := by
  simp [epochOf, currentAggregateVersion, aggregateEvents, opens.aggregate, version,
    Epoch.ofVersion]

theorem epochOf_active {later : List Event} (opens : GenesisEvent genesis)
    (version : genesis.aggregateVersion = 1) (activates : ActivationEvent activation cutoverId)
    (next : activation.aggregateVersion = 2) (plain : ∀ event ∈ later, PlainEvent event) :
    epochOf (genesis :: activation :: later) = .active := by
  have elsewhere : aggregateEvents (KERNEL_AGGREGATE, KERNEL_SINGLETON) later = [] := by
    simp only [aggregateEvents, filter_eq_nil_iff, decide_eq_true_eq]
    intro event mem eq
    exact (plain event mem).family (Prod.ext_iff.mp eq).1
  have onKernel : aggregateEvents (KERNEL_AGGREGATE, KERNEL_SINGLETON)
      (genesis :: activation :: later) = [genesis, activation] := by
    simp only [aggregateEvents] at elsewhere ⊢
    simp [opens.aggregate, activates.aggregate, elsewhere]
  rw [epochOf, currentAggregateVersion, onKernel]
  simp only [map_cons, map_nil, version, next]
  decide

section

variable (shape : EpochShape events)
include shape

theorem EpochShape.active_iff :
    epochOf events = .active ↔ ∃ event ∈ events, event.eventType = ACTIVATION_EVENT_TYPE := by
  cases shape with
  | absent =>
    simp only [not_mem_nil, false_and, exists_false, iff_false]
    decide
  | sealed opens version =>
    rw [epochOf_sealed opens version]
    simp only [mem_singleton, exists_eq_left, opens.eventType, reduceCtorEq, false_iff]
    decide
  | active opens version activates next plain =>
    rw [epochOf_active opens version activates next plain]
    simp [activates.eventType]

theorem EpochShape.command_unique {command otherCommand : KernelCommand} (mem : event ∈ events)
    (onKernel : event.aggregateType = KERNEL_AGGREGATE) (payload : event.payload = .command command)
    (otherMember : other ∈ events) (otherOnKernel : other.aggregateType = KERNEL_AGGREGATE)
    (otherPayload : other.payload = .command otherCommand) : event = other := by
  cases shape with
  | absent => cases mem
  | sealed opens version => rw [mem_singleton.mp mem, mem_singleton.mp otherMember]
  | @active genesis activation later cutoverId opens version activates next plain =>
    have isActivation {row : Event} {carried : KernelCommand}
        (inLog : row ∈ genesis :: activation :: later)
        (kernel : row.aggregateType = KERNEL_AGGREGATE)
        (carries : row.payload = .command carried) :
        row = activation := by
      obtain ⟨revision, isGenesis⟩ := opens.payload
      rcases mem_cons.mp inLog with rfl | inLog
      · rw [isGenesis] at carries
        cases carries
      · rcases mem_cons.mp inLog with rfl | inLater
        · rfl
        · exact absurd kernel (plain row inLater).family
    rw [isActivation mem onKernel payload, isActivation otherMember otherOnKernel otherPayload]

/-! ## What lands in each epoch -/

theorem EpochShape.of_activation
    (admits : admitted (epochOf events) (.activateKernel cutoverId manifest) = true)
    (first : checkSecondCutover events (epochOf events) (.activateKernel cutoverId manifest) =
      .ok ()) :
    ∃ genesis, events = [genesis] ∧ GenesisEvent genesis ∧ genesis.aggregateVersion = 1 := by
  have sealed := currentAggregateVersion_of_activation admits first
  cases shape with
  | absent => cases admits
  | sealed opens version => exact ⟨_, rfl, opens, version⟩
  | active opens version activates next plain =>
    have active := epochOf_active opens version activates next plain
    rw [epochOf, sealed] at active
    cases active

theorem EpochShape.snoc_plain (active : epochOf events = .active) (isPlain : PlainEvent row) :
    EpochShape (events ++ [row]) := by
  cases shape with
  | absent => cases active
  | sealed opens version =>
    rw [epochOf_sealed opens version] at active
    cases active
  | active opens version activates next plain =>
    refine .active opens version activates next ?_
    intro event mem
    rcases mem_snoc.mp mem with earlier | last
    · exact plain event earlier
    · exact last ▸ isPlain

end

theorem plain_address {command : KernelCommand}
    (other : ∀ cutoverId manifest, command ≠ .activateKernel cutoverId manifest) :
    command.address.1 ≠ KERNEL_AGGREGATE ∧ command.address.2 ≠ GENESIS_EVENT_TYPE ∧
      command.address.2 ≠ ACTIVATION_EVENT_TYPE := by
  cases command with
  | activateKernel cutoverId manifest => exact absurd rfl (other cutoverId manifest)
  | _ =>
    simp only [KernelCommand.address]
    decide

theorem plain_eventName (name : ContextEventName) :
    name.aggregate.asStr ≠ KERNEL_AGGREGATE ∧ name.asStr ≠ GENESIS_EVENT_TYPE ∧
      name.asStr ≠ ACTIVATION_EVENT_TYPE := by
  cases name <;> decide

theorem EpochShape.of_lands {receipts : Rows Receipt} {request : Request}
    {want : UInt32} {tables : Projections} (shape : EpochShape db.events)
    (passes : Passes codec call request) (admits : Admits db call request)
    (fresh : Fresh db call request)
    (accepted : decide db call.envelope request.command request.route = .ok want)
    (lands : Lands pg codec { db with receipts } call request want row tables) :
    EpochShape (db.events ++ [row]) := by
  obtain ⟨kept, made⟩ := lands.made
  have isEvent := made.commandEvent passes
  by_cases activation : ∃ cutoverId manifest, request.command = .activateKernel cutoverId manifest
  · obtain ⟨cutoverId, manifest, isActivation⟩ := activation
    have admitted := admits.admitted
    have first := fresh.cutover
    rw [isActivation] at admitted first accepted
    obtain ⟨genesis, events, opens, version⟩ := shape.of_activation admitted first
    -- the row carries the activation itself, at the version after genesis
    have stores := made.stores
    rw [isActivation] at stores
    cases stores
    cases accepted
    obtain ⟨family, eventType⟩ := Prod.ext_iff.mp isEvent.address
    obtain ⟨occurred, -, isRow⟩ := made.isRow
    have target := (routeOf_ok.mp passes.routed).2.1
    rw [isActivation] at target
    rw [events]
    refine .active opens version ⟨⟨manifest, made.payload⟩, ?_, eventType⟩ ?_ (by simp)
    · exact Prod.ext family ((Prod.ext_iff.mp made.aggregate).2.trans (Option.some.inj target).symm)
    · rw [isRow]
      rfl
  · have plain : ∀ cutoverId manifest, request.command ≠ .activateKernel cutoverId manifest :=
      fun cutoverId manifest eq => activation ⟨cutoverId, manifest, eq⟩
    have active : epochOf db.events = .active := by
      have admitted := admits.admitted
      unfold Kernel.admitted at admitted
      split at admitted
      next epoch => exact epoch
      next isActivation => exact absurd isActivation (plain _ _)
      next => cases admitted
    have address := isEvent.address
    rw [made.stores.address_eq] at address
    have family : row.aggregateType = request.command.address.1 := congrArg fst address
    have eventType : row.eventType = request.command.address.2 := congrArg snd address
    obtain ⟨notKernel, notGenesis, notActivation⟩ := plain_address plain
    exact shape.snoc_plain active ⟨family ▸ notKernel, eventType ▸ notGenesis,
      eventType ▸ notActivation⟩

theorem EpochShape.of_genesis {opened : Db} {store : Store} {now : Instant}
    (shape : EpochShape db.events)
    (opens : ensureGenesis pg codec store now publicRevision db = .ok opened) :
    EpochShape opened.events := by
  simp only [ensureGenesis, bind_ok, exists_unit] at opens
  obtain ⟨-, -, opens⟩ := opens
  split at opens
  next =>
    cases opens
    exact shape
  next isAbsent =>
    have empty : db.events = [] := by
      cases events : db.events with
      | nil => rfl
      | cons first rest =>
        rw [events] at shape isAbsent
        cases shape with
        | sealed opens version => simp [epochOf_sealed opens version] at isAbsent
        | active opens version activates next plain =>
          simp [epochOf_active opens version activates next plain] at isAbsent
    simp only [bind_ok, mapError_ok, pure_ok] at opens
    obtain ⟨appended, appends, rfl⟩ := opens
    have unused : storedUnderKeys db.events (genesisEvent publicRevision (pg.render now))
        [genesisEvent publicRevision (pg.render now)] = [] := by
      rw [empty]
      rfl
    obtain ⟨row, -, -, inserted, -, rfl⟩ := (appendLocked_singleton unused).mp appends
    obtain ⟨occurred, payload, -, stored, rfl, -⟩ := insertEvent_ok.mp inserted
    cases stored
    simp only [empty, nil_append]
    exact .sealed ⟨⟨publicRevision, rfl⟩, rfl, rfl, rfl, rfl, rfl⟩ rfl

/-- **Every deed keeps the shape of the log.** -/
theorem EpochShape.of_deed (shape : EpochShape db.events) (deed : Deed) :
    EpochShape (deed.perform pg codec db).events := by
  cases deed with
  | boot => exact shape
  | genesis store now publicRevision =>
    simp only [Deed.perform]
    split
    next opened opens => exact shape.of_genesis opens
    next => exact shape
  | act act =>
    cases act with
    | submit call =>
      simp only [Deed.perform, Kernel.perform]
      rcases submit_cases db call with
        ⟨refusal, eq⟩ | ⟨request, committed, passes, admits, step, eq⟩
      · rw [eq]
        exact shape
      · rw [eq]
        cases step with
        | replayed | refusedInput | paged | refusedControl => exact shape
        | landed fresh _ _ _ _ _ accepted lands =>
          rw [landing_events]
          exact shape.of_lands passes admits fresh accepted lands
    | record recording =>
      simp only [Deed.perform, Kernel.perform]
      split
      next appended records =>
        obtain ⟨admits, route, routed, step⟩ := recordContextFact_ok.mp records
        cases step with
        | replayed => exact shape
        | landed unused lands =>
          rw [recordLanding_events]
          simp only [factRouteOf, bind_ok, pure_ok] at routed
          obtain ⟨aggregateId, -, rfl⟩ := routed
          obtain ⟨occurred, payload, -, -, rfl, -⟩ :=
            insertEvent_ok.mp lands.inserted
          obtain ⟨family, notGenesis, notActivation⟩ :=
            plain_eventName recording.fact.eventName
          exact shape.snoc_plain admits.active ⟨family, notGenesis, notActivation⟩
      next => exact shape

theorem deeds_shape (epoch : Int) (time : Instant) (done : List Deed) :
    EpochShape (deeds pg codec (Db.created epoch time) done).events := by
  have run := Run.of_foldl (Deed.perform pg codec) done (Db.created epoch time)
  refine run.invariant_induction (fun db => EpochShape db.events) .absent ?_
  rintro deed - before _ shape rfl
  exact shape.of_deed deed

/-! ## Acts outside their epoch -/

theorem perform_eq_of_sealed {act : Act} (inactive : epochOf db.events ≠ .active)
    (other : act.cutover = none) : perform pg codec db act = db := by
  cases act with
  | submit call =>
    simp only [perform]
    rcases submit_cases db call with
      ⟨refusal, eq⟩ | ⟨request, committed, passes, admits, step, eq⟩
    · rw [eq]
    · have admitted := admits.admitted
      unfold Kernel.admitted at admitted
      split at admitted
      next epoch => exact absurd epoch inactive
      next isActivation =>
        have decoded := passes.decoded
        rw [isActivation] at decoded
        simp only [Act.cutover, decoded] at other
        cases other
      next => cases admitted
  | record recording =>
    simp only [perform]
    split
    next appended records =>
      obtain ⟨admits, -⟩ := recordContextFact_ok.mp records
      exact absurd admits.active inactive
    next => rfl

theorem submit_refused_of_activated {other : String}
    (shape : EpochShape db.events) (mem : activation ∈ db.events)
    (activates : ActivationEvent activation cutoverId)
    (asks : (Act.submit call).cutover = some other) (ne : other ≠ cutoverId) :
    ∃ refusal, submit pg codec db call = (.error refusal, db) := by
  rcases submit_cases db call with
    refused | ⟨request, committed, passes, admits, step, -⟩
  · exact refused
  · exfalso
    have active : epochOf db.events = .active :=
      shape.active_iff.mpr ⟨activation, mem, activates.eventType⟩
    obtain ⟨manifest, isActivation⟩ :
        ∃ manifest, request.command = .activateKernel other manifest := by
      simp only [Act.cutover, passes.decoded] at asks
      split at asks
      next cutoverId manifest eq =>
        cases asks
        exact ⟨manifest, Except.ok.inj eq⟩
      next => cases asks
    -- a new request is refused for the second cutover
    have notFresh (fresh : Fresh db call request) : False := by
      have first := fresh.cutover
      rw [isActivation, active] at first
      simp only [checkSecondCutover, if_true] at first
      split at first
      next => cases first
      next => cases first
    cases step with
    | replayed _ prior _ =>
      -- a replay would have to stand on the kernel's own aggregate
      obtain ⟨row, listed, -, -, family, -, -, payload⟩ := priorForKey_eq_replay_iff.mp prior
      have inLog : row ∈ db.events :=
        mem_of_mem_filter (listed ▸ mem_singleton_self row)
      have onKernel : row.aggregateType = KERNEL_AGGREGATE := by
        have address := (routeOf_ok.mp passes.routed).2.2.2
        rw [isActivation] at address
        exact family.trans (congrArg fst address)
      rw [isActivation] at payload
      obtain ⟨stored, isStored⟩ := activates.payload
      have eq := shape.command_unique mem (congrArg fst activates.aggregate) isStored
        inLog onKernel payload
      rw [← eq, isStored] at payload
      cases payload
      exact ne rfl
    | refusedInput invalid _ =>
      have carrier := passes.carrier
      rw [invalid, isActivation] at carrier
      simp only [checkCarrier, KernelCommand.isPtyInput, Bool.false_eq_true, if_false,
        map_ok] at carrier
      obtain ⟨-, -, no⟩ := carrier
      cases no
    | paged fresh _ _ _ | refusedControl fresh _ _ _ _ => exact notFresh fresh
    | landed fresh _ _ _ _ _ _ _ => exact notFresh fresh

/-- **The log goes through its epochs once.**  In every history of boots, genesis calls,
submissions and recorded facts the log is nothing, or genesis, or genesis and one
activation and then events that are neither.  Before the activation every act but an
activation leaves the database as it is; after it an activation for another cutover is
refused and leaves the database as it is. -/
theorem deeds_epochs (epoch : Int) (time : Instant) (done : List Deed) :
    let db := deeds pg codec (Db.created epoch time) done
    EpochShape db.events ∧
      (∀ act : Act, (∀ event ∈ db.events, event.eventType ≠ ACTIVATION_EVENT_TYPE) →
        act.cutover = none → perform pg codec db act = db) ∧
      ∀ activation cutoverId call other, activation ∈ db.events →
        ActivationEvent activation cutoverId → (Act.submit call).cutover = some other →
        other ≠ cutoverId → ∃ refusal, submit pg codec db call = (.error refusal, db) := by
  intro db
  have shape : EpochShape db.events := deeds_shape epoch time done
  refine ⟨shape, ?_, ?_⟩
  · intro act before other
    refine perform_eq_of_sealed ?_ other
    intro active
    obtain ⟨event, mem, isActivation⟩ := shape.active_iff.mp active
    exact before event mem isActivation
  · intro activation cutoverId call other mem activates asks ne
    exact submit_refused_of_activated shape mem activates asks ne

open Sample in
/-- A kernel activated at cutover `c` refuses to activate at `d`, and before the activation
it takes no declaration. -/
theorem deeds_epochs_second :
    let opening : List Deed :=
      [.boot, .genesis store 1 "0000000000000000000000000000000000000000"]
    let activated := deeds postgres Sample.codec (Db.created 0 0)
      (opening ++ [.act (.submit activate)])
    let second : Call := { activate with
      envelope := Sample.envelope (.activateKernel "d" zeros) "kernel_activated:d"
        operator SYSTEM_PROJECT }
    activated.events.length = 2 ∧ perform postgres Sample.codec
          (deeds postgres Sample.codec (Db.created 0 0) opening)
          (.submit declared) =
        deeds postgres Sample.codec (Db.created 0 0) opening ∧
      ∃ refusal, submit postgres Sample.codec activated second =
        (.error refusal, activated) := by
  intro opening activated second
  obtain ⟨activation, mem, activates⟩ :
      ∃ activation ∈ activated.events, ActivationEvent activation "c" :=
    ⟨activated.events.get ⟨1, by decide⟩, get_mem _ _, ⟨zeros, rfl⟩, rfl, rfl⟩
  refine ⟨rfl, ?_, ?_⟩
  · exact (deeds_epochs 0 0 opening).2.1 (.submit declared) (by decide) rfl
  · exact (deeds_epochs 0 0 (opening ++ [.act (.submit activate)])).2.2 activation "c"
      second "d" mem activates rfl (by decide)

end Gridwork.Kernel
