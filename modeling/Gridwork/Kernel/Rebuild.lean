import Gridwork.Kernel.Attention
import Gridwork.Kernel.History
import Gridwork.Kernel.Recover

/-!
# Rebuilding the projections from the log

A replay writes the derived tables and the attention items side by side, and neither reads
the other.  A timestamp such as `tomorrow` is read again at the clock of the replay; where the log
holds none (`SteadyLog`), the derived tables come back: `after_derivedRebuilt` says that the log
replayed into empty tables gives the live ones.  The attention items need not, because a
page raises an item and leaves no event.  `replayLog_rebuilds_iff` says exactly which logs
can be replayed: those in which every event that changes an item comes after the event
that raised it.
-/

namespace Gridwork.Kernel

open Domain Lib List EventBody Rows

variable {pg : Postgres} {codec : Codec} {tables result : Projections} {initial db : Db}
  {events : List Event} {event : Event} {command : KernelCommand}
  {live changed : Rows AttentionItem} {id : String}

/-! ## The two halves of a replay -/

def replayDerived (pg : Postgres) (tables : Derived) (event : Event) : Except Refusal Derived :=
  match event.payload with
  | .command command => applyDerived pg event command tables
  | _ => .ok tables

def replayAttention (pg : Postgres) (items : Rows AttentionItem) (event : Event) :
    Except Refusal (Rows AttentionItem) :=
  match event.payload with
  | .command command => applyAttention pg event command items
  | _ => .ok items

def Known (event : Event) : Prop :=
  GenesisEvent event ∨ ∃ command, CommandEvent event command

theorem address_ne_genesis (command : KernelCommand) :
    (command.address == (KERNEL_AGGREGATE, GENESIS_EVENT_TYPE)) = false := by
  cases command <;> rfl

theorem applyEvent_ok (isEvent : CommandEvent event command) :
    applyEvent pg event tables = .ok result ↔
      ∃ derived attention, replayDerived pg tables.derived event = .ok derived ∧
        replayAttention pg tables.attention event = .ok attention ∧
        result = { tables with derived, attention } := by
  simp only [isEvent.applyEvent_ok, replayDerived, replayAttention, isEvent.payload]

theorem isGenesis_of_genesisEvent (isEvent : GenesisEvent event) : isGenesis event = true := by
  have family : event.aggregateType = KERNEL_AGGREGATE := (Prod.ext_iff.mp isEvent.aggregate).1
  simp [isGenesis, family, isEvent.eventType]

theorem isGenesis_of_commandEvent
    (isEvent : CommandEvent event command) : isGenesis event = false := by
  have other := address_ne_genesis command
  rw [← isEvent.address, beq_eq_false_iff_ne] at other
  simpa [isGenesis] using other

theorem replayEvent_ok (known : Known event) : replayEvent pg tables event = .ok result ↔
      ∃ derived attention, replayDerived pg tables.derived event = .ok derived ∧
        replayAttention pg tables.attention event = .ok attention ∧
        result = { tables with derived, attention } := by
  rcases known with isEvent | ⟨command, isEvent⟩
  · obtain ⟨revision, payload⟩ := isEvent.payload
    simp only [replayEvent, isGenesis_of_genesisEvent isEvent, if_true, replayDerived,
      replayAttention, payload, Except.ok.injEq]
    constructor
    · rintro rfl
      exact ⟨_, _, rfl, rfl, rfl⟩
    · rintro ⟨_, _, rfl, rfl, rfl⟩
      rfl
  · simp only [replayEvent, isGenesis_of_commandEvent isEvent, Bool.false_eq_true, if_false]
    exact applyEvent_ok isEvent

/-- **A replay is the replay of its halves.** -/
theorem replayLog_ok (known : ∀ event ∈ events, Known event) :
    replayLog pg events tables = .ok result ↔
      ∃ derived attention, events.foldlM (replayDerived pg) tables.derived = .ok derived ∧
        events.foldlM (replayAttention pg) tables.attention = .ok attention ∧
        result = { tables with derived, attention } := by
  unfold replayLog
  induction events generalizing tables with
  | nil => simp [pure_ok]
  | cons event rest ih =>
    have here := known event mem_cons_self
    have later := fun other mem => known other (mem_cons_of_mem event mem)
    simp only [foldlM_cons, bind_ok, replayEvent_ok here, ih later]
    constructor
    · rintro ⟨_, ⟨derived, attention, derives, attends, rfl⟩, derivedEnd, attentionEnd,
        derivesOn, attendsOn, rfl⟩
      exact ⟨derivedEnd, attentionEnd, ⟨derived, derives, derivesOn⟩,
        ⟨attention, attends, attendsOn⟩, rfl⟩
    · rintro ⟨derivedEnd, attentionEnd, ⟨derived, derives, derivesOn⟩,
        ⟨attention, attends, attendsOn⟩, rfl⟩
      exact ⟨_, ⟨derived, attention, derives, attends, rfl⟩, derivedEnd, attentionEnd,
        derivesOn, attendsOn, rfl⟩

/-! ## Clocks -/

section Clock

variable (now : Instant) (stamped : pg.Steady event.appendedAt)
  (steady : ∀ text ∈ command.timestamps, pg.Steady text)

include stamped steady

/-- **An event of steady timestamps is applied in the same way at any clock.** -/
theorem applyDerived_asOf {derived : Derived} :
    applyDerived (pg.asOf now) event command derived = applyDerived pg event command derived := by
  have dated : ∀ context, timestamptz (pg.asOf now) context event.appendedAt =
      timestamptz pg context event.appendedAt := fun context => timestamptz_asOf context stamped now
  have read : ∀ context, ∀ text ∈ command.timestamps,
      timestamptz (pg.asOf now) context text = timestamptz pg context text :=
    fun context text mem => timestamptz_asOf context (steady text mem) now
  have attempt : applyAttempt (pg.asOf now) event command = applyAttempt pg event command := by
    funext tasks leases rows
    cases command with
    | recordAttemptRuntime => simp only [applyAttempt, revise, dated, read _ _ mem_cons_self]
    | _ => simp only [applyAttempt, revise, dated]
  have opt : ∀ context time, (∀ text ∈ time.toList, text ∈ command.timestamps) →
      timestamptzOpt (pg.asOf now) context time = timestamptzOpt pg context time :=
    fun context time listed => timestamptzOpt_asOf context
      (fun text mem => steady text (listed text (Option.mem_toList.mpr mem))) now
  have lease : applyLease (pg.asOf now) event command = applyLease pg event command := by
    funext rows
    cases command with
    | acquireLease | renewLease =>
      simp only [applyLease, revise, dated, opt _ _ fun _ => id]
    | _ => simp only [applyLease, revise, dated]
  have message : applyMessage (pg.asOf now) event command = applyMessage pg event command := by
    funext rows
    cases command with
    | sendMessage => simp only [applyMessage, dated, opt _ _ fun _ => id]
    | _ => simp only [applyMessage, revise, dated]
  have grant : applyAuthorityGrant (pg.asOf now) event command =
      applyAuthorityGrant pg event command := by
    funext rows
    cases command with
    | grantAuthority => simp only [applyAuthorityGrant, dated, opt _ _ fun _ => id]
    | _ => simp only [applyAuthorityGrant, dated]
  simp only [applyDerived, attempt, lease, message, grant, applyCommandRow, applyCostEntry,
    applyDispatchNode, applyEngineSession, applyEvidence, applyGate, applyIngestedRecord,
    applyOrchestratorCheckpoint, applyPtySession, applyPtySessionTemplate, applyTask,
    applyWorkflowRun, applyWorkspaceNode, applyWorktree, revise, dated]

theorem applyAttention_asOf :
    applyAttention (pg.asOf now) event command live = applyAttention pg event command live := by
  cases command with
  | muteAttention =>
    simp only [applyAttention, timestamptz_asOf _ (steady _ mem_cons_self)]
  | _ => simp only [applyAttention, timestamptz_asOf _ stamped]

end Clock

/-! ## The derived tables come back -/

/-- The log, replayed into empty tables, gives the live derived tables. -/
def DerivedRebuilt (pg : Postgres) (db : Db) : Prop :=
  db.events.foldlM (replayDerived pg) .empty = .ok db.tables.derived

theorem Lands.halves {call : Call} {request : Request} {expected : UInt32} {row : Event}
    (lands : Lands pg codec db call request expected row tables)
    (passes : Passes codec call request)
    (steady : ∀ text ∈ row.payload.timestamps, pg.Steady text) :
    replayDerived pg db.tables.derived row = .ok tables.derived ∧
      replayAttention pg db.tables.attention row = .ok tables.attention ∧
      tables.context = db.tables.context := by
  obtain ⟨kept, made⟩ := lands.made
  obtain ⟨occurred, -, isRow⟩ := made.isRow
  have stamped : pg.Steady row.appendedAt := by
    rw [isRow]
    exact pg.steady_render call.moment.now
  rw [made.payload] at steady
  obtain ⟨derived, attention, derives, attends, rfl⟩ :=
    (applyEvent_ok (made.commandEvent passes)).mp lands.projected
  simp only [replayDerived, replayAttention, made.payload] at derives attends ⊢
  rw [applyDerived_asOf _ stamped steady] at derives
  rw [applyAttention_asOf _ stamped steady] at attends
  exact ⟨derives, attends, trivial⟩

/-- **In every history the log rebuilds the derived tables.** -/
theorem after_derivedRebuilt (init : Initialised pg codec initial) (calls : List Call) :
    SteadyLog pg (after pg codec initial calls).events →
      DerivedRebuilt pg (after pg codec initial calls) := by
  obtain ⟨genesis, opened⟩ := init.opened
  refine after_induction (fun db => SteadyLog pg db.events → DerivedRebuilt pg db) ?_ ?_ calls
  · intro _
    obtain ⟨revision, payload⟩ := opened.isGenesis.payload
    simp [DerivedRebuilt, opened.events, opened.tables, replayDerived, payload, Projections.empty,
      pure, Except.pure, bind, Except.bind]
  · intro db call request committed holds passes admits step
    cases step with
    | replayed | refusedInput | paged | refusedControl => exact holds
    | landed _ _ _ _ _ _ _ lands =>
      intro steady
      rw [landing_events, SteadyLog, forall_mem_append, forall_mem_singleton] at steady
      obtain ⟨derives, -, -⟩ := lands.halves passes steady.2
      simp only [DerivedRebuilt, landing_events, landing_tables]
      exact foldlM_snoc_eq_ok.mpr ⟨_, holds steady.1, derives⟩

/-! ## The attention items come back when no page item is changed -/

def raisedIds (events : List Event) : List String :=
  events.filterMap raisesItem

/-- Every event that changes an item comes after an event that raised it, or after the ids
already raised. -/
def raisedFrom (raised : List String) : List Event → Bool
  | [] => true
  | event :: rest =>
    (changesItem event).all (fun id => raised.contains id) &&
      raisedFrom (raised ++ (raisesItem event).toList) rest

/-- Every event that changes an item comes after the event that raised it. -/
def raisedFirst (events : List Event) : Bool := raisedFrom [] events

theorem raisedFrom_snoc (raised : List String) (events : List Event) (event : Event) :
    raisedFrom raised (events ++ [event]) = true ↔ raisedFrom raised events = true ∧
        ∀ id, changesItem event = some id → id ∈ raised ++ raisedIds events := by
  induction events generalizing raised with
  | nil =>
    cases changes : changesItem event with
    | none | some => simp [raisedFrom, raisedIds, changes]
  | cons first rest ih =>
    simp only [cons_append, raisedFrom, Bool.and_eq_true, ih, and_assoc]
    cases raises : raisesItem first with
    | none | some => simp [raisedIds, raises]

theorem raisedFirst_snoc (events : List Event) (event : Event) :
    raisedFirst (events ++ [event]) = true ↔
      raisedFirst events = true ∧ ∀ id, changesItem event = some id → id ∈ raisedIds events := by
  rw [raisedFirst, raisedFrom_snoc, nil_append, raisedFirst]

/-- How a log and the live items stand to each other. -/
structure AttentionRebuilt (pg : Postgres) (events : List Event) (live : Rows AttentionItem) :
    Prop where
  present : ∀ id ∈ raisedIds events, ∃ item, live[id]? = some item
  succeeds : (∃ items, events.foldlM (replayAttention pg) ∅ = .ok items) ↔
    raisedFirst events = true
  part : ∀ items, events.foldlM (replayAttention pg) ∅ = .ok items →
    items.PartOf (· ∈ raisedIds events) live

namespace AttentionRebuilt

section

variable (holds : AttentionRebuilt pg events live)
include holds

theorem page {row : AttentionItem}
    (free : live[id]? = none) : AttentionRebuilt pg events (live.insert id row) where
  present other raised := by
    obtain ⟨item, hit⟩ := holds.present other raised
    refine ⟨item, ?_⟩
    rw [getElem?_insert_eq, if_neg, hit]
    rintro rfl
    simp [hit] at free
  succeeds := holds.succeeds
  part items rebuilt := by
    refine (holds.part items rebuilt).grow fun raised => ?_
    obtain ⟨item, hit⟩ := holds.present id raised
    simp [hit] at free

section

variable (isCommand : event.payload = .command command)
include isCommand

theorem raise (raises : command.raisesItem = some id)
    (applied : applyAttention pg event command live = .ok changed) :
    AttentionRebuilt pg (events ++ [event]) changed := by
  obtain ⟨kind, subjectRef, row, spec⟩ := applyAttention_raise pg event raises
  obtain ⟨raisedAt, dated, clear, free, rfl⟩ := (spec live changed).mp applied
  have raisesEvent : raisesItem event = some id := by
    simp [raisesItem, isCommand, command?, raises]
  have changesEvent : changesItem event = none := by
    simp [changesItem, isCommand, command?, changesItem_eq_none_of_raisesItem raises]
  have ids : raisedIds (events ++ [event]) = raisedIds events ++ [id] := by
    simp [raisedIds, raisesEvent]
  have replays (items : Rows AttentionItem)
      (rebuilt : events.foldlM (replayAttention pg) ∅ = .ok items) :
      replayAttention pg items event = .ok (items.insert id (row raisedAt)) := by
    have part := holds.part items rebuilt
    simp only [replayAttention, isCommand]
    refine (spec items _).mpr ⟨raisedAt, dated, ?_, ?_, rfl⟩
    · exact unresolvedAttention_eq_none_of_subset
        (fun other item hit => ((part other item).mp hit).2) clear
    · cases kept : items[id]? with
      | none => rfl
      | some item => simp [((part id item).mp kept).2] at free
  constructor
  · intro other raised
    rw [getElem?_insert_eq]
    split
    next => exact ⟨_, rfl⟩
    next ne =>
      rw [ids, mem_snoc] at raised
      exact holds.present other (raised.resolve_right (Ne.symm ne))
  · rw [raisedFirst_snoc, ← holds.succeeds, changesEvent]
    simp only [foldlM_snoc_eq_ok]
    constructor
    · rintro ⟨_, items, rebuilt, -⟩
      exact ⟨⟨items, rebuilt⟩, nofun⟩
    · rintro ⟨⟨items, rebuilt⟩, -⟩
      exact ⟨_, items, rebuilt, replays items rebuilt⟩
  · intro result rebuiltOn
    obtain ⟨items, rebuilt, replayed⟩ := foldlM_snoc_eq_ok.mp rebuiltOn
    rw [replays items rebuilt] at replayed
    cases replayed
    simp only [ids, mem_append, mem_singleton]
    exact (holds.part items rebuilt).own

theorem change (changes : command.changesItem = some id) (raises : command.raisesItem = none)
    (applied : applyAttention pg event command live = .ok changed) :
    AttentionRebuilt pg (events ++ [event]) changed := by
  obtain ⟨missing, rewrite, spec⟩ := applyAttention_change pg event changes
  rw [spec] at applied
  obtain ⟨item, rewritten, hit, rewrites, rfl⟩ := updateOne_ok.mp applied
  have raisesEvent : raisesItem event = none := by
    simp [raisesItem, isCommand, command?, raises]
  have changesEvent : changesItem event = some id := by
    simp [changesItem, isCommand, command?, changes]
  have ids : raisedIds (events ++ [event]) = raisedIds events := by
    simp [raisedIds, raisesEvent]
  have replays (items result : Rows AttentionItem)
      (rebuilt : events.foldlM (replayAttention pg) ∅ = .ok items) :
      replayAttention pg items event = .ok result ↔
        id ∈ raisedIds events ∧ result = items.insert id rewritten := by
    have part := holds.part items rebuilt
    simp only [replayAttention, isCommand, spec, updateOne_ok]
    constructor
    · rintro ⟨present, outcome, kept, outcomes, rfl⟩
      obtain ⟨raised, eq⟩ := (part id present).mp kept
      rw [hit] at eq
      cases eq
      rw [rewrites] at outcomes
      cases outcomes
      exact ⟨raised, rfl⟩
    · rintro ⟨raised, rfl⟩
      exact ⟨item, rewritten, (part id item).mpr ⟨raised, hit⟩, rewrites, rfl⟩
  constructor
  · intro other raised
    rw [getElem?_insert_eq]
    split
    next => exact ⟨_, rfl⟩
    next => exact holds.present other (ids ▸ raised)
  · rw [raisedFirst_snoc, ← holds.succeeds, changesEvent]
    simp only [foldlM_snoc_eq_ok, Option.some.injEq, forall_eq']
    constructor
    · rintro ⟨result, items, rebuilt, replayed⟩
      exact ⟨⟨items, rebuilt⟩, ((replays items result rebuilt).mp replayed).1⟩
    · rintro ⟨⟨items, rebuilt⟩, raised⟩
      exact ⟨_, items, rebuilt, (replays items _ rebuilt).mpr ⟨raised, rfl⟩⟩
  · intro result rebuiltOn
    obtain ⟨items, rebuilt, replayed⟩ := foldlM_snoc_eq_ok.mp rebuiltOn
    obtain ⟨raised, rfl⟩ := (replays items result rebuilt).mp replayed
    rw [ids]
    exact (holds.part items rebuilt).change raised

theorem append
    (replayed : replayAttention pg live event = .ok changed) :
    AttentionRebuilt pg (events ++ [event]) changed := by
  simp only [replayAttention, isCommand] at replayed
  cases raises : command.raisesItem with
  | some id => exact holds.raise isCommand raises replayed
  | none =>
    cases changes : command.changesItem with
    | some id => exact holds.change isCommand changes raises replayed
    | none =>
      rw [applyAttention_other raises changes] at replayed
      cases replayed
      have raisesEvent : raisesItem event = none := by
        simp [raisesItem, isCommand, command?, raises]
      have changesEvent : changesItem event = none := by
        simp [changesItem, isCommand, command?, changes]
      have ids : raisedIds (events ++ [event]) = raisedIds events := by
        simp [raisedIds, raisesEvent]
      have replays (items : Rows AttentionItem) : replayAttention pg items event = .ok items := by
        simp only [replayAttention, isCommand, applyAttention_other raises changes]
      have folds : (events ++ [event]).foldlM (replayAttention pg) ∅ =
          events.foldlM (replayAttention pg) ∅ := by
        simp only [foldlM_append, foldlM_cons, foldlM_nil, replays]
        exact bind_pure _
      refine ⟨ids ▸ holds.present, ?_, ?_⟩
      · rw [folds, raisedFirst_snoc, ← holds.succeeds, changesEvent]
        simp
      · rw [folds, ids]
        exact holds.part

end

end

end AttentionRebuilt

/-- **In every history the log and the live items stand so to each other.** -/
theorem after_attentionRebuilt (init : Initialised pg codec initial) (calls : List Call) :
    SteadyLog pg (after pg codec initial calls).events →
      AttentionRebuilt pg (after pg codec initial calls).events
        (after pg codec initial calls).tables.attention := by
  obtain ⟨genesis, opened⟩ := init.opened
  refine after_induction
    (fun db => SteadyLog pg db.events → AttentionRebuilt pg db.events db.tables.attention)
    ?_ ?_ calls
  · intro _
    obtain ⟨revision, payload⟩ := opened.isGenesis.payload
    have raises : raisesItem genesis = none := by
      simp [raisesItem, payload, command?]
    have changes : changesItem genesis = none := by
      simp [changesItem, payload, command?]
    have folds : [genesis].foldlM (replayAttention pg) ∅ = .ok ∅ := by
      simp [replayAttention, payload, pure, Except.pure, bind, Except.bind]
    simp only [opened.events, opened.tables, Projections.empty]
    refine ⟨by simp [raisedIds, raises], ?_, ?_⟩
    · simp [folds, raisedFirst, raisedFrom, changes]
    · intro items rebuilt
      rw [folds] at rebuilt
      cases rebuilt
      simp [Rows.PartOf.empty]
  · intro db call request committed holds passes admits step
    cases step with
    | replayed | refusedInput | refusedControl => exact holds
    | paged _ _ _ raised =>
      obtain ⟨raisedAt, -, ⟨-, rfl⟩ | ⟨-, free, rfl⟩⟩ := pageAttention_ok.mp raised
      · exact holds
      · exact fun steady => (holds steady).page free
    | landed _ _ _ _ _ _ _ lands =>
      intro steady
      rw [landing_events, SteadyLog, forall_mem_append, forall_mem_singleton] at steady
      obtain ⟨-, attends, -⟩ := lands.halves passes steady.2
      obtain ⟨kept, made⟩ := lands.made
      simp only [landing_events, landing_tables]
      exact (holds steady.1).append made.payload attends

/-- **The log alone rebuilds the projections exactly when every event that changes an
attention item comes after the event that raised it,** if its timestamps read the same at any
clock.  Each call reads at its own moment, and the replay at `pg.now`. -/
theorem replayLog_rebuilds_iff (init : Initialised pg codec initial) (calls : List Call)
    (steady : SteadyLog pg (after pg codec initial calls).events) :
    (∃ rebuilt, replayLog pg (after pg codec initial calls).events .empty = .ok rebuilt ∧
        derivedRecords rebuilt.derived =
          derivedRecords (after pg codec initial calls).tables.derived) ↔
      raisedFirst (after pg codec initial calls).events = true := by
  have derives := after_derivedRebuilt init calls steady
  rw [← (after_attentionRebuilt init calls steady).succeeds]
  simp only [replayLog_ok (after_logInvariant init calls).known]
  constructor
  · rintro ⟨_, ⟨derived, attention, -, attends, rfl⟩, -⟩
    exact ⟨attention, attends⟩
  · rintro ⟨attention, attends⟩
    exact ⟨_, ⟨_, attention, derives, attends, rfl⟩, rfl⟩

open Sample in
/-- A lease with an expiry, an item raised, acknowledged and muted, and a page nobody touches. -/
def Sample.tended : List Call :=
  [activate,
    call (.acquireLease "l" .exclusive none none none none none none (some "ppp")) "k0" operator,
    call (.raiseAttention "a1" "question" "which?" (some "task/t1") none none) "k1"
      engine,
    ungranted "k2",
    call (.ackAttention "a1") "k3" operator,
    call (.muteAttention "a1" "pp") "k4" operator]

theorem Sample.steady_tended : SteadyLog postgres (ran tended).events :=
  steadyLog_of_notMem (by decide +kernel)

open Sample in
theorem replayLog_rebuilds_tended :
    (ran tended).events.length = 6 ∧ SteadyLog postgres (ran tended).events ∧
      ∃ rebuilt, replayLog postgres (ran tended).events .empty = .ok rebuilt ∧
        derivedRecords rebuilt.derived = derivedRecords (ran tended).tables.derived := by
  refine ⟨by decide +kernel, steady_tended, ?_⟩
  rw [replayLog_rebuilds_iff init tended steady_tended]
  decide +kernel

open Sample in
theorem replayLog_fails_answered : Initialised postgres Sample.codec Sample.initial ∧
      replayLog postgres (ran answered).events .empty =
        .error (noRow "unresolved attention_item" "page:stop:command/c1") ∧
      ¬ ∃ rebuilt, replayLog postgres (ran answered).events .empty =
          .ok rebuilt ∧
        derivedRecords rebuilt.derived =
          derivedRecords (ran answered).tables.derived := by
  have fails : replayLog postgres (ran answered).events .empty =
      .error (noRow "unresolved attention_item" "page:stop:command/c1") := rfl
  refine ⟨init, fails, ?_⟩
  rintro ⟨rebuilt, replays, -⟩
  rw [fails] at replays
  cases replays

end Gridwork.Kernel
