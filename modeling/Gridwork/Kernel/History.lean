import Mathlib.Data.List.Pairwise
import Gridwork.Kernel.Step

/-!
# Histories of the command path

What holds of the log after every list of calls from genesis on.
-/

namespace Gridwork.Kernel

open Domain Lib List Option

variable {pg : Postgres} {codec : Codec} {command kept : KernelCommand}
  {event row genesis other : Event} {tables result : Projections} {db : Db} {request : Request}
  {want : UInt32}

/-! ## What the database makes of a command -/

/-- A command as the log gives it back: the same but for its free JSON. -/
inductive Stores (pg : Postgres) : KernelCommand → KernelCommand → Prop where
  | eq (command : KernelCommand) : Stores pg command command
  | message {messageId : String} {correlationId replyTo sender recipient channel kind :
      Option String} {payload stored : Json} {deadline : Option Timestamp}
      (kept : pg.jsonb payload = some stored) :
      Stores pg (.sendMessage messageId correlationId replyTo sender recipient channel kind
        (some payload) deadline) (.sendMessage messageId correlationId replyTo sender recipient
        channel kind (some stored) deadline)
  | record {kind : IngestionKind} {payload stored : Json} {payloadRef : Option PayloadRef}
      (kept : pg.jsonb payload = some stored) :
      Stores pg (.ingestRecord kind payload payloadRef) (.ingestRecord kind stored payloadRef)

theorem stores_of_storedBody {body : EventBody}
    (stored : storedBody pg (.command command) = some body) :
    ∃ kept, body = .command kept ∧ Stores pg command kept := by
  unfold storedBody at stored
  split at stored
  next eq =>
    cases eq
    obtain ⟨payload, kept, rfl⟩ := map_eq_some_iff.mp stored
    exact ⟨_, rfl, .message kept⟩
  next eq =>
    cases eq
    obtain ⟨payload, kept, rfl⟩ := map_eq_some_iff.mp stored
    exact ⟨_, rfl, .record kept⟩
  next =>
    cases stored
    exact ⟨command, rfl, .eq command⟩

namespace Stores

theorem address_eq (stores : Stores pg command kept) : kept.address = command.address := by
  cases stores with
  | eq | message | record => rfl

theorem targetId_eq (stores : Stores pg command kept) (envelope : CommandEnvelope) :
    kept.targetId envelope = command.targetId envelope := by
  cases stores with
  | eq | message | record => rfl

end Stores

/-! ## Landed rows -/

structure CommandEvent (event : Event) (command : KernelCommand) : Prop where
  payload : event.payload = .command command
  address : (event.aggregateType, event.eventType) = command.address
  keyed : event.idempotencyKey.isSome
  named : event.eventId =
    eventIdOf event.aggregateType event.aggregateId event.aggregateVersion

theorem isContextAggregate_address (command : KernelCommand) :
    isContextAggregate command.address.1 = false := by
  cases command <;> rfl

theorem CommandEvent.applyEvent_ok (isEvent : CommandEvent event command) :
    applyEvent pg event tables = .ok result ↔
      ∃ derived attention, applyDerived pg event command tables.derived = .ok derived ∧
        applyAttention pg event command tables.attention = .ok attention ∧
        result = { tables with derived, attention } := by
  have plain : isContextAggregate event.aggregateType = false := by
    have family : event.aggregateType = command.address.1 := (Prod.ext_iff.mp isEvent.address).1
    rw [family]
    exact isContextAggregate_address command
  simp only [applyEvent, plain, Bool.false_eq_true, if_false, isEvent.payload, bind_ok,
    pure_ok, exists_and_left]

structure Made (pg : Postgres) (db : Db) (call : Call) (request : Request) (want : UInt32)
    (row : Event) (kept : KernelCommand) : Prop where
  stores : Stores pg request.command kept
  isRow : ∃ occurred, pg.reads call.moment.now call.envelope.issuedAt = some occurred ∧
    row = storedRow pg call.moment.now db.writer.nextSeq
      (commandEvent call.envelope request.command request.route (want + 1)) occurred
      (.command kept)
  free : eventIndexesFree db.events row

theorem Lands.made {call : Call} (lands : Lands pg codec db call request want row tables) :
    ∃ kept, Made pg db call request want row kept := by
  obtain ⟨occurred, payload, parsed, stored, rfl, free⟩ := insertEvent_ok.mp lands.inserted
  obtain ⟨kept, rfl, stores⟩ := stores_of_storedBody stored
  exact ⟨kept, stores, ⟨occurred, parsed, rfl⟩, free⟩

namespace Made

variable {call : Call}

section Row

variable (made : Made pg db call request want row kept)

include made

theorem projectId : row.projectId = call.envelope.projectId := by
  obtain ⟨occurred, -, rfl⟩ := made.isRow
  rfl

theorem aggregate : row.aggregate = (request.route.aggregateType, request.route.aggregateId) := by
  obtain ⟨occurred, -, rfl⟩ := made.isRow
  rfl

theorem key : row.idempotencyKey = some call.envelope.idempotencyKey := by
  obtain ⟨occurred, -, rfl⟩ := made.isRow
  rfl

theorem sequence : row.globalSequence = db.writer.nextSeq := by
  obtain ⟨occurred, -, rfl⟩ := made.isRow
  rfl

theorem payload : row.payload = .command kept := by
  obtain ⟨occurred, -, rfl⟩ := made.isRow
  rfl

theorem commandEvent (passes : Passes codec call request) : CommandEvent row kept := by
  obtain ⟨-, -, -, address⟩ := routeOf_ok.mp passes.routed
  obtain ⟨occurred, -, rfl⟩ := made.isRow
  exact ⟨rfl, address.trans made.stores.address_eq.symm, rfl, rfl⟩

end Row

end Made

theorem Lands.applies {call : Call} (lands : Lands pg codec db call request want row tables)
    (passes : Passes codec call request) :
    ∃ kept, Made pg db call request want row kept ∧
      AppliesDerived (pg.asOf call.moment.now) row kept db.tables.derived tables.derived := by
  obtain ⟨kept, made⟩ := lands.made
  obtain ⟨derived, attention, applies, -, rfl⟩ :=
    (made.commandEvent passes).applyEvent_ok.mp lands.projected
  exact ⟨kept, made, appliesDerived_of_eq_ok applies⟩

/-! ## Genesis -/

structure GenesisEvent (event : Event) : Prop where
  payload : ∃ revision, event.payload = .genesis CONTRACT_VERSION revision
  aggregate : event.aggregate = (KERNEL_AGGREGATE, KERNEL_SINGLETON)
  eventType : event.eventType = GENESIS_EVENT_TYPE
  projectId : event.projectId = SYSTEM_PROJECT
  key : event.idempotencyKey = some GENESIS_KEY
  named : event.eventId =
    eventIdOf event.aggregateType event.aggregateId event.aggregateVersion

def Initialised (pg : Postgres) (codec : Codec) (db : Db) : Prop :=
  ∃ store now revision epoch time,
    ensureGenesis pg codec store now revision (Db.created epoch time) = .ok db

/-- What genesis leaves: its own event, and nothing else. -/
structure Opened (db : Db) (genesis : Event) : Prop where
  isGenesis : GenesisEvent genesis
  version : genesis.aggregateVersion = 1
  sequence : genesis.globalSequence = 1
  events : db.events = [genesis]
  tables : db.tables = .empty
  receipts : db.receipts = ∅
  deliveries : db.deliveries = []
  checkpoints : db.checkpoints = []
  nextSeq : db.writer.nextSeq = 2

theorem Initialised.opened (init : Initialised pg codec db) :
    ∃ genesis, Opened db genesis := by
  obtain ⟨store, now, revision, epoch, time, opens⟩ := init
  have absent : epochOf (Db.created epoch time).events = .absent := rfl
  simp only [ensureGenesis, absent, ne_eq, not_true_eq_false, if_false, bind_ok,
    mapError_ok, pure_ok] at opens
  obtain ⟨-, -, -, -, appended, append, rfl⟩ := opens
  obtain ⟨row, -, -, inserted, -, rfl⟩ := (appendLocked_singleton rfl).mp append
  obtain ⟨occurred, payload, -, stored, rfl, -⟩ := insertEvent_ok.mp inserted
  cases stored
  exact ⟨_, ⟨⟨revision, rfl⟩, rfl, rfl, rfl, rfl, rfl⟩, rfl, rfl, rfl, rfl, rfl, rfl, rfl, rfl⟩

/-! ## The log of a history -/

structure LogInvariant (db : Db) : Prop where
  known : ∀ event ∈ db.events, GenesisEvent event ∨ ∃ command, CommandEvent event command
  apart : db.events.Pairwise indexesApart
  sequenced : ∀ event ∈ db.events, event.globalSequence.toNat < db.writer.nextSeq.toNat

theorem LogInvariant.of_opened (opened : Opened db genesis) :
    LogInvariant db where
  known event mem := by
    rw [opened.events, mem_singleton] at mem
    exact .inl (mem ▸ opened.isGenesis)
  apart := by
    rw [opened.events]
    exact pairwise_singleton _ _
  sequenced event mem := by
    rw [opened.events, mem_singleton] at mem
    rw [mem, opened.sequence, opened.nextSeq]
    decide

theorem LogInvariant.eq_of_key (log : LogInvariant db)
    (mem : event ∈ db.events) (otherMember : other ∈ db.events) {key : IdempotencyKey}
    (keyed : event.idempotencyKey = some key) (otherKeyed : other.idempotencyKey = some key)
    (shared : event.projectId = other.projectId ∨ event.aggregate = other.aggregate) :
    event = other := by
  by_contra ne
  obtain ⟨-, -, -, apart⟩ := log.apart.forall mem otherMember ne
  obtain ⟨otherAggregate, otherProject⟩ :=
    apart (by simp [otherKeyed]) (keyed.trans otherKeyed.symm)
  exact shared.elim otherProject otherAggregate

theorem LogInvariant.of_lands {call : Call}
    (holds : LogInvariant db) (passes : Passes codec call request)
    (lands : Lands pg codec db call request want row tables) :
    LogInvariant (landing pg codec db call request row tables) := by
  obtain ⟨kept, made⟩ := lands.made
  have next : (db.writer.nextSeq + 1).toNat = db.writer.nextSeq.toNat + 1 := by
    have room := lands.sequenced
    rw [UInt64.toNat_add]
    exact Nat.mod_eq_of_lt room
  constructor
  · intro event mem
    rw [landing_events, mem_snoc] at mem
    rcases mem with prior | rfl
    · exact holds.known event prior
    · exact .inr ⟨kept, made.commandEvent passes⟩
  · rw [landing_events, pairwise_append]
    refine ⟨holds.apart, pairwise_singleton _ _, ?_⟩
    intro other prior event isRow
    rw [mem_singleton] at isRow
    exact isRow ▸ made.free other prior
  · intro event mem
    rw [landing_events, mem_snoc] at mem
    rw [landing_nextSeq, next]
    rcases mem with prior | rfl
    · exact Nat.lt_succ_of_lt (holds.sequenced event prior)
    · rw [made.sequence]
      exact Nat.lt_succ_self _

/-- **Every history keeps the log invariant.** -/
theorem after_logInvariant {initial : Db} (init : Initialised pg codec initial)
    (calls : List Call) : LogInvariant (after pg codec initial calls) := by
  obtain ⟨genesis, opened⟩ := init.opened
  refine after_induction LogInvariant (.of_opened opened) ?_ calls
  intro db call request committed holds passes admits step
  cases step with
  | replayed => exact holds
  | refusedInput | paged | refusedControl => exact ⟨holds.known, holds.apart, holds.sequenced⟩
  | @landed _ receipts _ _ _ _ _ _ _ _ _ _ lands =>
    have before : LogInvariant { db with receipts } :=
      ⟨holds.known, holds.apart, holds.sequenced⟩
    exact before.of_lands passes lands

end Gridwork.Kernel

/-! ## A kernel to run -/

namespace Gridwork.Kernel.Sample

open Domain

/-- A time in unary, one letter a microsecond: `p` after the epoch, `n` before it. -/
def render (time : Instant) : Timestamp :=
  String.ofList (List.replicate time.natAbs (if 0 ≤ time then 'p' else 'n'))

/-- `now` is the one text that is read off the clock. -/
def reads (now : Instant) (text : Timestamp) : Option Instant :=
  if text.toList.all (· == 'p') then some text.toList.length
  else if text.toList.all (· == 'n') then some (-text.toList.length)
  else if text = "now" then some now
  else none

theorem reads_render (now time : Instant) : reads now (render time) = some time := by
  rcases time with count | count
  · simp [reads, render]
  · have text : (render (Int.negSucc count)).toList = 'n' :: List.replicate count 'n' := by
      simp [render, Int.natAbs, List.replicate_succ]
    have length : (render (Int.negSucc count)).toList.length = count + 1 := by simp [text]
    rw [reads, if_neg (by simp [text]), if_pos (by simp [text]), length]
    rfl

def postgres : Postgres where
  now := 9
  reads := reads
  render := render
  jsonb := some
  reads_render := reads_render

theorem steady_of_notMem {texts : List Timestamp} (dated : "now" ∉ texts) :
    ∀ text ∈ texts, postgres.Steady text := by
  intro text listed now
  have other : text ≠ "now" := ne_of_mem_of_not_mem listed dated
  simp only [Postgres.instant, postgres, reads, other, if_false]

theorem steadyLog_of_notMem {events : List Event}
    (dated : ∀ event ∈ events, "now" ∉ event.payload.timestamps) : SteadyLog postgres events :=
  fun event mem => steady_of_notMem (dated event mem)

def zeros : String := "0000000000000000000000000000000000000000000000000000000000000000"

def codec : Codec where
  inlineSize _ := 1
  projectionHash _ := ⟨zeros, by decide⟩
  recordsSize _ := 0
  inputBinding key bytes := key ++ bytes

def store : Store := { bootEpoch := 1, blobs := some [7] }

def moment : Moment := { permit := true, storage := .answers, now := 1, clock := 1 }

def operator : Actor := { kind := "operator", id := none }

def engine : Actor := { kind := "engine", id := none }

def envelope (command : KernelCommand) (key : IdempotencyKey) (actor : Actor)
    (projectId : ProjectId) : CommandEnvelope where
  commandId := key
  projectId := projectId
  commandType := command.commandType
  schemaVersion := 1
  issuedAt := "p"
  actor := actor
  origin := { system := "gw", ref := none }
  targetAggregateType := none
  targetAggregateId := none
  expectedVersion := none
  idempotencyKey := key
  causationId := none
  correlationId := none
  payload := .ok command

def call (command : KernelCommand) (key : IdempotencyKey) (actor : Actor) : Call where
  store := store
  moment := moment
  envelope := envelope command key actor "p"
  ptyInput := none

def activate : Call where
  store := store
  moment := moment
  envelope := envelope (.activateKernel "c" zeros) "kernel_activated:c" operator SYSTEM_PROJECT
  ptyInput := none

def initial : Db :=
  match ensureGenesis postgres codec store 1 "0000000000000000000000000000000000000000"
      (Db.created 1 0) with
  | .ok db => db
  | .error _ => Db.created 1 0

theorem init : Initialised postgres codec initial :=
  ⟨store, 1, "0000000000000000000000000000000000000000", 1, 0, rfl⟩

/-- The database a list of calls leaves from genesis. -/
abbrev ran (calls : List Call) : Db := after postgres codec initial calls

def declared : Call :=
  call (.declarePtySessionTemplate "t" "sh" [] none [] 80 24) "k0" operator

/-- The declaration once more, with another command id, no time, and a schema version. -/
def again (schemaVersion : UInt32) : Call :=
  { declared with
    envelope := { declared.envelope with
      commandId := "k9"
      issuedAt := "later"
      schemaVersion } }

/-- The operator starts a session of the template, at an expected version. -/
def start (expectedVersion : Option UInt32) : Call :=
  let envelope := envelope (.requestPtySessionStart "t" "s") "k1" operator "p"
  { store, moment
    envelope := { envelope with expectedVersion }
    ptyInput := none }

def starting : Request where
  command := .requestPtySessionStart "t" "s"
  route := {
    aggregateType := "pty_session_start"
    aggregateId := "s:k1"
    eventType := "pty_session_start_requested" }
  refusal := none
  inputBinding := none

/-- An engine asks to issue a stop, which takes a grant it does not have. -/
def ungranted (key : IdempotencyKey) : Call :=
  call (.issueCommand "c1" "stop" [] none) key engine

def stopping : Request where
  command := .issueCommand "c1" "stop" [] none
  route := { aggregateType := "command", aggregateId := "c1", eventType := "command_issued" }
  refusal := none
  inputBinding := none

def answered : List Call :=
  [activate, ungranted "k1", call (.resolveAttention "page:stop:command/c1" none) "k2" operator]

end Gridwork.Kernel.Sample
