import Gridwork.Domain.Protocol
import Gridwork.Kernel.Command
import Gridwork.Lib.Rows

/-!
# The kernel's tables

The rows of the projection tables, the database functions the kernel leans on, and the
integrity checks of the schema: primary keys, foreign keys, unique columns, and the
triggers that guard states and versions.

`Postgres` collects what the database itself decides: how it reads a timestamp, how it
writes one, and what a JSON value becomes when stored as `jsonb`.  A client's timestamp is
any text, and `now` or `tomorrow` is read off the clock of the transaction that reads it.

A refusal that comes from the driver carries the driver's text; here it is the
statement's context and the name of the check that failed.
-/

namespace Gridwork.Kernel

open Domain Lib

/-! ## The database -/

/-- A point of database time, in microseconds. -/
abbrev Instant := Int

/-- The database, as one transaction sees it. -/
structure Postgres where
  /-- The time of the transaction. -/
  now : Instant
  /-- `text::timestamptz` in a transaction of the given time. -/
  reads : Instant → Timestamp → Option Instant
  /-- `to_json(at) #>> '{}'`. -/
  render : Instant → Timestamp
  /-- A JSON value after being stored as `jsonb` and read back, if it can be stored. -/
  jsonb : Json → Option Json
  reads_render : ∀ now time, reads now (render time) = some time

namespace Postgres

variable (pg : Postgres) (now time : Instant)

/-- `text::timestamptz` in the transaction at hand. -/
def instant (text : Timestamp) : Option Instant := pg.reads pg.now text

/-- The database in a transaction of another time. -/
def asOf (now : Instant) : Postgres := { pg with now }

/-- The text reads the same at any clock. -/
def Steady (text : Timestamp) : Prop := ∀ now, pg.reads now text = pg.instant text

theorem instant_render : pg.instant (pg.render time) = some time :=
  pg.reads_render pg.now time

theorem steady_render : pg.Steady (pg.render time) := fun now => by
  rw [pg.reads_render, pg.instant_render]

end Postgres

/-! ## Refusals -/

/-- A typed refusal: the code a client branches on, its text, and a structured detail. -/
structure Refusal where
  code : KernelErrorCode
  message : String
  detail : Option Json

namespace Refusal

def new (code : KernelErrorCode) (message : String) : Refusal :=
  { code, message, detail := none }

def withDetail (refusal : Refusal) (detail : Json) : Refusal :=
  { refusal with detail := some detail }

def validation (message : String) : Refusal := new .validation message

def notFound (message : String) : Refusal := new .notFound message

def storage (message : String) : Refusal := new .storage message

/-- `db` on any database error but an unresolved foreign key. -/
def db (context failed : String) : Refusal := storage s!"{context}: {failed}"

/-- `db` on a foreign key that does not resolve. -/
def foreignKey (context column : String) : Refusal := notFound s!"{context}: {column}"

end Refusal

/-- `require_one` on an update that found no row. -/
def noRow (kind id : String) : Refusal :=
  .notFound s!"no {kind} {id}"

/-! ## Columns and triggers -/

variable (pg : Postgres) (context : String)

def timestamptz (text : Timestamp) : Except Refusal Instant :=
  match pg.instant text with
  | some time => .ok time
  | none => .error (.db context "timestamp")

theorem timestamptz_ok {pg : Postgres} {context : String} {text : Timestamp}
    {time : Instant} : timestamptz pg context text = .ok time ↔ pg.instant text = some time := by
  unfold timestamptz
  split
  next parsed => simp [parsed]
  next parsed => simp [parsed]

theorem timestamptz_asOf {pg : Postgres} {text : Timestamp} (steady : pg.Steady text)
    (now : Instant) : timestamptz (pg.asOf now) context text = timestamptz pg context text := by
  unfold timestamptz
  rw [← steady now]
  rfl

def timestamptzOpt : Option Timestamp → Except Refusal (Option Instant)
  | none => .ok none
  | some text => (timestamptz pg context text).map some

theorem timestamptzOpt_asOf {pg : Postgres} {time : Option Timestamp}
    (steady : ∀ text ∈ time, pg.Steady text) (now : Instant) :
    timestamptzOpt (pg.asOf now) context time = timestamptzOpt pg context time := by
  cases time with
  | none => rfl
  | some text => rw [timestamptzOpt, timestamptz_asOf context (steady text rfl), timestamptzOpt]

def primaryKey : Refusal := .db context "primary key"

/-- `gwk.assert_version_cas`: every update advances the version by exactly one. -/
def assertVersionCas (before after : UInt32) : Except Refusal Unit :=
  require (after.toNat = before.toNat + 1) (.db context "version must advance by exactly 1")

/-- `gwk.assert_transition`: a state changes along an edge, and the version advances. -/
def assertTransition {S : Type} [DecidableEq S] [StateMachine S] (source target : S)
    (before after : UInt32) : Except Refusal Unit := do
  require (target = source ∨ StateMachine.canTransition source target)
    (.db context "illegal transition")
  assertVersionCas context before after

/-- `gwk.assert_initial_state`: a row is born at version 1. -/
def assertInitialVersion (version : UInt32) : Except Refusal Unit :=
  require (version = 1) (.db context "rows must be born at version 1")

/-! ## Rows -/

structure Task where
  version : UInt32
  state : TaskState
  (kind title specRef project : Option String)
  priority : Option Int
  trackerRef : Option String
  (createdAt updatedAt : Instant)

structure Attempt where
  version : UInt32
  state : AttemptState
  (taskId engine : String)
  (capability role modelLane permissionProfile worktreeLeaseId baseSha : Option String)
  budget : Option Budget
  runtimeRef : Option String
  runtimeStartedAt : Option Instant
  exitCode : Option Int
  providerTerminalEvent : Option String
  resultValid : Option Bool
  evidenceManifestRef : Option String
  (createdAt updatedAt : Instant)

structure EngineSession where
  (attemptId engine : String)
  providerSessionRef : Option String
  startedAt : Instant
  endedAt : Option Instant

structure Message where
  version : UInt32
  state : MessageState
  idempotencyKey : IdempotencyKey
  (correlationId replyTo sender recipient channel kind : Option String)
  payload : Option Json
  deadline : Option Instant
  deadLetterReason : Option String
  (createdAt updatedAt : Instant)

structure Command where
  version : UInt32
  state : CommandState
  kind : String
  target : Option String
  actor : Option Actor
  idempotencyKey : Option IdempotencyKey
  outcome : Option Outcome
  (createdAt updatedAt : Instant)

inductive LeaseState where
  | held | released | expired
  deriving DecidableEq

structure Lease where
  version : UInt32
  state : LeaseState
  mode : LeaseMode
  (holder scope repo path branch baseSha : Option String)
  (heartbeatAt expiresAt : Option Instant)
  disposition : Option String
  (createdAt updatedAt : Instant)

structure Worktree where
  (repo path branch : String)
  (baseSha leaseId : Option String)
  (dirty unpushed : Bool)
  releasedAt : Option Instant
  disposition : Option String
  createdAt : Instant

structure DispatchNode where
  version : UInt32
  (parentId attemptId : Option String)
  (kind state : String)
  label : Option String
  (createdAt updatedAt : Instant)

/-- A row of `gwk.orchestrator_checkpoint`, keyed by the orchestrator it names. -/
structure OrchestratorCheckpointRow where
  checkpoint : OrchestratorCheckpoint
  updatedAt : Instant

structure Gate where
  version : UInt32
  (attemptId phaseRef kind question : Option String)
  options : Option (List String)
  verdict : GateVerdict
  chosenOption : Option String
  decidedBy : Option Actor
  evidenceRef : Option String
  (createdAt updatedAt : Instant)

structure Evidence where
  (kind ref : String)
  digest : Option String
  byteSize : Option ByteCount
  createdAt : Instant

structure CostEntry where
  (attemptId engineSessionId dispatchNodeId : Option String)
  engine : String
  model : Option String
  (inputTokens cachedInputTokens cacheWriteTokens outputTokens reasoningTokens : Option UInt64)
  costMicros : Option UInt64
  costIsEstimate : Option Bool
  recordedAt : Instant

structure AuthorityGrant where
  grantee : Actor
  actionClass : String
  scope : Option String
  grantedAt : Instant
  (expiresAt revokedAt : Option Instant)
  revokeReason : Option String

structure WorkspaceNode where
  version : UInt32
  kind : WorkspaceNodeKind
  (parentId sessionId : Option String)
  (createdAt updatedAt : Instant)

structure WorkflowRun where
  version : UInt32
  state : String
  step : Option String
  templateRef : String
  (templateSha256 taskId title : Option String)
  (openedAt updatedAt : Instant)
  closedAt : Option Instant

inductive PtySessionState where
  | running | stopping | closed
  deriving DecidableEq

structure PtySession where
  version : UInt32
  state : PtySessionState
  generation : String
  engineSessionId : Option String
  (attachCount detachCount : Nat)
  title : Option String
  (openedAt updatedAt : Instant)
  closedAt : Option Instant

structure PtySessionTemplate where
  version : UInt32
  retiredAt : Option Instant
  command : String
  args : List String
  cwd : Option String
  env : List (String × String)
  (cols rows : UInt16)
  (declaredAt updatedAt : Instant)

/-- The schema ties a template's `state` to its retirement stamp: active exactly while
there is none. -/
def PtySessionTemplate.active (template : PtySessionTemplate) : Bool :=
  template.retiredAt.isNone

structure IngestedRecord where
  kind : IngestionKind
  payload : Json
  payloadRef : Option PayloadRef
  ingestedBy : Actor
  eventSeq : Seq
  ingestedAt : Instant

structure AttentionItem where
  (kind summary : String)
  subjectRef : Option String
  raisedBy : Option Actor
  priority : Option Int
  raisedAt : Instant
  (ackedAt mutedUntil resolvedAt : Option Instant)
  resolution : Option String

/-- A row of `gwk.receipt`.  The command path never sets the from and to states. -/
structure Receipt where
  actor : Actor
  (action subjectType subjectId : String)
  observedBasis : Option String
  ts : Instant
  deriving DecidableEq

/-! ## The derived tables -/

/-- The projection tables a replay of the log rebuilds. -/
structure Derived where
  attempt : Rows Attempt
  authorityGrant : Rows AuthorityGrant
  command : Rows Command
  costEntry : Rows CostEntry
  dispatchNode : Rows DispatchNode
  engineSession : Rows EngineSession
  evidence : Rows Evidence
  gate : Rows Gate
  ingestedRecord : Rows IngestedRecord
  lease : Rows Lease
  message : Rows Message
  orchestratorCheckpoint : Rows OrchestratorCheckpointRow
  ptySession : Rows PtySession
  ptySessionTemplate : Rows PtySessionTemplate
  task : Rows Task
  workflowRun : Rows WorkflowRun
  workspaceNode : Rows WorkspaceNode
  worktree : Rows Worktree

def Derived.empty : Derived where
  attempt := ∅
  authorityGrant := ∅
  command := ∅
  costEntry := ∅
  dispatchNode := ∅
  engineSession := ∅
  evidence := ∅
  gate := ∅
  ingestedRecord := ∅
  lease := ∅
  message := ∅
  orchestratorCheckpoint := ∅
  ptySession := ∅
  ptySessionTemplate := ∅
  task := ∅
  workflowRun := ∅
  workspaceNode := ∅
  worktree := ∅

/-- One line of the canonical dump.  The orchestrator's row leaves its bookkeeping stamp
out. -/
inductive ProjectionRecord where
  | attempt (id : String) (row : Attempt)
  | authorityGrant (id : String) (row : AuthorityGrant)
  | command (id : String) (row : Command)
  | costEntry (id : String) (row : CostEntry)
  | dispatchNode (id : String) (row : DispatchNode)
  | engineSession (id : String) (row : EngineSession)
  | evidence (id : String) (row : Evidence)
  | gate (id : String) (row : Gate)
  | ingestedRecord (id : String) (row : IngestedRecord)
  | lease (id : String) (row : Lease)
  | message (id : String) (row : Message)
  | orchestratorCheckpoint (checkpoint : OrchestratorCheckpoint)
  | ptySession (id : String) (row : PtySession)
  | ptySessionTemplate (name : String) (row : PtySessionTemplate)
  | task (id : String) (row : Task)
  | workflowRun (id : String) (row : WorkflowRun)
  | workspaceNode (id : String) (row : WorkspaceNode)
  | worktree (id : String) (row : Worktree)

def recordsOf {Row : Type} (record : String → Row → ProjectionRecord) (rows : Rows Row) :
    List ProjectionRecord :=
  rows.toList.map fun entry => record entry.1 entry.2

/-- `derived_records`: every derived table's lines, table by table. -/
def derivedRecords (tables : Derived) : List ProjectionRecord :=
  recordsOf .attempt tables.attempt ++
  recordsOf .authorityGrant tables.authorityGrant ++
  recordsOf .command tables.command ++
  recordsOf .costEntry tables.costEntry ++
  recordsOf .dispatchNode tables.dispatchNode ++
  recordsOf .engineSession tables.engineSession ++
  recordsOf .evidence tables.evidence ++
  recordsOf .gate tables.gate ++
  recordsOf .ingestedRecord tables.ingestedRecord ++
  recordsOf .lease tables.lease ++
  recordsOf .message tables.message ++
  recordsOf (fun _ row => .orchestratorCheckpoint row.checkpoint) tables.orchestratorCheckpoint ++
  recordsOf .ptySession tables.ptySession ++
  recordsOf .ptySessionTemplate tables.ptySessionTemplate ++
  recordsOf .task tables.task ++
  recordsOf .workflowRun tables.workflowRun ++
  recordsOf .workspaceNode tables.workspaceNode ++
  recordsOf .worktree tables.worktree

theorem eq_empty_of_derivedRecords_eq_nil {tables : Derived}
    (silent : derivedRecords tables = []) : tables = Derived.empty := by
  simp only [derivedRecords, List.append_eq_nil_iff] at silent
  obtain ⟨⟨⟨⟨⟨⟨⟨⟨⟨⟨⟨⟨⟨⟨⟨⟨⟨t1, t2⟩, t3⟩, t4⟩, t5⟩, t6⟩, t7⟩, t8⟩, t9⟩, t10⟩, t11⟩, t12⟩, t13⟩,
    t14⟩, t15⟩, t16⟩, t17⟩, t18⟩ := silent
  cases tables
  simp only [Derived.empty, Derived.mk.injEq]
  refine ⟨?_, ?_, ?_, ?_, ?_, ?_, ?_, ?_, ?_, ?_, ?_, ?_, ?_, ?_, ?_, ?_, ?_, ?_⟩
  all_goals exact Rows.eq_empty_of_toList_eq_nil (List.map_eq_nil_iff.mp (by assumption))

end Gridwork.Kernel
