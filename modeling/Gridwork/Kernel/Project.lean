import Gridwork.Kernel.Fact

/-!
# The one writer of projections

`applyEvent` writes one event's rows.  The live append and every replay go through it,
which is what makes a replay agree with the write it replays.

A command concerns at most one table, and each function reads the other tables only for its foreign
keys.  `attention_item` and the receipts are kept apart from the derived tables, because they also
hold rows that have no event behind them: `pageAttention` and `writeReceipt` write those.
-/

namespace Gridwork.Kernel

open Domain Lib Rows

/-! ## Events -/

/-- The payloads of the log: its genesis, commands and context facts. -/
inductive EventBody where
  | genesis (contractVersion : UInt32) (publicRevision : String)
  | command (command : KernelCommand)
  | context (payload : ContextEventPayload)
  deriving DecidableEq

abbrev Event := EventEnvelope EventBody

/-- The client's timestamps in a command that a column is written from. -/
def KernelCommand.timestamps : KernelCommand → List Timestamp
  | .acquireLease _ _ _ _ _ _ _ _ time | .renewLease _ _ time
  | .sendMessage _ _ _ _ _ _ _ _ time | .grantAuthority _ _ _ _ time => time.toList
  | .recordAttemptRuntime _ _ _ time | .muteAttention _ time => [time]
  | _ => []

/-- The client's timestamps in a fact that a column is written from. -/
def ContextFact.timestamps : ContextFact → List Timestamp
  | .manifestResolved _ _ _ _ _ _ _ _ _ time | .releaseRecorded _ _ _ _ _ _ _ time
  | .observationAppended _ _ _ _ _ _ _ _ _ time
  | .assuranceCertified _ _ _ _ _ _ _ _ _ _ _ time _ => [time]
  | _ => []

def EventBody.timestamps : EventBody → List Timestamp
  | .genesis .. => []
  | .command sent => sent.timestamps
  | .context recorded => recorded.fact.timestamps

/-- Every timestamp in the payloads of a log reads the same at any clock. -/
def SteadyLog (pg : Postgres) (events : List Event) : Prop :=
  ∀ event ∈ events, ∀ text ∈ event.payload.timestamps, pg.Steady text

/-! ## Versioned rows -/

/-- A table whose rows carry a version and an update stamp, with its update triggers. -/
class Versioned (Row : Type) where
  /-- Write the version and the update stamp. -/
  stamp : Row → UInt32 → Instant → Row
  /-- The triggers and checks of the table on an update, given the row before and after. -/
  guard : String → Row → Row → Except Refusal Unit

instance : Versioned Task where
  stamp row version updatedAt := { row with version, updatedAt }
  guard context before after :=
    assertTransition context before.state after.state before.version after.version

instance : Versioned Attempt where
  stamp row version updatedAt := { row with version, updatedAt }
  guard context before after :=
    assertTransition context before.state after.state before.version after.version

instance : Versioned Message where
  stamp row version updatedAt := { row with version, updatedAt }
  guard context before after :=
    assertTransition context before.state after.state before.version after.version

instance : Versioned Command where
  stamp row version updatedAt := { row with version, updatedAt }
  guard context before after := do
    assertTransition context before.state after.state before.version after.version
    require ((after.state = .verificationComplete) ↔ after.outcome.isSome)
      (.db context "outcome_iff_verification_complete")

instance : Versioned Lease where
  stamp row version updatedAt := { row with version, updatedAt }
  guard context before after := assertVersionCas context before.version after.version

instance : Versioned DispatchNode where
  stamp row version updatedAt := { row with version, updatedAt }
  guard context before after := assertVersionCas context before.version after.version

/-- The gate table has no update trigger. -/
instance : Versioned Gate where
  stamp row version updatedAt := { row with version, updatedAt }
  guard _ _ _ := .ok ()

instance : Versioned WorkspaceNode where
  stamp row version updatedAt := { row with version, updatedAt }
  guard context before after := assertVersionCas context before.version after.version

instance : Versioned WorkflowRun where
  stamp row version updatedAt := { row with version, updatedAt }
  guard context before after := do
    assertVersionCas context before.version after.version
    require ((after.state = "running") ↔ after.closedAt = none)
      (.db context "workflow_run_closed_iff_terminal")

instance : Versioned PtySession where
  stamp row version updatedAt := { row with version, updatedAt }
  guard context before after := assertVersionCas context before.version after.version

instance : Versioned PtySessionTemplate where
  stamp row version updatedAt := { row with version, updatedAt }
  guard context before after := assertVersionCas context before.version after.version

section Projection

variable (pg : Postgres) (event : Event)

/-- An update of one versioned row from an event: the row takes the event's version and
its append time. -/
def revise {Row : Type} [Versioned Row] (context kind id : String)
    (change : Row → Instant → Except Refusal Row) (rows : Rows Row) : Except Refusal (Rows Row) :=
  rows.updateOne (noRow kind id) id fun row => do
    let time ← timestamptz pg context event.appendedAt
    let changed ← change row time
    let after := Versioned.stamp changed event.aggregateVersion time
    Versioned.guard context row after
    return after

theorem revise_ok {pg : Postgres} {event : Event} {Row : Type} [Versioned Row]
    {context kind id : String} {change : Row → Instant → Except Refusal Row}
    {rows result : Rows Row} :
    revise pg event context kind id change rows = .ok result ↔
      ∃ row time changed, rows[id]? = some row ∧ pg.instant event.appendedAt = some time ∧
        change row time = .ok changed ∧
        Versioned.guard context row (Versioned.stamp changed event.aggregateVersion time) = .ok () ∧
        result = rows.insert id (Versioned.stamp changed event.aggregateVersion time) := by
  simp only [revise, updateOne_ok, bind_ok, exists_unit, pure_ok, timestamptz_ok]
  constructor
  · rintro ⟨row, _, hit, ⟨time, dated, changed, changes, guarded, rfl⟩, rfl⟩
    exact ⟨row, time, changed, hit, dated, changes, guarded, rfl⟩
  · rintro ⟨row, time, changed, hit, dated, changes, guarded, rfl⟩
    exact ⟨row, _, hit, ⟨time, dated, changed, changes, guarded, rfl⟩, rfl⟩

/-! ## Work -/

variable (command : KernelCommand)

def applyTask (rows : Rows Task) : Except Refusal (Rows Task) :=
  match command with
  | .createTask taskId kind title specRef project priority trackerRef => do
    let context := "insert task"
    let time ← timestamptz pg context event.appendedAt
    assertInitialVersion context event.aggregateVersion
    rows.insertNew (primaryKey context) taskId
      { version := event.aggregateVersion
        state := .submitted
        kind, title, specRef, project, priority, trackerRef
        createdAt := time
        updatedAt := time }
  | .transitionTask taskId target _ =>
    rows |> revise pg event "transition task" "task" taskId fun row _ =>
      .ok { row with state := target }
  | _ => .ok rows

def applyAttempt (tasks : Rows Task) (leases : Rows Lease)
    (rows : Rows Attempt) : Except Refusal (Rows Attempt) :=
  match command with
  | .createAttempt attemptId taskId engine capability role modelLane permissionProfile
      worktreeLeaseId baseSha budget => do
      let context := "insert attempt"
      let time ← timestamptz pg context event.appendedAt
      assertInitialVersion context event.aggregateVersion
      let rows ← rows.insertNew (primaryKey context) attemptId
        { version := event.aggregateVersion
          state := .queued
          taskId, engine, capability, role, modelLane, permissionProfile, worktreeLeaseId
          baseSha, budget
          runtimeRef := none
          runtimeStartedAt := none
          exitCode := none
          providerTerminalEvent := none
          resultValid := none
          evidenceManifestRef := none
          createdAt := time
          updatedAt := time }
      Rows.references (.foreignKey context "task_id") (some taskId) tasks
      Rows.references (.foreignKey context "worktree_lease_id") worktreeLeaseId leases
      return rows
  | .transitionAttempt attemptId target _ _ =>
    rows |> revise pg event "transition attempt" "attempt" attemptId fun row _ =>
      .ok { row with state := target }
  | .updateBudget attemptId _ budget =>
    rows |> revise pg event "update budget" "attempt" attemptId fun row _ =>
      .ok { row with budget := some budget }
  | .recordAttemptRuntime attemptId _ runtimeRef runtimeStartedAt =>
    let context := "record attempt runtime"
    rows |> revise pg event context "attempt" attemptId fun row _ => do
      let started ← timestamptz pg context runtimeStartedAt
      return { row with runtimeRef := some runtimeRef, runtimeStartedAt := some started }
  | .recordAttemptOutcome attemptId _ exitCode providerTerminalEvent resultValid
      evidenceManifestRef =>
      rows |> revise pg event "record attempt outcome" "attempt" attemptId fun row _ =>
        -- An absent field does not erase what an earlier record established.
        .ok { row with
          exitCode := exitCode <|> row.exitCode
          providerTerminalEvent := providerTerminalEvent <|> row.providerTerminalEvent
          resultValid := resultValid <|> row.resultValid
          evidenceManifestRef := evidenceManifestRef <|> row.evidenceManifestRef }
  | .recordRound attemptId .. | .recordFinding attemptId .. =>
    rows |> revise pg event "advance attempt" "attempt" attemptId fun row _ => .ok row
  | _ => .ok rows

variable (attempts : Rows Attempt)

def applyEngineSession (rows : Rows EngineSession) : Except Refusal (Rows EngineSession) :=
  match command with
  | .openEngineSession engineSessionId attemptId engine providerSessionRef => do
    let context := "open engine session"
    let startedAt ← timestamptz pg context event.appendedAt
    let rows ← rows.insertNew (primaryKey context) engineSessionId
      { attemptId, engine, providerSessionRef, startedAt, endedAt := none }
    Rows.references (.foreignKey context "attempt_id") (some attemptId) attempts
    return rows
  | .closeEngineSession engineSessionId =>
    rows.updateOne (noRow "engine_session" engineSessionId) engineSessionId fun row => do
      let endedAt ← timestamptz pg "close engine session" event.appendedAt
      return { row with endedAt := some endedAt }
  | _ => .ok rows

/-! ## Leases and trees of work -/

def applyLease (rows : Rows Lease) : Except Refusal (Rows Lease) :=
  match command with
  | .acquireLease leaseId mode holder scope repo path branch baseSha expiresAt => do
    let context := "acquire lease"
    let expiresAt ← timestamptzOpt pg context expiresAt
    let time ← timestamptz pg context event.appendedAt
    rows.insertNew (primaryKey context) leaseId
      { version := event.aggregateVersion
        state := .held
        mode, holder, scope, repo, path, branch, baseSha
        heartbeatAt := none
        expiresAt
        disposition := none
        createdAt := time
        updatedAt := time }
  | .renewLease leaseId _ expiresAt =>
    let context := "renew lease"
    rows |> revise pg event context "lease" leaseId fun row time => do
      let expiresAt ← timestamptzOpt pg context expiresAt
      return { row with expiresAt := expiresAt <|> row.expiresAt, heartbeatAt := some time }
  | .releaseLease leaseId _ disposition =>
    rows |> revise pg event "release lease" "lease" leaseId fun row _ =>
      .ok { row with state := .released, disposition := disposition <|> row.disposition }
  | .expireLease leaseId _ =>
    rows |> revise pg event "expire lease" "lease" leaseId fun row _ =>
      .ok { row with state := .expired }
  | _ => .ok rows

def applyWorktree (leases : Rows Lease) (rows : Rows Worktree) : Except Refusal (Rows Worktree) :=
  match command with
  | .registerWorktree worktreeId repo path branch baseSha leaseId => do
    let context := "register worktree"
    let createdAt ← timestamptz pg context event.appendedAt
    let rows ← rows.insertNew (primaryKey context) worktreeId
      { repo, path, branch, baseSha, leaseId
        dirty := false
        unpushed := false
        releasedAt := none
        disposition := none
        createdAt }
    Rows.references (.foreignKey context "lease_id") leaseId leases
    return rows
  | .updateWorktree worktreeId dirty unpushed baseSha =>
    rows.updateOne (noRow "worktree" worktreeId) worktreeId fun row =>
      .ok { row with dirty, unpushed, baseSha := baseSha <|> row.baseSha }
  | .releaseWorktree worktreeId disposition =>
    rows.updateOne (noRow "worktree" worktreeId) worktreeId fun row => do
      let releasedAt ← timestamptz pg "release worktree" event.appendedAt
      return { row with
        releasedAt := some releasedAt
        disposition := disposition <|> row.disposition }
  | _ => .ok rows

def DISPATCH_NODE_INITIAL_STATE : String := "registered"

def applyDispatchNode (rows : Rows DispatchNode) : Except Refusal (Rows DispatchNode) :=
  match command with
  | .registerDispatchNode dispatchNodeId parentId attemptId kind label => do
    let context := "register dispatch node"
    let time ← timestamptz pg context event.appendedAt
    let rows ← rows.insertNew (primaryKey context) dispatchNodeId
      { version := event.aggregateVersion
        parentId, attemptId, kind
        state := DISPATCH_NODE_INITIAL_STATE
        label
        createdAt := time
        updatedAt := time }
    Rows.references (.foreignKey context "parent_id") parentId rows
    Rows.references (.foreignKey context "attempt_id") attemptId attempts
    return rows
  | .transitionDispatchNode dispatchNodeId target _ =>
    rows |> revise pg event "transition dispatch node" "dispatch_node" dispatchNodeId
      fun row _ => .ok { row with state := target }
  | _ => .ok rows

/-- `gwk.assert_workspace_parentage`.  A parent that is not there is left to the foreign
key. -/
def assertWorkspaceParentage (context id : String) (kind : WorkspaceNodeKind)
    (parentId : Option String) (rows : Rows WorkspaceNode) : Except Refusal Unit :=
  match parentId with
  | none => require (kind = .workspace) (.db context "must sit under a parent")
  | some parent => do
    require (kind ≠ .workspace) (.db context "a workspace is a root and cannot have a parent")
    require (parent ≠ id) (.db context "a node cannot parent itself")
    require (∀ row ∈ rows[parent]?,
        (kind = .tab → row.kind = .workspace) ∧ (kind = .pane → row.kind ≠ .workspace))
      (.db context "illegal parent")

def applyWorkspaceNode (rows : Rows WorkspaceNode) : Except Refusal (Rows WorkspaceNode) :=
  match command with
  | .createWorkspaceNode workspaceNodeId kind parentId sessionId => do
    let context := "create workspace node"
    let time ← timestamptz pg context event.appendedAt
    assertWorkspaceParentage context workspaceNodeId kind parentId rows
    require (kind = .pane ∨ sessionId = none) (.db context "workspace_node_session_only_on_pane")
    let rows ← rows.insertNew (primaryKey context) workspaceNodeId
      { version := event.aggregateVersion
        kind, parentId, sessionId
        createdAt := time
        updatedAt := time }
    Rows.references (.foreignKey context "parent_id") parentId rows
    return rows
  | .moveWorkspaceNode workspaceNodeId parentId _ => do
    let context := "move workspace node"
    let moved ← rows |> revise pg event context "workspace_node" workspaceNodeId fun row _ => do
      assertWorkspaceParentage context workspaceNodeId row.kind (some parentId) rows
      return { row with parentId := some parentId }
    Rows.references (.foreignKey context "parent_id") (some parentId) moved
    return moved
  | .rebindWorkspacePane workspaceNodeId sessionId _ =>
    let context := "rebind workspace pane"
    rows |> revise pg event context "workspace_node" workspaceNodeId fun row _ => do
      assertWorkspaceParentage context workspaceNodeId row.kind row.parentId rows
      require (row.kind = .pane) (.db context "workspace_node_session_only_on_pane")
      return { row with sessionId := some sessionId }
  | .closeWorkspaceNode workspaceNodeId _ => do
    require (rows.contains workspaceNodeId) (noRow "workspace_node" workspaceNodeId)
    require (∀ row ∈ rows.values, row.parentId ≠ some workspaceNodeId)
      (.foreignKey "close workspace node" "parent_id")
    return rows.erase workspaceNodeId
  | _ => .ok rows

def isSha256Hex (text : String) : Bool := Context.isSha256Hex text

def applyWorkflowRun (tasks : Rows Task) (rows : Rows WorkflowRun) :
    Except Refusal (Rows WorkflowRun) :=
  match command with
  | .openWorkflowRun workflowRunId templateRef templateSha256 taskId title => do
    let context := "open workflow run"
    let time ← timestamptz pg context event.appendedAt
    require (templateSha256.all isSha256Hex) (.db context "template_sha256")
    let rows ← rows.insertNew (primaryKey context) workflowRunId
      { version := event.aggregateVersion
        state := "running"
        step := none
        templateRef, templateSha256, taskId, title
        openedAt := time
        updatedAt := time
        closedAt := none }
    Rows.references (.foreignKey context "task_id") taskId tasks
    return rows
  | .advanceWorkflowRun workflowRunId step _ =>
    rows |> revise pg event "advance workflow run" "workflow_run" workflowRunId fun row _ =>
      .ok { row with step := some step }
  | .closeWorkflowRun workflowRunId outcome _ =>
    rows |> revise pg event "close workflow run" "workflow_run" workflowRunId fun row time =>
      .ok { row with state := outcome, closedAt := some time }
  | _ => .ok rows

def applyOrchestratorCheckpoint
    (rows : Rows OrchestratorCheckpointRow) : Except Refusal (Rows OrchestratorCheckpointRow) :=
  match command with
  | .writeOrchestratorCheckpoint checkpoint => do
    let context := "write orchestrator checkpoint"
    match checkpoint.orchestratorId with
    | none => throw (.validation "a checkpoint without an orchestrator_id has no identity")
    | some orchestratorId => do
      let updatedAt ← timestamptz pg context event.appendedAt
      require (∀ row ∈ rows[orchestratorId]?, row.checkpoint.seq < checkpoint.seq)
        (.db context "orchestrator_checkpoint seq must advance")
      return rows.insert orchestratorId { checkpoint, updatedAt }
  | _ => .ok rows

/-! ## Messages and commands -/

def applyMessage (rows : Rows Message) : Except Refusal (Rows Message) :=
  match command with
  | .sendMessage messageId correlationId replyTo sender recipient channel kind payload deadline =>
    do
    let context := "insert message"
    match event.idempotencyKey with
    | none => throw (.validation "a message needs the idempotency key that sent it")
    | some idempotencyKey => do
      let deadline ← timestamptzOpt pg context deadline
      let time ← timestamptz pg context event.appendedAt
      assertInitialVersion context event.aggregateVersion
      Rows.unique (.db context "idempotency_key") (·.idempotencyKey) idempotencyKey rows
      let rows ← rows.insertNew (primaryKey context) messageId
        { version := event.aggregateVersion
          state := .accepted
          idempotencyKey, correlationId, replyTo, sender, recipient, channel, kind, payload
          deadline
          deadLetterReason := none
          createdAt := time
          updatedAt := time }
      Rows.references (.foreignKey context "reply_to") replyTo rows
      return rows
  | .transitionMessage messageId target _ deadLetterReason =>
    rows |> revise pg event "transition message" "message" messageId fun row _ =>
      .ok { row with
        state := target
        deadLetterReason := deadLetterReason <|> row.deadLetterReason }
  | _ => .ok rows

def applyCommandRow (rows : Rows Command) : Except Refusal (Rows Command) :=
  match command with
  | .issueCommand commandId kind targets actor => do
    let context := "insert command"
    let time ← timestamptz pg context event.appendedAt
    assertInitialVersion context event.aggregateVersion
    event.idempotencyKey.forM fun key =>
      Rows.unique (.db context "idempotency_key") (·.idempotencyKey) (some key) rows
    rows.insertNew (primaryKey context) commandId
      { version := event.aggregateVersion
        state := .issued
        kind
        target := targets.head?
        actor
        idempotencyKey := event.idempotencyKey
        outcome := none
        createdAt := time
        updatedAt := time }
  | .transitionCommand commandId target _ =>
    rows |> revise pg event "transition command" "command" commandId fun row _ =>
      .ok { row with state := target }
  | .recordCommandOutcome commandId _ outcome =>
    rows |> revise pg event "record command outcome" "command" commandId fun row _ =>
      .ok { row with state := .verificationComplete, outcome := some outcome }
  | _ => .ok rows

/-! ## Gates, evidence, cost, authority and ingestion -/

def applyGate (rows : Rows Gate) : Except Refusal (Rows Gate) :=
  match command with
  | .openGate gateId attemptId phaseRef kind question options => do
    let context := "insert gate"
    let time ← timestamptz pg context event.appendedAt
    let rows ← rows.insertNew (primaryKey context) gateId
      { version := event.aggregateVersion
        attemptId, phaseRef, kind, question, options
        verdict := .pending
        chosenOption := none
        decidedBy := none
        evidenceRef := none
        createdAt := time
        updatedAt := time }
    Rows.references (.foreignKey context "attempt_id") attemptId attempts
    return rows
  | .decideGate gateId _ verdict chosenOption evidenceRef =>
    rows |> revise pg event "decide gate" "gate" gateId fun row _ =>
      .ok { row with
        verdict, chosenOption
        decidedBy := if verdict = .pending then none else some event.actor
        evidenceRef := evidenceRef <|> row.evidenceRef }
  | _ => .ok rows

def applyEvidence (rows : Rows Evidence) : Except Refusal (Rows Evidence) :=
  match command with
  | .recordEvidence evidenceId kind ref digest byteSize => do
    let context := "insert evidence"
    let createdAt ← timestamptz pg context event.appendedAt
    rows.insertNew (primaryKey context) evidenceId { kind, ref, digest, byteSize, createdAt }
  | _ => .ok rows

def applyCostEntry (engineSessions : Rows EngineSession) (dispatchNodes : Rows DispatchNode)
    (rows : Rows CostEntry) : Except Refusal (Rows CostEntry) :=
  match command with
  | .recordCostEntry costEntryId attemptId engineSessionId dispatchNodeId engine model inputTokens
      cachedInputTokens cacheWriteTokens outputTokens reasoningTokens costMicros
      costIsEstimate => do
      let context := "insert cost entry"
      let recordedAt ← timestamptz pg context event.appendedAt
      require (attemptId.isSome ∨ engineSessionId.isSome ∨ dispatchNodeId.isSome)
        (.db context "cost_entry_attributed")
      require (costIsEstimate = none ∨ costMicros.isSome)
        (.db context "cost_entry_estimate_qualifies_cost")
      let rows ← rows.insertNew (primaryKey context) costEntryId
        { attemptId, engineSessionId, dispatchNodeId, engine, model, inputTokens
          cachedInputTokens, cacheWriteTokens, outputTokens, reasoningTokens, costMicros
          costIsEstimate, recordedAt }
      Rows.references (.foreignKey context "attempt_id") attemptId attempts
      Rows.references (.foreignKey context "engine_session_id") engineSessionId engineSessions
      Rows.references (.foreignKey context "dispatch_node_id") dispatchNodeId dispatchNodes
      return rows
  | _ => .ok rows

def applyAuthorityGrant (rows : Rows AuthorityGrant) : Except Refusal (Rows AuthorityGrant) :=
  match command with
  | .grantAuthority authorityGrantId grantee actionClass scope expiresAt => do
    let context := "insert authority grant"
    let grantedAt ← timestamptz pg context event.appendedAt
    let expiresAt ← timestamptzOpt pg context expiresAt
    rows.insertNew (primaryKey context) authorityGrantId
      { grantee, actionClass, scope, grantedAt, expiresAt
        revokedAt := none
        revokeReason := none }
  | .revokeAuthority authorityGrantId reason =>
    rows.updateOne (noRow "authority_grant" authorityGrantId) authorityGrantId fun row => do
      let revokedAt ← timestamptz pg "revoke authority grant" event.appendedAt
      return { row with
        revokedAt := some revokedAt
        revokeReason := reason <|> row.revokeReason }
  | _ => .ok rows

def applyIngestedRecord (rows : Rows IngestedRecord) : Except Refusal (Rows IngestedRecord) :=
  match command with
  | .ingestRecord kind payload payloadRef => do
    let context := "insert ingested record"
    let ingestedAt ← timestamptz pg context event.appendedAt
    rows.insertNew (primaryKey context) event.aggregateId
      { kind, payload, payloadRef
        ingestedBy := event.actor
        eventSeq := event.globalSequence
        ingestedAt }
  | _ => .ok rows

/-! ## PTY sessions -/

def applyPtySession (engineSessions : Rows EngineSession)
    (rows : Rows PtySession) : Except Refusal (Rows PtySession) :=
  match command with
  | .openPtySession ptySessionId generation engineSessionId title => do
    let context := "open pty session"
    let time ← timestamptz pg context event.appendedAt
    let rows ← rows.insertNew (primaryKey context) ptySessionId
      { version := event.aggregateVersion
        state := .running
        generation, engineSessionId
        attachCount := 0
        detachCount := 0
        title
        openedAt := time
        updatedAt := time
        closedAt := none }
    Rows.references (.foreignKey context "engine_session_id") engineSessionId engineSessions
    return rows
  | .recordPtyAttach ptySessionId _ =>
    rows |> revise pg event "record pty attach" "pty_session" ptySessionId fun row _ =>
      .ok { row with attachCount := row.attachCount + 1 }
  | .recordPtyDetach ptySessionId _ =>
    rows |> revise pg event "record pty detach" "pty_session" ptySessionId fun row _ =>
      .ok { row with detachCount := row.detachCount + 1 }
  | .sendPtyInput ptySessionId generation _ =>
    rows |> revise pg event "record pty input" "pty_session"
      (ptySessionLifetimeId ptySessionId generation) fun row _ => .ok row
  | .resizePtySession ptySessionId generation _ _ =>
    rows |> revise pg event "record pty resize" "pty_session"
      (ptySessionLifetimeId ptySessionId generation) fun row _ => .ok row
  | .stopPtySession ptySessionId generation =>
    rows |> revise pg event "record pty stop" "pty_session"
      (ptySessionLifetimeId ptySessionId generation) fun row _ => .ok row
  | .closePtySession ptySessionId _ =>
    rows |> revise pg event "close pty session" "pty_session" ptySessionId fun row time =>
      .ok { row with state := .closed, closedAt := some time }
  | _ => .ok rows

def applyPtySessionTemplate (templates : Rows PtySessionTemplate) :
    Except Refusal (Rows PtySessionTemplate) :=
  match command with
  | .declarePtySessionTemplate templateName command args cwd env cols rows => do
    let context := "declare pty session template"
    let time ← timestamptz pg context event.appendedAt
    require (1 ≤ command.length ∧ command.length ≤ 4096) (.db context "command")
    require (1 ≤ cols.toNat ∧ cols.toNat ≤ 1000) (.db context "cols")
    require (1 ≤ rows.toNat ∧ rows.toNat ≤ 1000) (.db context "rows")
    require (cols.toNat * rows.toNat ≤ 100000) (.db context "pty_template_grid_cell_bound")
    templates.insertNew (primaryKey context) templateName
      { version := event.aggregateVersion
        retiredAt := none
        command, args, cwd, env, cols, rows
        declaredAt := time
        updatedAt := time }
  | .retirePtySessionTemplate templateName _ =>
    templates |> revise pg event "retire pty session template" "pty_session_template"
      templateName fun row time => .ok { row with retiredAt := some time }
  | _ => .ok templates

/-! ## Every derived table -/

/-- A command, on every table that a rebuild derives. -/
def applyDerived (tables : Derived) : Except Refusal Derived := do
  let attempt ← applyAttempt pg event command tables.task tables.lease tables.attempt
  let authorityGrant ← applyAuthorityGrant pg event command tables.authorityGrant
  let commandRows ← applyCommandRow pg event command tables.command
  let costEntry ← applyCostEntry pg event command tables.attempt tables.engineSession
    tables.dispatchNode tables.costEntry
  let dispatchNode ← applyDispatchNode pg event command tables.attempt tables.dispatchNode
  let engineSession ← applyEngineSession pg event command tables.attempt tables.engineSession
  let evidence ← applyEvidence pg event command tables.evidence
  let gate ← applyGate pg event command tables.attempt tables.gate
  let ingestedRecord ← applyIngestedRecord pg event command tables.ingestedRecord
  let lease ← applyLease pg event command tables.lease
  let message ← applyMessage pg event command tables.message
  let orchestratorCheckpoint ←
    applyOrchestratorCheckpoint pg event command tables.orchestratorCheckpoint
  let ptySession ← applyPtySession pg event command tables.engineSession tables.ptySession
  let ptySessionTemplate ← applyPtySessionTemplate pg event command tables.ptySessionTemplate
  let task ← applyTask pg event command tables.task
  let workflowRun ← applyWorkflowRun pg event command tables.task tables.workflowRun
  let workspaceNode ← applyWorkspaceNode pg event command tables.workspaceNode
  let worktree ← applyWorktree pg event command tables.lease tables.worktree
  return {
    attempt, authorityGrant
    command := commandRows
    costEntry, dispatchNode, engineSession, evidence, gate, ingestedRecord, lease, message
    orchestratorCheckpoint, ptySession, ptySessionTemplate, task, workflowRun, workspaceNode
    worktree }

/-! ## Attention -/

def AttentionItem.opens (item : AttentionItem) (kind subject : String) : Bool :=
  item.kind = kind ∧ item.subjectRef = some subject ∧ item.resolvedAt = none

/-- `unresolved_attention`: the item that covers a kind and subject.  Items about nothing in
particular never collide. -/
def unresolvedAttention (items : Rows AttentionItem) (kind : String) : Option String → Option String
  | none => none
  | some subject =>
    (items.toList.find? fun entry => entry.2.opens kind subject).map fun entry => entry.1

def applyAttention (items : Rows AttentionItem) : Except Refusal (Rows AttentionItem) :=
  match command with
  | .raiseAttention attentionItemId kind summary subjectRef raisedBy priority => do
    let context := "insert attention item"
    let raisedAt ← timestamptz pg context event.appendedAt
    require (unresolvedAttention items kind subjectRef = none)
      (.db context "attention_item_unresolved_dedup")
    items.insertNew (primaryKey context) attentionItemId
      { kind, summary, subjectRef, raisedBy, priority, raisedAt
        ackedAt := none
        mutedUntil := none
        resolvedAt := none
        resolution := none }
  | .resolveAttention attentionItemId resolution =>
    let missing := noRow "unresolved attention_item" attentionItemId
    items.updateOne missing attentionItemId fun item => do
      require (item.resolvedAt = none) missing
      let resolvedAt ← timestamptz pg "resolve attention item" event.appendedAt
      return { item with
        resolvedAt := some resolvedAt
        resolution := resolution <|> item.resolution }
  | .ackAttention attentionItemId =>
    items.updateOne (noRow "attention_item" attentionItemId) attentionItemId fun item => do
      let ackedAt ← timestamptz pg "ack attention item" event.appendedAt
      return { item with ackedAt := some ackedAt }
  | .muteAttention attentionItemId mutedUntil =>
    items.updateOne (noRow "attention_item" attentionItemId) attentionItemId fun item => do
      let mutedUntil ← timestamptz pg "mute attention item" mutedUntil
      return { item with mutedUntil := some mutedUntil }
  | .unmuteAttention attentionItemId =>
    items.updateOne (noRow "attention_item" attentionItemId) attentionItemId fun item =>
      .ok { item with mutedUntil := none }
  | _ => .ok items

/-! ## Every table -/

/-- All that the log is projected on. -/
structure Projections where
  derived : Derived
  attention : Rows AttentionItem
  context : ContextTables

def Projections.empty : Projections where
  derived := .empty
  attention := ∅
  context := .empty

/-- An event, on the tables of its family. -/
def applyEvent (tables : Projections) : Except Refusal Projections :=
  if isContextAggregate event.aggregateType then
    match event.payload with
    | .context payload => do
      require (payload.name.asStr = event.eventType)
        (.storage (s!"event {event.eventId} is typed {event.eventType} but carries " ++
          payload.name.asStr))
      let context ← projectFact pg tables.derived.attempt tables.context payload.fact
      return { tables with context }
    | _ => .error (.storage s!"event {event.eventId} payload is not a context event body")
  else
    match event.payload with
    | .command command => do
      let derived ← applyDerived pg event command tables.derived
      let attention ← applyAttention pg event command tables.attention
      return { tables with derived, attention }
    | _ => .error (.storage s!"event {event.eventId} payload is not a command body")

end Projection

/-- What the versioned tables make of an event that was applied, one table at a time. -/
structure AppliesDerived (pg : Postgres) (event : Event) (command : KernelCommand)
    (tables result : Derived) : Prop where
  attempt : applyAttempt pg event command tables.task tables.lease tables.attempt =
    .ok result.attempt
  commandRow : applyCommandRow pg event command tables.command = .ok result.command
  dispatchNode : applyDispatchNode pg event command tables.attempt tables.dispatchNode =
    .ok result.dispatchNode
  gate : applyGate pg event command tables.attempt tables.gate = .ok result.gate
  lease : applyLease pg event command tables.lease = .ok result.lease
  message : applyMessage pg event command tables.message = .ok result.message
  ptySession : applyPtySession pg event command tables.engineSession tables.ptySession =
    .ok result.ptySession
  ptySessionTemplate : applyPtySessionTemplate pg event command tables.ptySessionTemplate =
    .ok result.ptySessionTemplate
  task : applyTask pg event command tables.task = .ok result.task
  workflowRun : applyWorkflowRun pg event command tables.task tables.workflowRun =
    .ok result.workflowRun
  workspaceNode : applyWorkspaceNode pg event command tables.workspaceNode =
    .ok result.workspaceNode

theorem appliesDerived_of_eq_ok {pg : Postgres} {event : Event} {command : KernelCommand}
    {tables result : Derived} (applies : applyDerived pg event command tables = .ok result) :
    AppliesDerived pg event command tables result := by
  simp only [applyDerived, bind_ok, pure_ok] at applies
  obtain ⟨_, attempt, _, -, _, command, _, -, _, dispatchNode, _, -, _, -, _, gate, _, -, _, lease,
    _, message, _, -, _, ptySession, _, ptySessionTemplate, _, task, _, workflowRun, _,
    workspaceNode, _, -, rfl⟩ := applies
  exact ⟨attempt, command, dispatchNode, gate, lease, message, ptySession, ptySessionTemplate, task,
    workflowRun, workspaceNode⟩

/-! ## Rows without an event -/

structure ReceiptEntity where
  id : ReceiptId
  actor : Actor
  (action subjectType subjectId : String)
  observedBasis : Option String
  ts : Timestamp

def ReceiptEntity.row (receipt : ReceiptEntity) (ts : Instant) : Receipt where
  actor := receipt.actor
  action := receipt.action
  subjectType := receipt.subjectType
  subjectId := receipt.subjectId
  observedBasis := receipt.observedBasis
  ts := ts

/-- `write_receipt`: insert, or find the identical row already there. -/
def writeReceipt (pg : Postgres) (receipt : ReceiptEntity) (receipts : Rows Receipt) :
    Except Refusal (Rows Receipt) := do
  let ts ← timestamptz pg "write receipt" receipt.ts
  match receipts[receipt.id]? with
  | none => return receipts.insert receipt.id (receipt.row ts)
  | some stored => do
    require (stored = receipt.row ts) (.new .idempotencyConflict
        s!"receipt {receipt.id} already records a different authority decision")
    return receipts

section WriteReceipt

variable {pg : Postgres} {receipt : ReceiptEntity} {receipts result : Rows Receipt} {ts : Instant}

theorem writeReceipt_ok : writeReceipt pg receipt receipts = .ok result ↔
      ∃ ts, pg.instant receipt.ts = some ts ∧
        (receipts[receipt.id]? = none ∧ result = receipts.insert receipt.id (receipt.row ts) ∨
          receipts[receipt.id]? = some (receipt.row ts) ∧ result = receipts) := by
  simp only [writeReceipt, bind_ok, timestamptz_ok]
  refine exists_congr fun ts => and_congr_right fun _ => ?_
  cases hit : receipts[receipt.id]? with
  | none => simp [pure_ok]
  | some stored =>
    simp only [bind_ok, exists_unit, require_ok, pure_ok,
      Option.some.injEq, reduceCtorEq, false_and, false_or]

def Keeps (before after : Rows Receipt) : Prop :=
  ∀ (id : String) (receipt : Receipt), before[id]? = some receipt → after[id]? = some receipt

section Wrote

variable (wrote : writeReceipt pg receipt receipts = .ok result)

include wrote

theorem keeps_of_writeReceipt : Keeps receipts result := by
  obtain ⟨ts, -, ⟨free, rfl⟩ | ⟨-, rfl⟩⟩ := writeReceipt_ok.mp wrote
  · intro id stored hit
    rw [getElem?_insert_eq, if_neg, hit]
    rintro rfl
    rw [free] at hit
    cases hit
  · exact fun _ _ hit => hit

theorem getElem?_of_writeReceipt :
    ∃ ts, pg.instant receipt.ts = some ts ∧ result[receipt.id]? = some (receipt.row ts) := by
  obtain ⟨ts, dated, ⟨-, rfl⟩ | ⟨there, rfl⟩⟩ := writeReceipt_ok.mp wrote
  · exact ⟨ts, dated, by rw [getElem?_insert_eq, if_pos rfl]⟩
  · exact ⟨ts, dated, there⟩

theorem getElem?_of_ne_of_writeReceipt
    {id : String} (other : id ≠ receipt.id) : result[id]? = receipts[id]? := by
  obtain ⟨ts, -, ⟨-, rfl⟩ | ⟨-, rfl⟩⟩ := writeReceipt_ok.mp wrote
  · rw [getElem?_insert_eq, if_neg (Ne.symm other)]
  · rfl

theorem free_of_writeReceipt (dated : pg.instant receipt.ts = some ts) :
    ∀ stored ∈ receipts[receipt.id]?, stored = receipt.row ts := by
  obtain ⟨written, datedAgain, outcome⟩ := writeReceipt_ok.mp wrote
  have sameTime : ts = written := Option.some.inj (dated.symm.trans datedAgain)
  intro stored hit
  rcases outcome with ⟨free, -⟩ | ⟨there, -⟩
  · rw [free] at hit
    cases hit
  · rw [there, Option.mem_some_iff] at hit
    rw [sameTime, hit]

end Wrote

theorem writeReceipt_of_free (dated : pg.instant receipt.ts = some ts)
    (free : ∀ stored ∈ receipts[receipt.id]?, stored = receipt.row ts) :
    ∃ result, writeReceipt pg receipt receipts = .ok result ∧
      result[receipt.id]? = some (receipt.row ts) := by
  cases hit : receipts[receipt.id]? with
  | none =>
    refine ⟨_, writeReceipt_ok.mpr ⟨ts, dated, .inl ⟨hit, rfl⟩⟩, ?_⟩
    rw [getElem?_insert_eq, if_pos rfl]
  | some stored =>
    have eq : receipts[receipt.id]? = some (receipt.row ts) := by
      rw [hit, free stored hit]
    exact ⟨receipts, writeReceipt_ok.mpr ⟨ts, dated, .inr ⟨eq, rfl⟩⟩, eq⟩

end WriteReceipt

def PAGE_KIND : String := "authority"

/-- `page_attention`: join the open item about this subject, or raise one.  The conflict
target is the index over unresolved items, so a taken primary key is still an error. -/
def pageAttention (pg : Postgres) (attentionItemId summary subjectRef : String) (raisedBy : Actor)
    (time : Timestamp) (items : Rows AttentionItem) : Except Refusal (Rows AttentionItem) := do
  let context := "page attention"
  let raisedAt ← timestamptz pg context time
  if (unresolvedAttention items PAGE_KIND (some subjectRef)).isSome then
    return items
  else
    items.insertNew (primaryKey context) attentionItemId
      { kind := PAGE_KIND
        summary
        subjectRef := some subjectRef
        raisedBy := some raisedBy
        priority := none
        raisedAt
        ackedAt := none
        mutedUntil := none
        resolvedAt := none
        resolution := none }

end Gridwork.Kernel
