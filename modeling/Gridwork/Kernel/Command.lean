import Gridwork.Domain.Transition

/-!
# The kernel command set

Every mutation the kernel accepts.  A command travels as the payload of a command
envelope; the envelope's `command_type` and the body's own tag must agree.

The body is modelled as the typed value serde decodes it to.  What the model relies on
is that serde's encoding of a command reads back as that command, so that comparing two
encoded bodies is comparing the commands.  Two commands carry a free JSON value:
`send_message` and `ingest_record`.
-/

namespace Gridwork.Kernel

open Domain

/-! ## Vocabulary -/

inductive LeaseMode where
  | exclusive | shared
  deriving DecidableEq

inductive GateVerdict where
  | pending | pass | fail | partly
  deriving DecidableEq

inductive WorkspaceNodeKind where
  | workspace | tab | pane
  deriving DecidableEq

def WorkspaceNodeKind.asStr : WorkspaceNodeKind → String
  | .workspace => "workspace"
  | .tab => "tab"
  | .pane => "pane"

inductive IngestionKind where
  | memory | knowledge | graphSnapshot | evalVerdict | insight | cost | health | session | config
  | checkpoint | round | finding
  deriving DecidableEq

inductive FindingAction where
  | autoFix | askUser | noOp
  deriving DecidableEq

structure Budget where
  (maxTokens maxToolCalls maxWallMs : Option UInt32)
  maxCostMicros : Option UInt64
  deriving DecidableEq

structure RoundFindingSummary where
  (total autoFix askUser noOp : UInt32)
  deriving DecidableEq

structure OpenAttemptRef where
  (attemptId taskId state engine : String)
  worktreeLeaseId : Option String
  deriving DecidableEq

structure LeaseSnapshot where
  leaseId : String
  (scope holder : Option String)
  expiresAt : Option Timestamp
  deriving DecidableEq

structure PendingApproval where
  (kind question : String)
  subjectRef : Option String
  raisedAt : Timestamp
  deriving DecidableEq

structure BudgetCursor where
  (spentTokens spentToolCalls : Option UInt32)
  spentCostMicros : Option UInt64
  windowStartedAt : Option Timestamp
  deriving DecidableEq

structure OrchestratorCheckpoint where
  orchestratorId : Option String
  seq : Seq
  (nativeSessionRef activeGoal activeStepRef : Option String)
  latestCommandRef : Option CommandId
  openAttempts : Option (List OpenAttemptRef)
  leases : Option (List LeaseSnapshot)
  pendingApprovals : Option (List PendingApproval)
  budgetCursor : Option BudgetCursor
  deriving DecidableEq

/-! ## Commands -/

/-- `KernelCommand`. -/
inductive KernelCommand where
  | activateKernel (cutoverId archiveManifestSha256 : String)
  | createTask (taskId : String) (kind title specRef project : Option String)
      (priority : Option Int) (trackerRef : Option String)
  | transitionTask (taskId : String) (target : TaskState) (expectedVersion : UInt32)
  | updateBudget (attemptId : String) (expectedVersion : UInt32) (budget : Budget)
  | createAttempt (attemptId taskId engine : String)
      (capability role modelLane permissionProfile worktreeLeaseId baseSha : Option String)
      (budget : Option Budget)
  | transitionAttempt (attemptId : String) (target : AttemptState) (expectedVersion : UInt32)
      (receiptId : Option ReceiptId)
  | recordAttemptRuntime (attemptId : String) (expectedVersion : UInt32) (runtimeRef : String)
      (runtimeStartedAt : Timestamp)
  | recordAttemptOutcome (attemptId : String) (expectedVersion : UInt32) (exitCode : Option Int)
      (providerTerminalEvent : Option String) (resultValid : Option Bool)
      (evidenceManifestRef : Option String)
  | openEngineSession (engineSessionId attemptId engine : String)
      (providerSessionRef : Option String)
  | closeEngineSession (engineSessionId : String)
  | sendMessage (messageId : String)
      (correlationId replyTo sender recipient channel kind : Option String)
      (payload : Option Json) (deadline : Option Timestamp)
  | transitionMessage (messageId : String) (target : MessageState) (expectedVersion : UInt32)
      (deadLetterReason : Option String)
  | issueCommand (commandId kind : String) (targets : List String) (actor : Option Actor)
  | transitionCommand (commandId : String) (target : CommandState) (expectedVersion : UInt32)
  | recordCommandOutcome (commandId : String) (expectedVersion : UInt32) (outcome : Outcome)
  | acquireLease (leaseId : String) (mode : LeaseMode)
      (holder scope repo path branch baseSha : Option String) (expiresAt : Option Timestamp)
  | renewLease (leaseId : String) (expectedVersion : UInt32) (expiresAt : Option Timestamp)
  | releaseLease (leaseId : String) (expectedVersion : UInt32) (disposition : Option String)
  | expireLease (leaseId : String) (expectedVersion : UInt32)
  | openGate (gateId : String) (attemptId phaseRef kind question : Option String)
      (options : Option (List String))
  | decideGate (gateId : String) (expectedVersion : UInt32) (verdict : GateVerdict)
      (chosenOption evidenceRef : Option String)
  | grantAuthority (authorityGrantId : String) (grantee : Actor) (actionClass : String)
      (scope : Option String) (expiresAt : Option Timestamp)
  | revokeAuthority (authorityGrantId : String) (reason : Option String)
  | raiseAttention (attentionItemId kind summary : String) (subjectRef : Option String)
      (raisedBy : Option Actor) (priority : Option Int)
  | resolveAttention (attentionItemId : String) (resolution : Option String)
  | ackAttention (attentionItemId : String)
  | muteAttention (attentionItemId : String) (mutedUntil : Timestamp)
  | unmuteAttention (attentionItemId : String)
  | recordEvidence (evidenceId kind ref : String) (digest : Option String)
      (byteSize : Option ByteCount)
  | recordCostEntry (costEntryId : String)
      (attemptId engineSessionId dispatchNodeId : Option String) (engine : String)
      (model : Option String)
      (inputTokens cachedInputTokens cacheWriteTokens outputTokens reasoningTokens : Option UInt64)
      (costMicros : Option UInt64) (costIsEstimate : Option Bool)
  | registerWorktree (worktreeId repo path branch : String) (baseSha leaseId : Option String)
  | updateWorktree (worktreeId : String) (dirty unpushed : Bool) (baseSha : Option String)
  | releaseWorktree (worktreeId : String) (disposition : Option String)
  | createWorkspaceNode (workspaceNodeId : String) (kind : WorkspaceNodeKind)
      (parentId sessionId : Option String)
  | moveWorkspaceNode (workspaceNodeId parentId : String) (expectedVersion : UInt32)
  | rebindWorkspacePane (workspaceNodeId sessionId : String) (expectedVersion : UInt32)
  | closeWorkspaceNode (workspaceNodeId : String) (expectedVersion : UInt32)
  | openWorkflowRun (workflowRunId templateRef : String)
      (templateSha256 taskId title : Option String)
  | advanceWorkflowRun (workflowRunId step : String) (expectedVersion : UInt32)
  | closeWorkflowRun (workflowRunId outcome : String) (expectedVersion : UInt32)
  | openPtySession (ptySessionId generation : String) (engineSessionId title : Option String)
  | recordPtyAttach (ptySessionId : String) (expectedVersion : UInt32)
  | recordPtyDetach (ptySessionId : String) (expectedVersion : UInt32)
  | sendPtyInput (ptySessionId generation : String) (byteCount : ByteCount)
  | resizePtySession (ptySessionId generation : String) (cols rows : UInt16)
  | stopPtySession (ptySessionId generation : String)
  | closePtySession (ptySessionId : String) (expectedVersion : UInt32)
  | declarePtySessionTemplate (templateName command : String) (args : List String)
      (cwd : Option String) (env : List (String × String)) (cols rows : UInt16)
  | retirePtySessionTemplate (templateName : String) (expectedVersion : UInt32)
  | requestPtySessionStart (templateName ptySessionId : String)
  | registerDispatchNode (dispatchNodeId : String) (parentId attemptId : Option String)
      (kind : String) (label : Option String)
  | transitionDispatchNode (dispatchNodeId target : String) (expectedVersion : UInt32)
  | writeOrchestratorCheckpoint (checkpoint : OrchestratorCheckpoint)
  | recordRound (attemptId : String) (round : UInt32) (findings : RoundFindingSummary)
  | recordFinding (attemptId : String) (round : UInt32) (action : FindingAction)
      (summary : String) (subjectRef : Option String)
  | ingestRecord (kind : IngestionKind) (payload : Json) (payloadRef : Option PayloadRef)
  deriving DecidableEq

namespace KernelCommand

def commandType : KernelCommand → String
  | activateKernel .. => "activate_kernel"
  | createTask .. => "create_task"
  | transitionTask .. => "transition_task"
  | updateBudget .. => "update_budget"
  | createAttempt .. => "create_attempt"
  | transitionAttempt .. => "transition_attempt"
  | recordAttemptRuntime .. => "record_attempt_runtime"
  | recordAttemptOutcome .. => "record_attempt_outcome"
  | openEngineSession .. => "open_engine_session"
  | closeEngineSession .. => "close_engine_session"
  | sendMessage .. => "send_message"
  | transitionMessage .. => "transition_message"
  | issueCommand .. => "issue_command"
  | transitionCommand .. => "transition_command"
  | recordCommandOutcome .. => "record_command_outcome"
  | acquireLease .. => "acquire_lease"
  | renewLease .. => "renew_lease"
  | releaseLease .. => "release_lease"
  | expireLease .. => "expire_lease"
  | openGate .. => "open_gate"
  | decideGate .. => "decide_gate"
  | grantAuthority .. => "grant_authority"
  | revokeAuthority .. => "revoke_authority"
  | raiseAttention .. => "raise_attention"
  | resolveAttention .. => "resolve_attention"
  | ackAttention .. => "ack_attention"
  | muteAttention .. => "mute_attention"
  | unmuteAttention .. => "unmute_attention"
  | recordEvidence .. => "record_evidence"
  | recordCostEntry .. => "record_cost_entry"
  | registerWorktree .. => "register_worktree"
  | updateWorktree .. => "update_worktree"
  | releaseWorktree .. => "release_worktree"
  | createWorkspaceNode .. => "create_workspace_node"
  | moveWorkspaceNode .. => "move_workspace_node"
  | rebindWorkspacePane .. => "rebind_workspace_pane"
  | closeWorkspaceNode .. => "close_workspace_node"
  | openWorkflowRun .. => "open_workflow_run"
  | advanceWorkflowRun .. => "advance_workflow_run"
  | closeWorkflowRun .. => "close_workflow_run"
  | openPtySession .. => "open_pty_session"
  | recordPtyAttach .. => "record_pty_attach"
  | recordPtyDetach .. => "record_pty_detach"
  | sendPtyInput .. => "send_pty_input"
  | resizePtySession .. => "resize_pty_session"
  | stopPtySession .. => "stop_pty_session"
  | closePtySession .. => "close_pty_session"
  | declarePtySessionTemplate .. => "declare_pty_session_template"
  | retirePtySessionTemplate .. => "retire_pty_session_template"
  | requestPtySessionStart .. => "request_pty_session_start"
  | registerDispatchNode .. => "register_dispatch_node"
  | transitionDispatchNode .. => "transition_dispatch_node"
  | writeOrchestratorCheckpoint .. => "write_orchestrator_checkpoint"
  | recordRound .. => "record_round"
  | recordFinding .. => "record_finding"
  | ingestRecord .. => "ingest_record"

end KernelCommand

/-! ## Envelopes -/

/-- A command envelope.  `payload` is what serde decodes the JSON payload to, or its
complaint. -/
structure CommandEnvelope where
  commandId : CommandId
  projectId : ProjectId
  commandType : String
  schemaVersion : UInt32
  issuedAt : Timestamp
  actor : Actor
  origin : Origin
  targetAggregateType : Option String
  targetAggregateId : Option AggregateId
  expectedVersion : Option UInt32
  idempotencyKey : IdempotencyKey
  causationId : Option EventId
  correlationId : Option CorrelationId
  payload : Except String KernelCommand

inductive CommandDecodeError where
  | typeMismatch (declared body : String)
  | malformedPayload (reason : String)

instance : ToString CommandDecodeError where
  toString
    | .typeMismatch declared body =>
      s!"envelope command_type {declared} does not match command body type {body}"
    | .malformedPayload reason => s!"malformed command payload: {reason}"

/-- The command of an envelope whose declared type is its own. -/
def KernelCommand.fromEnvelope (envelope : CommandEnvelope) :
    Except CommandDecodeError KernelCommand :=
  match envelope.payload with
  | .error reason => .error (.malformedPayload reason)
  | .ok command =>
    if envelope.commandType = command.commandType then .ok command
    else .error (.typeMismatch envelope.commandType command.commandType)

def ptySessionLifetimeId (id generation : String) : String :=
  s!"{id}:{generation}"

end Gridwork.Kernel
