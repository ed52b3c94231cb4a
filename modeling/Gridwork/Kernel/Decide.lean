import Gridwork.Kernel.Route

/-!
# Deciding a command

`decide` answers the version an aggregate must be at for a command to apply, or refuses.
A create asserts that the aggregate has no events, a command that carries a version gets
a compare-and-swap against the row, and the rest take the log as it stands.
-/

namespace Gridwork.Kernel

open Domain Lib

/-! ## Rows -/

def fetch {Row : Type} (rows : Rows Row) (missing : Refusal) (id : String) : Except Refusal Row :=
  match rows[id]? with
  | none => .error missing
  | some row => .ok row

theorem fetch_ok {Row : Type} {rows : Rows Row} {missing : Refusal} {id : String}
    {row : Row} : fetch rows missing id = .ok row ↔ rows[id]? = some row := by
  cases hit : rows[id]? with
  | none | some => simp [fetch, hit]

/-- `decide_cas`: compare a versioned row against the command's version. -/
def decideCas {Row : Type} (rows : Rows Row) (version : Row → UInt32) (kind id : String)
    (expected : UInt32) : Except Refusal UInt32 := do
  let row ← fetch rows (noRow kind id) id
  require (version row = expected) (staleVersion (version row) expected)
  return version row

/-- `decide_transition`: run one transition through the domain's decision function. -/
def decideTransition {S : Type} [DecidableEq S] [TransitionGuard S] (state : S)
    (version : UInt32) (target : S) (expectedVersion : UInt32) (envelope : CommandEnvelope)
    (receiptId : Option ReceiptId) : Except Refusal UInt32 :=
  let cursor : Cursor S :=
    { state, version, appliedIdempotencyKey := none, appliedBy := none }
  let request : TransitionRequest S :=
    { target, expectedVersion, actor := envelope.actor, idempotencyKey := none, receiptId }
  match apply cursor request with
  | .applied .. => .ok version
  | .illegalEdge source target =>
    let source := StateMachine.wire source
    let target := StateMachine.wire target
    .error ((Refusal.new .illegalEdge s!"{source} -> {target}").withDetail
      (.object [("from", .string source), ("to", .string target)]))
  | .staleVersion actual expected => .error (staleVersion actual expected)
  | .unauthorizedActor reason => .error (.new .authority reason)

/-! ## The workspace tree -/

variable (nodes : Rows WorkspaceNode)

def assertLegalParent (kind : WorkspaceNodeKind) (parentId : String) :
    Except Refusal Unit := do
  let parent ← fetch nodes (.validation s!"parent workspace_node {parentId} does not exist")
    parentId
  let legal : Bool := match kind, parent.kind with
    | .tab, .workspace | .pane, .tab | .pane, .pane => true
    | _, _ => false
  require (legal = true) (.validation s!"a {kind.asStr} must not sit under a {parent.kind.asStr}")

/-- The walk from a node upward meets another node.  The fuel is the number of nodes, which
bounds a walk that does not repeat. -/
def isAncestor (nodes : Rows WorkspaceNode) (sought : String) : Nat → String → Bool
  | 0, _ => false
  | fuel + 1, id =>
    match nodes[id]? with
    | none => false
    | some node =>
      id == sought || node.parentId.any fun parent => isAncestor nodes sought fuel parent

def decideMove (id parentId : String) (expected : UInt32) :
    Except Refusal UInt32 := do
  let node ← fetch nodes (.validation s!"workspace_node {id} does not exist") id
  require (node.kind ≠ .workspace)
    (.validation "a workspace is a root and cannot be moved under a parent")
  assertLegalParent nodes node.kind parentId
  require (isAncestor nodes id (nodes.size + 1) parentId = false)
    (.validation s!"moving {id} under {parentId} would make it its own ancestor")
  decideCas nodes (·.version) "workspace_node" id expected

def decideRebind (id : String) (expected : UInt32) :
    Except Refusal UInt32 := do
  let node ← fetch nodes (.validation s!"workspace_node {id} does not exist") id
  require (node.kind = .pane)
    (.validation s!"a {node.kind.asStr} carries no session binding — only a pane does")
  decideCas nodes (·.version) "workspace_node" id expected

def decideClose (id : String) (expected : UInt32) :
    Except Refusal UInt32 := do
  require (∀ node ∈ nodes.values, node.parentId ≠ some id)
    (.validation s!"workspace_node {id} still has children — close them first")
  decideCas nodes (·.version) "workspace_node" id expected

/-! ## Runs, sessions and templates -/

def decideWorkflowRun (runs : Rows WorkflowRun) (id : String) (expected : UInt32) :
    Except Refusal UInt32 := do
  let run ← fetch runs (noRow "workflow_run" id) id
  require (run.state = "running") (.validation s!"workflow_run {id} already closed as {run.state}")
  decideCas runs (·.version) "workflow_run" id expected

def PtySessionState.asStr : PtySessionState → String
  | .running => "running"
  | .stopping => "stopping"
  | .closed => "closed"

def decidePtySession (sessions : Rows PtySession) (admits : PtySessionState → Bool)
    (refused : PtySessionState → Refusal) (id : String) (expected : UInt32) :
    Except Refusal UInt32 := do
  let session ← fetch sessions (noRow "pty_session" id) id
  require (admits session.state = true) (refused session.state)
  decideCas sessions (·.version) "pty_session" id expected

/-- A control of a session lifetime: guarded by the generation, not by a version. -/
def decidePtyControl (sessions : Rows PtySession) (admits : PtySessionState → Bool)
    (lifetime id generation : String) : Except Refusal UInt32 := do
  let session ← fetch sessions (.notFound s!"no live pty_session {id}:{generation}") lifetime
  let stale : Refusal :=
    (Refusal.new .staleVersion (s!"pty session {id}:{generation} is stale; ledger state is " ++
      s!"{session.state.asStr} under generation {session.generation}")).withDetail
      (.object [("presented_generation", .string generation),
        ("stored_generation", .string session.generation),
        ("state", .string session.state.asStr)])
  require (session.generation = generation ∧ admits session.state = true) stale
  return session.version

theorem decidePtyControl_ok {sessions : Rows PtySession} {admits : PtySessionState → Bool}
    {lifetime id generation : String} {version : UInt32} :
    decidePtyControl sessions admits lifetime id generation = .ok version ↔
      ∃ session, sessions[lifetime]? = some session ∧
        (session.generation = generation ∧ admits session.state = true) ∧
        version = session.version := by
  simp only [decidePtyControl, bind_ok, exists_unit, fetch_ok, require_ok, pure_ok]

def activeTemplate (templates : Rows PtySessionTemplate) (name : String) (retired : Refusal) :
    Except Refusal PtySessionTemplate := do
  let template ← fetch templates (noRow "pty_session_template" name) name
  require (template.active = true) retired
  return template

def checkpointAdvances (rows : Rows OrchestratorCheckpointRow) (orchestratorId : String)
    (checkpoint : OrchestratorCheckpoint) : Except Refusal Unit :=
  rows[orchestratorId]?.forM fun row =>
    let current := row.checkpoint.seq
    require (current < checkpoint.seq)
      ((Refusal.new .staleVersion
        s!"checkpoint seq must advance past {current} (got {checkpoint.seq})").withDetail
        (.object [("actual", .string (toString current)),
          ("presented", .string (toString checkpoint.seq))]))

/-! ## The decision -/

def decide (db : Db) (envelope : CommandEnvelope) (command : KernelCommand) (route : Route) :
    Except Refusal UInt32 :=
  let tables := db.tables.derived
  let id := route.aggregateId
  let current := currentAggregateVersion db.events route.aggregateType id
  match command with
  | .activateKernel .. => .ok 1
  | .createWorkspaceNode _ kind parentId _ => do
    parentId.forM (assertLegalParent tables.workspaceNode kind)
    return 0
  | .moveWorkspaceNode nodeId parentId expected =>
    decideMove tables.workspaceNode nodeId parentId expected
  | .rebindWorkspacePane nodeId _ expected => decideRebind tables.workspaceNode nodeId expected
  | .closeWorkspaceNode nodeId expected => decideClose tables.workspaceNode nodeId expected
  | .createTask .. | .createAttempt .. | .openEngineSession .. | .acquireLease ..
  | .registerWorktree .. | .registerDispatchNode .. | .sendMessage .. | .issueCommand ..
  | .openGate .. | .recordEvidence .. | .recordCostEntry .. | .openWorkflowRun ..
  | .openPtySession .. | .declarePtySessionTemplate .. | .grantAuthority ..
  | .raiseAttention .. => .ok 0
  | .advanceWorkflowRun runId _ expected | .closeWorkflowRun runId _ expected =>
    decideWorkflowRun tables.workflowRun runId expected
  | .recordPtyAttach sessionId expected =>
    decidePtySession tables.ptySession (· == .running)
      (fun state => .validation s!"pty_session {sessionId} is {state.asStr} and cannot be attached")
      sessionId expected
  | .closePtySession sessionId expected =>
    decidePtySession tables.ptySession (fun state => state == .running || state == .stopping)
      (fun state => .validation s!"pty_session {sessionId} already closed as {state.asStr}")
      sessionId expected
  | .recordPtyDetach sessionId expected =>
    -- A detach is history even on a closed row; only existence is required.
    decidePtySession tables.ptySession (fun _ => true) (fun _ => noRow "pty_session" sessionId)
      sessionId expected
  | .sendPtyInput sessionId generation _ | .resizePtySession sessionId generation _ _ =>
    decidePtyControl tables.ptySession (· == .running) id sessionId generation
  | .stopPtySession sessionId generation =>
    decidePtyControl tables.ptySession (fun state => state == .running || state == .stopping) id
      sessionId generation
  | .retirePtySessionTemplate name expected => do
    let _ ← activeTemplate tables.ptySessionTemplate name
      (.validation s!"pty_session_template {name} already retired")
    decideCas tables.ptySessionTemplate (·.version) "pty_session_template" name expected
  | .requestPtySessionStart name _ => do
    let _ ← activeTemplate tables.ptySessionTemplate name
      (.validation s!"pty_session_template {name} is retired")
    return 0
  | .revokeAuthority .. | .resolveAttention .. | .ackAttention .. | .muteAttention ..
  | .unmuteAttention .. => .ok current
  | .transitionTask _ target expected => do
    let row ← fetch tables.task (noRow "task" id) id
    decideTransition row.state row.version target expected envelope none
  | .transitionAttempt _ target expected receiptId => do
    let row ← fetch tables.attempt (noRow "attempt" id) id
    decideTransition row.state row.version target expected envelope receiptId
  | .transitionMessage _ target expected _ => do
    let row ← fetch tables.message (noRow "message" id) id
    decideTransition row.state row.version target expected envelope none
  | .transitionCommand _ target expected => do
    require (target ≠ .verificationComplete)
      (.validation ("a command reaches verification_complete by recording its outcome, which is " ++
        "the same write"))
    let row ← fetch tables.command (noRow "command" id) id
    decideTransition row.state row.version target expected envelope none
  | .recordCommandOutcome _ expected _ => do
    let row ← fetch tables.command (noRow "command" id) id
    decideTransition row.state row.version .verificationComplete expected envelope none
  | .decideGate _ expected .. => decideCas tables.gate (·.version) "gate" id expected
  | .updateBudget _ expected _ | .recordAttemptRuntime _ expected ..
  | .recordAttemptOutcome _ expected .. =>
    decideCas tables.attempt (·.version) "attempt" id expected
  | .renewLease _ expected _ | .releaseLease _ expected _ | .expireLease _ expected =>
    decideCas tables.lease (·.version) "lease" id expected
  | .transitionDispatchNode _ _ expected =>
    decideCas tables.dispatchNode (·.version) "dispatch_node" id expected
  | .writeOrchestratorCheckpoint checkpoint => do
    checkpointAdvances tables.orchestratorCheckpoint id checkpoint
    return current
  | .closeEngineSession .. | .updateWorktree .. | .releaseWorktree .. | .recordRound ..
  | .recordFinding .. | .ingestRecord .. => .ok current

end Gridwork.Kernel
