import Gridwork.Kernel.Authority
import Gridwork.Lib.Text

/-!
# Routing and the stateless checks

What the kernel asks of a command before it opens a transaction: the envelope must
decode, the body must address an aggregate it may address, and the envelope's own routing
metadata must agree with it.  `preflight` runs these checks in the order the source does
and answers the request the transaction works on.
-/

namespace Gridwork.Kernel

open Domain Lib

/-! ## Text -/

def isWhitespace (c : Char) : Bool :=
  let code := c.toNat
  (9 ≤ code ∧ code ≤ 13) ∨ code = 0x20 ∨ code = 0x85 ∨ code = 0xA0 ∨ code = 0x1680 ∨
    (0x2000 ≤ code ∧ code ≤ 0x200A) ∨ code = 0x2028 ∨ code = 0x2029 ∨ code = 0x202F ∨
    code = 0x205F ∨ code = 0x3000

def trim (text : String) : String :=
  .ofList (((text.toList.dropWhile isWhitespace).reverse.dropWhile isWhitespace).reverse)

def isAsciiAlphanumeric (c : Char) : Bool := c.isAlphanum

/-! ## PTY shapes -/

def validatePtyGrid (cols rows : UInt16) (subject : String) : Except Refusal Unit :=
  require (ptyGridDimensionsAreBounded cols rows)
    (.validation (s!"{subject} requires non-zero dimensions no larger than {PTY_GRID_MAX_AXIS} " ++
      s!"per axis and {PTY_GRID_MAX_CELLS} cells; got {cols}x{rows}"))

def validEnvironmentName (name : List Char) : Bool :=
  match name with
  | [] => false
  | first :: rest =>
    (first.isAlpha || first == '_') && rest.all (fun c => isAsciiAlphanumeric c || c == '_') &&
      name.length ≤ 256

def isEnvironmentReference (value : String) : Bool :=
  match value.toList with
  | 'e' :: 'n' :: 'v' :: ':' :: name => validEnvironmentName name
  | _ => false

def boundedNonNul (limit : Nat) (text : String) : Bool :=
  text.utf8ByteSize ≤ limit && !text.toList.contains (Char.ofNat 0)

def validatePtyTemplate (name command : String) (args : List String) (cwd : Option String)
    (env : List (String × String)) (cols rows : UInt16) : Except Refusal Unit := do
  let trimmed := trim name
  require (trimmed.isEmpty = false ∧ trimmed.utf8ByteSize ≤ 128 ∧
      trimmed.toList.all fun c => isAsciiAlphanumeric c || c == '-' || c == '_' || c == '.')
    (.validation "a PTY template name must be 1..=128 ASCII letters, digits, '-', '_', or '.'")
  require ((trim command).isEmpty = false ∧ boundedNonNul 4096 command)
    (.validation "a PTY template requires one bounded non-NUL command")
  require (args.length ≤ 256 ∧ args.all (boundedNonNul 16384))
    (.validation "PTY template arguments exceed their bounded non-NUL shape")
  require (cwd.all fun cwd => !cwd.isEmpty && boundedNonNul 4096 cwd)
    (.validation "a PTY template cwd must be bounded and non-NUL")
  require (env.length ≤ 256 ∧ env.all fun (key, value) =>
      !key.isEmpty && !key.toList.contains '=' && boundedNonNul 16384 key &&
        boundedNonNul 16384 value)
    (.validation "PTY template environment exceeds its bounded non-NUL shape")
  require (env.all fun (_, value) => isEnvironmentReference value)
    (.validation ("PTY template environment values must be env:NAME references, not persisted " ++
      "values — note that command, args, and cwd are persisted verbatim and unredactably, " ++
      "so a credential must travel as an env:NAME reference, never as an argument"))
  validatePtyGrid cols rows "a PTY template"

/-! ## Routes -/

/-- Where a command's event belongs and what it is called there. -/
structure Route where
  aggregateType : String
  aggregateId : AggregateId
  eventType : String

namespace KernelCommand

/-- The aggregate family a command addresses, and the event it produces there. -/
def address : KernelCommand → String × String
  | activateKernel .. => (KERNEL_AGGREGATE, ACTIVATION_EVENT_TYPE)
  | createTask .. => ("task", "task_created")
  | transitionTask .. => ("task", "task_transitioned")
  | createAttempt .. => ("attempt", "attempt_created")
  | transitionAttempt .. => ("attempt", "attempt_transitioned")
  | recordAttemptRuntime .. => ("attempt", "attempt_runtime_recorded")
  | recordAttemptOutcome .. => ("attempt", "attempt_outcome_recorded")
  | updateBudget .. => ("attempt", "budget_updated")
  | recordRound .. => ("attempt", "round_recorded")
  | recordFinding .. => ("attempt", "finding_recorded")
  | openEngineSession .. => ("engine_session", "engine_session_opened")
  | closeEngineSession .. => ("engine_session", "engine_session_closed")
  | acquireLease .. => ("lease", "lease_acquired")
  | renewLease .. => ("lease", "lease_renewed")
  | releaseLease .. => ("lease", "lease_released")
  | expireLease .. => ("lease", "lease_expired")
  | registerWorktree .. => ("worktree", "worktree_registered")
  | updateWorktree .. => ("worktree", "worktree_updated")
  | releaseWorktree .. => ("worktree", "worktree_released")
  | createWorkspaceNode .. => ("workspace_node", "workspace_node_created")
  | moveWorkspaceNode .. => ("workspace_node", "workspace_node_moved")
  | rebindWorkspacePane .. => ("workspace_node", "workspace_pane_rebound")
  | closeWorkspaceNode .. => ("workspace_node", "workspace_node_closed")
  | openWorkflowRun .. => ("workflow_run", "workflow_run_opened")
  | advanceWorkflowRun .. => ("workflow_run", "workflow_run_advanced")
  | closeWorkflowRun .. => ("workflow_run", "workflow_run_closed")
  | openPtySession .. => ("pty_session", "pty_session_opened")
  | recordPtyAttach .. => ("pty_session", "pty_attach_recorded")
  | recordPtyDetach .. => ("pty_session", "pty_detach_recorded")
  | sendPtyInput .. => ("pty_session", "pty_input_requested")
  | resizePtySession .. => ("pty_session", "pty_resize_requested")
  | stopPtySession .. => ("pty_session", "pty_stop_requested")
  | closePtySession .. => ("pty_session", "pty_session_closed")
  | declarePtySessionTemplate .. => ("pty_session_template", "pty_session_template_declared")
  | retirePtySessionTemplate .. => ("pty_session_template", "pty_session_template_retired")
  | requestPtySessionStart .. => ("pty_session_start", "pty_session_start_requested")
  | registerDispatchNode .. => ("dispatch_node", "dispatch_node_registered")
  | transitionDispatchNode .. => ("dispatch_node", "dispatch_node_transitioned")
  | sendMessage .. => ("message", "message_sent")
  | transitionMessage .. => ("message", "message_transitioned")
  | issueCommand .. => ("command", "command_issued")
  | transitionCommand .. => ("command", "command_transitioned")
  | recordCommandOutcome .. => ("command", "command_outcome_recorded")
  | openGate .. => ("gate", "gate_opened")
  | decideGate .. => ("gate", "gate_decided")
  | recordEvidence .. => ("evidence", "evidence_recorded")
  | recordCostEntry .. => ("cost_entry", "cost_entry_recorded")
  | grantAuthority .. => ("authority_grant", "authority_granted")
  | revokeAuthority .. => ("authority_grant", "authority_revoked")
  | raiseAttention .. => ("attention_item", "attention_raised")
  | resolveAttention .. => ("attention_item", "attention_resolved")
  | ackAttention .. => ("attention_item", "attention_acked")
  | muteAttention .. => ("attention_item", "attention_muted")
  | unmuteAttention .. => ("attention_item", "attention_unmuted")
  | writeOrchestratorCheckpoint .. => ("orchestrator_checkpoint", "orchestrator_checkpoint_written")
  | ingestRecord .. => ("ingested_record", "record_ingested")

/-- The aggregate id a command addresses; an anonymous checkpoint has none. -/
def targetId (envelope : CommandEnvelope) : KernelCommand → Option AggregateId
  | activateKernel .. => some KERNEL_SINGLETON
  | createTask id .. | transitionTask id .. => some id
  | createAttempt id .. | transitionAttempt id .. | recordAttemptRuntime id ..
  | recordAttemptOutcome id .. | updateBudget id .. | recordRound id .. | recordFinding id .. =>
    some id
  | openEngineSession id .. | closeEngineSession id => some id
  | acquireLease id .. | renewLease id .. | releaseLease id .. | expireLease id .. => some id
  | registerWorktree id .. | updateWorktree id .. | releaseWorktree id .. => some id
  | createWorkspaceNode id .. | moveWorkspaceNode id .. | rebindWorkspacePane id ..
  | closeWorkspaceNode id .. => some id
  | openWorkflowRun id .. | advanceWorkflowRun id .. | closeWorkflowRun id .. => some id
  | openPtySession id .. | recordPtyAttach id .. | recordPtyDetach id .. | closePtySession id .. =>
    some id
  | sendPtyInput id generation _ | resizePtySession id generation _ _
  | stopPtySession id generation => some (ptySessionLifetimeId id generation)
  | declarePtySessionTemplate name .. | retirePtySessionTemplate name _ => some name
  | requestPtySessionStart _ id => some s!"{id}:{envelope.commandId}"
  | registerDispatchNode id .. | transitionDispatchNode id .. => some id
  | sendMessage id .. | transitionMessage id .. => some id
  | issueCommand id .. | transitionCommand id .. | recordCommandOutcome id .. => some id
  | openGate id .. | decideGate id .. => some id
  | recordEvidence id .. => some id
  | recordCostEntry id .. => some id
  | grantAuthority id .. | revokeAuthority id .. => some id
  | raiseAttention id .. | resolveAttention id .. | ackAttention id | muteAttention id ..
  | unmuteAttention id => some id
  | writeOrchestratorCheckpoint checkpoint => checkpoint.orchestratorId
  | ingestRecord .. => some s!"ingest:{envelope.projectId}:{envelope.idempotencyKey}"

def checkShape : KernelCommand → Except Refusal Unit
  | createWorkspaceNode id kind parentId sessionId => do
    require (sessionId = none ∨ kind = .pane)
      (.validation s!"a {kind.asStr} carries no session binding — only a pane does")
    require (kind = .workspace → parentId = none)
      (.validation "a workspace is a root and cannot have a parent")
    require (kind ≠ .workspace → parentId.isSome)
      (.validation s!"a {kind.asStr} must sit under a parent")
    require (parentId ≠ some id) (.validation "a node cannot parent itself")
  | moveWorkspaceNode id parentId _ =>
    require (parentId ≠ id) (.validation "a node cannot parent itself")
  | openWorkflowRun _ templateRef templateSha256 .. => do
    require ((trim templateRef).isEmpty = false)
      (.validation "a workflow run must name the template it follows")
    require (templateSha256.all isSha256Hex)
      (.validation "template_sha256 must be 64 lowercase hex characters")
  | advanceWorkflowRun _ step _ =>
    require ((trim step).isEmpty = false) (.validation "a workflow run advances to a named step")
  | closeWorkflowRun _ outcome _ =>
    require (outcome ∈ ["completed", "failed", "canceled"])
      (.validation ("a workflow run closes as completed, failed, or canceled — not " ++
        debugStr outcome))
  | openPtySession _ generation .. =>
    require ((trim generation).isEmpty = false)
      (.validation "a pty session opens under a named host generation")
  | resizePtySession _ _ cols rows => validatePtyGrid cols rows "a PTY resize"
  | declarePtySessionTemplate name command args cwd env cols rows =>
    validatePtyTemplate name command args cwd env cols rows
  | requestPtySessionStart name _ =>
    require ((trim name).isEmpty = false) (.validation "a PTY start names no template")
  | recordCostEntry _ attemptId engineSessionId dispatchNodeId .. =>
    require (attemptId.isSome ∨ engineSessionId.isSome ∨ dispatchNodeId.isSome)
      (.validation ("a cost entry that names no attempt, engine session, or dispatch node " ++
        "accrues to nothing"))
  | _ => .ok ()

/-- The four controls that are delivered to a PTY host, and receipted whatever comes of
them. -/
def receiptedPty : KernelCommand → Bool
  | sendPtyInput .. | resizePtySession .. | stopPtySession .. | requestPtySessionStart .. => true
  | _ => false

def isPtyInput : KernelCommand → Bool
  | sendPtyInput .. => true
  | _ => false

end KernelCommand

def namedRoute (command : KernelCommand) (aggregateId : AggregateId) : Except Refusal Route := do
  require (aggregateId.isEmpty = false)
    (.validation s!"{command.commandType} names an empty {command.address.1} id")
  return { aggregateType := command.address.1, aggregateId, eventType := command.address.2 }

def routeOf (envelope : CommandEnvelope) (command : KernelCommand) : Except Refusal Route := do
  command.checkShape
  match command.targetId envelope with
  | none => throw (.validation "a checkpoint without an orchestrator_id has no identity")
  | some aggregateId => namedRoute command aggregateId

/-- `check_routing`: the envelope's routing metadata names the aggregate its body does. -/
def checkRouting (envelope : CommandEnvelope) (route : Route) : Except Refusal Unit := do
  let mismatch (field declared : String) : Refusal :=
    .validation (s!"envelope {field} {debugStr declared} does not name the aggregate the body " ++
      s!"addresses ({route.aggregateType}/{route.aggregateId})")
  envelope.targetAggregateType.forM fun declared =>
    require (declared = route.aggregateType) (mismatch "target_aggregate_type" declared)
  envelope.targetAggregateId.forM fun declared =>
    require (declared = route.aggregateId) (mismatch "target_aggregate_id" declared)

def checkBodyProject (envelope : CommandEnvelope) : KernelCommand → Except Refusal Unit
  | .createTask _ _ _ _ (some project) _ _ =>
    require (project = envelope.projectId)
      (.validation (s!"body project {debugStr project} does not name the envelope's project " ++
        debugStr envelope.projectId))
  | _ => .ok ()

def checkActivation (envelope : CommandEnvelope) : KernelCommand → Except Refusal Unit
  | .activateKernel cutoverId archiveManifestSha256 => do
    require (cutoverId.isEmpty = false)
      (.validation "an activation with an empty cutover id names no cutover")
    require (isSha256Hex archiveManifestSha256)
      (.validation ("archive_manifest_sha256 must be a lowercase 64-hex digest, not " ++
        debugStr archiveManifestSha256))
    require (envelope.idempotencyKey = activationKey cutoverId)
      (.validation (s!"activating cutover {debugStr cutoverId} requires idempotency key " ++
        s!"{debugStr (activationKey cutoverId)}, not {debugStr envelope.idempotencyKey}"))
  | _ => .ok ()

/-- `check_authority_admin`: authority administration is an operator act. -/
def checkAuthorityAdmin (envelope : CommandEnvelope) (command : KernelCommand) :
    Except Refusal Unit :=
  match command with
  | .grantAuthority .. | .revokeAuthority .. | .declarePtySessionTemplate ..
  | .retirePtySessionTemplate .. =>
    require (envelope.actor.kind = "operator")
      (.new .authority (s!"{command.commandType} requires actor kind operator, not " ++
        debugStr envelope.actor.kind))
  | _ => .ok ()

/-! ## PTY input -/

inductive PtyInputCarrier where
  | bytes (bytes : List UInt8)
  | invalid (message : String)

def validatePtyInputCarrier (command : KernelCommand) (ptyInput : Option PtyInputCarrier) :
    Except Refusal Unit :=
  match command, ptyInput with
  | .sendPtyInput id _ byteCount, some (.bytes bytes) => do
    require (bytes.isEmpty = false) (.validation s!"send_pty_input for {id} carries an empty batch")
    require (bytes.length ≤ PTY_INPUT_MAX_BYTES)
      (.validation (s!"send_pty_input for {id} carries {bytes.length} bytes, over the " ++
        s!"{PTY_INPUT_MAX_BYTES}-byte batch bound"))
    require (bytes.length = byteCount.toNat)
      (.validation (s!"send_pty_input for {id} declares {byteCount} bytes but carries " ++
        s!"{bytes.length}"))
  | .sendPtyInput .., some (.invalid message) => .error (.validation message)
  | .sendPtyInput .., none =>
    .error (.validation "send_pty_input requires the typed ephemeral byte carrier")
  | _, some _ => .error (.validation "the PTY input byte carrier may accompany send_pty_input only")
  | _, none => .ok ()

/-- What is wrong with a well-formed input request before it reaches its session. -/
def inputRefusal (envelope : CommandEnvelope) (command : KernelCommand)
    (ptyInput : Option PtyInputCarrier) : Option Refusal :=
  match validatePtyInputCarrier command ptyInput with
  | .error refusal => some refusal
  | .ok () =>
    if envelope.expectedVersion.isSome then
      some (.validation "send_pty_input is generation-guarded and carries no expected_version")
    else none

/-- The carrier check.  A bad input request is not refused here: its refusal travels on, to
be receipted. -/
def checkCarrier (envelope : CommandEnvelope) (command : KernelCommand)
    (ptyInput : Option PtyInputCarrier) : Except Refusal (Option Refusal) :=
  if command.isPtyInput then .ok (inputRefusal envelope command ptyInput)
  else (validatePtyInputCarrier command ptyInput).map fun _ => none

/-- The replay binding of the carried bytes, under the store's blob key. -/
def bindInput (codec : Codec) (store : Store) :
    Option PtyInputCarrier → Except Refusal (Option (List UInt8))
  | some (.bytes bytes) =>
    match store.blobs with
    | none => .error (.storage "PTY input replay binding requires the serving kernel's blob key")
    | some key => .ok (some (codec.inputBinding key bytes))
  | some (.invalid _) | none => .ok none

/-! ## Preflight -/

structure Call where
  store : Store
  moment : Moment
  envelope : CommandEnvelope
  ptyInput : Option PtyInputCarrier

structure Request where
  command : KernelCommand
  route : Route
  refusal : Option Refusal
  inputBinding : Option (List UInt8)

def MAX_INFLIGHT_APPENDS : Nat := 64

def overloaded : Refusal :=
  .new .overloaded s!"append queue is full ({MAX_INFLIGHT_APPENDS} in flight)"

/-- The stateless part of `try_submit`. -/
def preflight (codec : Codec) (call : Call) : Except Refusal Request := do
  let envelope := call.envelope
  require (call.moment.permit = true) overloaded
  (acceptSchemaVersion envelope.schemaVersion ENVELOPE_SCHEMA_VERSION []).mapError
    fun error => .new .schema (toString error)
  let command ← (KernelCommand.fromEnvelope envelope).mapError
    fun error => .validation (toString error)
  let refusal ← checkCarrier envelope command call.ptyInput
  let route ← routeOf envelope command
  checkRouting envelope route
  checkBodyProject envelope command
  checkActivation envelope command
  checkAuthorityAdmin envelope command
  let inputBinding ← bindInput codec call.store call.ptyInput
  return { command, route, refusal, inputBinding }

/-- What the stateless checks establish about a call and its request. -/
structure Passes (codec : Codec) (call : Call) (request : Request) : Prop where
  permit : call.moment.permit = true
  schema : acceptSchemaVersion call.envelope.schemaVersion ENVELOPE_SCHEMA_VERSION [] = .ok ()
  decoded : KernelCommand.fromEnvelope call.envelope = .ok request.command
  carrier : checkCarrier call.envelope request.command call.ptyInput = .ok request.refusal
  routed : routeOf call.envelope request.command = .ok request.route
  routing : checkRouting call.envelope request.route = .ok ()
  project : checkBodyProject call.envelope request.command = .ok ()
  activation : checkActivation call.envelope request.command = .ok ()
  admin : checkAuthorityAdmin call.envelope request.command = .ok ()
  bound : bindInput codec call.store call.ptyInput = .ok request.inputBinding

theorem preflight_ok {codec : Codec} {call : Call} {request : Request} :
    preflight codec call = .ok request ↔ Passes codec call request := by
  simp only [preflight, bind_ok, exists_unit, pure_ok, require_ok, mapError_ok]
  constructor
  · rintro ⟨permit, schema, command, decoded, refusal, carrier, route, routed, routing, project,
      activation, admin, binding, bound, rfl⟩
    exact ⟨permit, schema, decoded, carrier, routed, routing, project, activation, admin, bound⟩
  · rintro ⟨permit, schema, decoded, carrier, routed, routing, project, activation, admin, bound⟩
    exact ⟨permit, schema, _, decoded, _, carrier, _, routed, routing, project, activation, admin,
      _, bound, rfl⟩

theorem Passes.unique {codec : Codec} {call : Call} {request other : Request}
    (passes : Passes codec call request) (otherPasses : Passes codec call other) :
    request = other :=
  Except.ok.inj ((preflight_ok.mpr passes).symm.trans (preflight_ok.mpr otherPasses))

theorem routeOf_ok {envelope : CommandEnvelope} {command : KernelCommand} {route : Route} :
    routeOf envelope command = .ok route ↔
      command.checkShape = .ok () ∧ command.targetId envelope = some route.aggregateId ∧
        route.aggregateId.isEmpty = false ∧
        (route.aggregateType, route.eventType) = command.address := by
  simp only [routeOf, bind_ok, exists_unit]
  cases target : command.targetId envelope with
  | none => simp [throw, throwThe, MonadExceptOf.throw]
  | some aggregateId =>
    simp only [namedRoute, bind_ok, exists_unit, require_ok, pure_ok, Option.some.injEq]
    constructor
    · rintro ⟨shape, named, rfl⟩
      exact ⟨shape, rfl, named, rfl⟩
    · rintro ⟨shape, rfl, named, address⟩
      refine ⟨shape, named, ?_⟩
      rw [← address]

end Gridwork.Kernel
