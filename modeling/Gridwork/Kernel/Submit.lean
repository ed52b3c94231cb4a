import Gridwork.Kernel.Decide

/-!
# Submitting a command

`submit` is one call of the command path on one database.  After the stateless checks of
`preflight`, `transact` does everything under the writer lock: the epoch, the prior use of
the key, and for a new request the owner of the aggregate, the authority gate, the
decision, and the append with its projections.

A transaction that fails is rolled back, so `transact` answers either a refusal and no
database, or the database it committed.  Three refusals commit what they wrote: a page, a
refused PTY control, and a PTY input that fails its own validation.
-/

namespace Gridwork.Kernel

open Domain Lib

/-! ## Receipts -/

/-- The observed basis of a receipt: what the gate saw, and what the command asks for. -/
def observedBasis (basis : String) : KernelCommand → String
  | .sendPtyInput _ _ byteCount => s!"{basis}; byte_count={byteCount}"
  | .resizePtySession _ _ cols rows => s!"{basis}; cols={cols}; rows={rows}"
  | .stopPtySession .. => s!"{basis}; stop=true"
  | .requestPtySessionStart templateName _ => s!"{basis}; template={templateName}"
  | _ => basis

def receiptId (projectId : ProjectId) (key : IdempotencyKey) : ReceiptId :=
  s!"receipt:{projectId}:{key}"

def receiptFor (envelope : CommandEnvelope) (route : Route) (command : KernelCommand)
    (actionClass basis : String) : ReceiptEntity where
  id := receiptId envelope.projectId envelope.idempotencyKey
  actor := envelope.actor
  action := actionClass
  subjectType := route.aggregateType
  subjectId := route.aggregateId
  observedBasis := some (observedBasis basis command)
  ts := envelope.issuedAt

/-- The class and the basis of an authority decision, if the command is gated. -/
def Decision.result : Decision → Option (String × String)
  | .unclassified => none
  | .allow actionClass basis | .page actionClass basis => some (actionClass, basis)

/-! ## Prior use of the key -/

inductive Prior where
  | unused
  | replay (events : List Event)
  | conflict (reason : String)

def priorForKey (events : List Event) (envelope : CommandEnvelope) (request : Request) : Prior :=
  let route := request.route
  let stored := eventsForKey events envelope.projectId route.aggregateType route.aggregateId
    envelope.idempotencyKey
  match stored with
  | [] => .unused
  | first :: rest =>
    if rest = [] ∧ first.projectId = envelope.projectId ∧
        first.aggregateType = route.aggregateType ∧ first.aggregateId = route.aggregateId ∧
        first.actor = envelope.actor ∧ first.payload = .command request.command then
      .replay stored
    else .conflict (s!"idempotency key {debugStr envelope.idempotencyKey} already names a " ++
      s!"different request on {first.aggregateType}/{first.aggregateId} in project " ++
      first.projectId)

def storedBinding (deliveries : List PtyDelivery) (projectId : ProjectId) (key : IdempotencyKey) :
    Option (List UInt8) :=
  (deliveries.find? fun delivery =>
    delivery.projectId = projectId ∧ delivery.idempotencyKey = key).bind (·.inputBinding)

/-! ## Checks under the lock -/

def admitted (epoch : Epoch) (command : KernelCommand) : Bool :=
  match epoch, command with
  | .active, _ => true
  | .sealed, .activateKernel .. => true
  | _, _ => false

/-- `check_aggregate_owner`: the project of an aggregate's first event is the only one that
may write to it. -/
def checkAggregateOwner (events : List Event) (envelope : CommandEnvelope) (route : Route) :
    Except Refusal Unit :=
  (aggregateEvents (route.aggregateType, route.aggregateId) events).head?.forM fun first =>
    require (first.projectId = envelope.projectId)
      (.validation (s!"{route.aggregateType}/{route.aggregateId} belongs to project " ++
        s!"{debugStr first.projectId}, not {debugStr envelope.projectId}"))

def checkCommandId (deliveries : List PtyDelivery) (envelope : CommandEnvelope)
    (command : KernelCommand) : Except Refusal Unit :=
  require (command.receiptedPty = true →
      ∀ delivery ∈ deliveries, delivery.commandId ≠ envelope.commandId)
    (.new .idempotencyConflict (s!"PTY command id {debugStr envelope.commandId} already names " ++
      "another delivery"))

def committedCutover (events : List Event) : Option String :=
  (events.find? fun event =>
    event.aggregateType = KERNEL_AGGREGATE ∧ event.aggregateId = KERNEL_SINGLETON ∧
      event.eventType = ACTIVATION_EVENT_TYPE).bind fun event =>
    match event.payload with
    | .command (.activateKernel cutoverId _) => some cutoverId
    | _ => none

def checkSecondCutover (events : List Event) (epoch : Epoch) : KernelCommand → Except Refusal Unit
  | .activateKernel cutoverId _ =>
    if epoch = .active then
      match committedCutover events with
      | none => .error (.storage "the kernel is past genesis with no activation event")
      | some committed =>
        .error ((Refusal.new .alreadyActive
          (s!"this kernel activated at cutover {debugStr committed}; {debugStr cutoverId} is a " ++
            "different cutover")).withDetail
          (.object [("activated_cutover_id", .string committed)]))
    else .ok ()
  | _ => .ok ()

def checkAttentionDedup (items : Rows AttentionItem) : KernelCommand → Except Refusal Unit
  | .raiseAttention _ kind _ subjectRef .. =>
    let subject := subjectRef.getD ""
    (unresolvedAttention items kind subjectRef).forM fun openItem =>
      .error (.validation (s!"attention item {debugStr openItem} is already open on " ++
        s!"({debugStr kind}, {debugStr subject})"))
  | _ => .ok ()

def checkExpectedVersion (envelope : CommandEnvelope) (derived : UInt32) : Except Refusal Unit :=
  envelope.expectedVersion.forM fun expected =>
    require (expected = derived) (staleVersion derived expected)

/-- The subject of the authority gate: a start is authorized against its template. -/
def authoritySubject (command : KernelCommand) (route : Route) : String :=
  match command with
  | .requestPtySessionStart templateName _ => templateName
  | _ => route.aggregateId

def commandEvent (envelope : CommandEnvelope) (command : KernelCommand) (route : Route)
    (aggregateVersion : UInt32) : Event where
  eventId := eventIdOf route.aggregateType route.aggregateId aggregateVersion
  projectId := envelope.projectId
  aggregateType := route.aggregateType
  aggregateId := route.aggregateId
  aggregateVersion := aggregateVersion
  eventType := route.eventType
  schemaVersion := ENVELOPE_SCHEMA_VERSION
  globalSequence := 0
  occurredAt := envelope.issuedAt
  appendedAt := envelope.issuedAt
  actor := envelope.actor
  origin := envelope.origin
  causationId := envelope.causationId
  correlationId := envelope.correlationId
  idempotencyKey := some envelope.idempotencyKey
  payload := .command command
  payloadRef := none

def buildEvent (envelope : CommandEnvelope) (command : KernelCommand) (route : Route)
    (expectedVersion : UInt32) : Except Refusal Event :=
  match checkedSucc expectedVersion with
  | none =>
    .error (.new .staleVersion (s!"{route.aggregateType}/{route.aggregateId} is at the version " ++
      "ceiling"))
  | some aggregateVersion => .ok (commandEvent envelope command route aggregateVersion)

/-! ## The transaction -/

/-- What a transaction committed: the database, and the events or the refusal it answers. -/
structure Committed where
  db : Db
  answer : Except Refusal (List Event)

variable (pg : Postgres) (codec : Codec)

def attest (db : Db) (call : Call) (request : Request) (actionClass basis : String) :
    Except Refusal Db := do
  let receipts ← writeReceipt (pg.asOf call.moment.now)
    (receiptFor call.envelope request.route request.command actionClass basis) db.receipts
  return { db with receipts }

def attestResult (db : Db) (call : Call) (request : Request) :
    Option (String × String) → Except Refusal Db
  | none => .ok db
  | some (actionClass, basis) => attest pg db call request actionClass basis

def refusedBasis (basis : String) (refusal : Refusal) : String :=
  s!"{basis}; refused={refusal.code.asStr}"

/-- `receipted_pty_refusal`: the refusal commits its own receipt. -/
def receiptedPtyRefusal (db : Db) (call : Call) (request : Request)
    (actionClass basis : String) (refusal : Refusal) : Except Refusal Committed := do
  let db ← attest pg db call request actionClass (refusedBasis basis refusal)
  return { db, answer := .error refusal }

def pageSubject (route : Route) : String :=
  s!"{route.aggregateType}/{route.aggregateId}"

def pageItemId (actionClass : String) (route : Route) : String :=
  s!"page:{actionClass}:{pageSubject route}"

def pageRefusal (envelope : CommandEnvelope) (route : Route) (actionClass : String) : Refusal :=
  (Refusal.new .authority (s!"{envelope.commandType} on {pageSubject route} requires an " ++
    s!"unexpired {actionClass} grant; attention raised")).withDetail
    (.object [("action_class", .string actionClass), ("subject", .string (pageSubject route))])

/-- `paged`: a refusal that commits its receipt and its attention item. -/
def paged (db : Db) (call : Call) (request : Request) (actionClass basis : String) :
    Except Refusal Committed := do
  let envelope := call.envelope
  let db ← attest pg db call request actionClass basis
  let attention ← pageAttention (pg.asOf call.moment.now) (pageItemId actionClass request.route)
    s!"{envelope.commandType} requires an unexpired {actionClass} grant"
    (pageSubject request.route) envelope.actor envelope.issuedAt db.tables.attention
  return {
    db := { db with tables := { db.tables with attention } }
    answer := .error (pageRefusal envelope request.route actionClass) }

/-- Write the projections of what an append produced, unless it was a keyed retry. -/
def projectAppended (appended : Appended) : Except Refusal Db := do
  let db := appended.db
  if appended.replayed then return db
  else
    let tables ← appended.events.foldlM (fun tables event => applyEvent pg event tables) db.tables
    return { db with tables }

def deliveryOf (call : Call) (request : Request) (event : Event) : PtyDelivery where
  projectId := call.envelope.projectId
  idempotencyKey := call.envelope.idempotencyKey
  commandId := call.envelope.commandId
  eventId := event.eventId
  eventSeq := event.globalSequence
  inputBinding := request.inputBinding

def deliveryIndexesFree (deliveries : List PtyDelivery) (delivery : PtyDelivery) : Prop :=
  ∀ other ∈ deliveries,
    (other.projectId, other.idempotencyKey) ≠ (delivery.projectId, delivery.idempotencyKey) ∧
    other.commandId ≠ delivery.commandId ∧ other.eventId ≠ delivery.eventId
  deriving Decidable

def registerDelivery (db : Db) (call : Call) (request : Request) (appended : Appended) :
    Except Refusal Db :=
  if appended.replayed ∨ request.command.receiptedPty = false then .ok db
  else
    match appended.events with
    | [] => .error (.storage "a delivered PTY command appended no event")
    | event :: _ => do
      let delivery := deliveryOf call request event
      require (deliveryIndexesFree db.deliveries delivery)
        (.storage "register PTY delivery: unique index")
      return { db with deliveries := db.deliveries ++ [delivery] }

def land (db : Db) (call : Call) (request : Request) (expectedVersion : UInt32) :
    Except Refusal Committed := do
  checkExpectedVersion call.envelope expectedVersion
  let event ← buildEvent call.envelope request.command request.route expectedVersion
  let appended ← (appendLocked pg codec db call.moment.now expectedVersion [event]).mapError
    AppendError.refusal
  let projected ← projectAppended (pg.asOf call.moment.now) appended
  let registered ← registerDelivery projected call request appended
  return {
    db := checkpointIfDue pg codec call.store db.writer call.moment.now appended.events registered
    answer := .ok appended.events }

def proceed (db : Db) (call : Call) (request : Request) (authority : Option (String × String)) :
    Except Refusal Committed := do
  let receipted := request.command.receiptedPty
  let attested ← attestResult pg db call request (if receipted then none else authority)
  checkAttentionDedup attested.tables.attention request.command
  match decide attested call.envelope request.command request.route, receipted, authority with
  | .ok expectedVersion, false, _ => land pg codec attested call request expectedVersion
  | .error refusal, false, _ => .error refusal
  | _, true, none => .error (.storage "PTY control was not authority-classified")
  | .ok expectedVersion, true, some (actionClass, basis) => do
    let db ← attest pg attested call request actionClass basis
    land pg codec db call request expectedVersion
  | .error refusal, true, some (actionClass, basis) =>
    receiptedPtyRefusal pg attested call request actionClass basis refusal

def authorityDecision (db : Db) (call : Call) (request : Request) : Except Refusal Decision :=
  evaluate (pg.asOf call.moment.now) db.tables.derived.authorityGrant call.envelope
    (classificationKey call.envelope.commandType request.command)
    (authoritySubject request.command request.route) call.moment.clock

def fresh (db : Db) (call : Call) (request : Request) : Except Refusal Committed := do
  checkAggregateOwner db.events call.envelope request.route
  checkCommandId db.deliveries call.envelope request.command
  checkSecondCutover db.events (epochOf db.events) request.command
  let decision ← authorityDecision pg db call request
  match decision with
  | .page actionClass basis => paged pg db call request actionClass basis
  | .allow actionClass basis => proceed pg codec db call request (some (actionClass, basis))
  | .unclassified => proceed pg codec db call request none

/-- The key already named this request: the original events are the answer. -/
def replayed (db : Db) (call : Call) (request : Request) (events : List Event) :
    Except Refusal Committed := do
  require (request.command.isPtyInput = true →
      storedBinding db.deliveries call.envelope.projectId call.envelope.idempotencyKey =
        request.inputBinding)
    (.new .idempotencyConflict (s!"idempotency key {debugStr call.envelope.idempotencyKey} " ++
      "names different PTY input bytes"))
  return { db, answer := .ok events }

def keyed (db : Db) (call : Call) (request : Request) : Except Refusal Committed :=
  match priorForKey db.events call.envelope request with
  | .replay events => replayed db call request events
  | .conflict reason => .error (.new .idempotencyConflict reason)
  | .unused => fresh pg codec db call request

def storageAnswers (moment : Moment) : Except Refusal Unit :=
  match moment.storage with
  | .failsInTransaction reason => .error (.storage reason)
  | _ => .ok ()

/-- The part of `try_submit` under the writer lock. -/
def transact (db : Db) (call : Call) (request : Request) : Except Refusal Committed := do
  storageAnswers call.moment
  (lockWriter call.store db).mapError AppendError.refusal
  require (admitted (epochOf db.events) request.command = true)
    (sealedRefusal (epochOf db.events) request.command.commandType)
  match request.refusal with
  | some refusal =>
    receiptedPtyRefusal pg db call request PTY_INPUT_ACTION_CLASS "request validation" refusal
  | none => keyed pg codec db call request

/-! ## Submit -/

/-- `KernelResult`, as the command path answers it. -/
inductive KernelResult where
  | commandApplied (commandId : CommandId) (events : List Event) (watermark : Seq)
  | error (refusal : Refusal)

/-- The success answer, with the watermark read after the commit. -/
def applied (call : Call) (db : Db) (events : List Event) : KernelResult :=
  match call.moment.storage, watermark db.events with
  | .failsAfterCommit reason, _ => .error (.storage reason)
  | _, none => .error (.storage "the log is empty after a committed append")
  | _, some mark => .commandApplied call.envelope.commandId events mark

/-- `submit`: the answer, and the database it leaves. -/
def submit (pg : Postgres) (codec : Codec) (db : Db) (call : Call) : KernelResult × Db :=
  match preflight codec call >>= transact pg codec db call with
  | .error refusal => (.error refusal, db)
  | .ok { db := committed, answer := .error refusal } => (.error refusal, committed)
  | .ok { db := committed, answer := .ok events } => (applied call committed events, committed)

end Gridwork.Kernel
