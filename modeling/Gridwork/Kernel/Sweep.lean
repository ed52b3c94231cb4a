import Gridwork.Kernel.Landing

/-!
# The TTL sweep

The kernel's own pass over leases and attempts.  It expires every lease whose time is up
and marks the attempts behind it `unknown`, then marks every silent attempt that no lease
with a time to live is backing.  Its writes are commands like any other, under keys of its
own; its reads hold no lock.  So a pass is a machine that takes one statement at a time
(`PassStep`), and between two of its statements clients and other passes may do anything
(`WorldStep`).
-/

namespace Gridwork.Kernel

open Domain Lib List Option

/-! ## What a pass reads -/

def STALE_SWEEP_BATCH : Nat := 256

/-- A row a pass acts on, and the project its aggregate belongs to. -/
structure Target where
  id : String
  version : UInt32
  projectId : ProjectId
  deriving DecidableEq

def targetOf (events : List Event) (family id : String) (version : UInt32) : Option Target :=
  (aggregateEvents (family, id) events).head?.map fun first => ⟨id, version, first.projectId⟩

/-- `uncertain_states`: those with an edge to `unknown`. -/
def isUncertain (state : AttemptState) : Bool :=
  StateMachine.canTransition state .unknown

/-- `stale_state_names`: the uncertain states but `blocked`. -/
def isStale (state : AttemptState) : Bool :=
  isUncertain state && state != .blocked

def Lease.elapsed (lease : Lease) (now : Instant) : Bool :=
  lease.expiresAt.any (· < now)

def Attempt.backed (attempt : Attempt) (leases : Rows Lease) : Bool :=
  attempt.worktreeLeaseId.any fun id =>
    leases[id]?.any fun lease => lease.state = .held && lease.expiresAt.isSome

section Reads

variable {Row : Type} (events : List Event) (family : String) (version : Row → UInt32)
  (rows : Rows Row) (selects : Row → Bool)

/-- The rows a query selects, each with the project of its aggregate. -/
def targets : List Target :=
  rows.toList.filterMap fun (id, row) =>
    if selects row then targetOf events family id (version row) else none

end Reads

def expiredLeases (db : Db) (now : Instant) : List Target :=
  targets db.events "lease" (·.version) db.tables.derived.lease fun lease =>
    lease.state = .held ∧ lease.elapsed now

def deadAttempts (db : Db) (leaseId : String) : List Target :=
  targets db.events "attempt" (·.version) db.tables.derived.attempt fun attempt =>
    attempt.worktreeLeaseId = some leaseId ∧ isUncertain attempt.state

def staleAttempts (db : Db) (now : Instant) (staleAfter : Int) : List Target :=
  targets db.events "attempt" (·.version) db.tables.derived.attempt fun attempt =>
    isStale attempt.state ∧ attempt.updatedAt < now - staleAfter ∧
      attempt.backed db.tables.derived.lease = false

/-! ## What a pass writes -/

inductive SweepWrite where
  | expireLease | attemptUnknown | attemptStale
  deriving DecidableEq

namespace SweepWrite

def name : SweepWrite → String
  | expireLease => "expire_lease"
  | attemptUnknown => "attempt_unknown"
  | attemptStale => "attempt_stale"

def family : SweepWrite → String
  | expireLease => "lease"
  | attemptUnknown | attemptStale => "attempt"

def command : SweepWrite → Target → KernelCommand
  | expireLease, target => .expireLease target.id target.version
  | attemptUnknown, target | attemptStale, target =>
    .transitionAttempt target.id .unknown target.version none

def key (write : SweepWrite) (target : Target) : IdempotencyKey :=
  s!"ttl_sweep:{write.name}:{target.id}:{target.version}"

end SweepWrite

def kernelEnvelope (command : KernelCommand) (key : IdempotencyKey) (project : ProjectId)
    (issuedAt : Timestamp) : CommandEnvelope where
  commandId := s!"cmd-{key}"
  projectId := project
  commandType := command.commandType
  schemaVersion := ENVELOPE_SCHEMA_VERSION
  issuedAt := issuedAt
  actor := { kind := "kernel", id := none }
  origin := { system := "kernel", ref := none }
  targetAggregateType := none
  targetAggregateId := none
  expectedVersion := none
  idempotencyKey := key
  causationId := none
  correlationId := none
  payload := .ok command

def sweepCall (store : Store) (moment : Moment) (issuedAt : Timestamp) (write : SweepWrite)
    (target : Target) : Call where
  store := store
  moment := moment
  envelope := kernelEnvelope (write.command target) (write.key target) target.projectId issuedAt
  ptyInput := none

/-! ## A pass -/

/-- Where a pass stands: what it has read and not yet written. -/
inductive Pass where
  | start
  | stamped (issuedAt : Timestamp)
  | expiring (issuedAt : Timestamp) (leases : List Target)
  | expired (issuedAt : Timestamp) (leaseId : String) (leases : List Target)
  | burying (issuedAt : Timestamp) (leaseId : String) (attempts leases : List Target)
  | silent (issuedAt : Timestamp)
  | buryingStale (issuedAt : Timestamp) (attempts : List Target)
  | done
  deriving DecidableEq

def KernelResult.isApplied : KernelResult → Bool
  | .commandApplied .. => true
  | .error _ => false

section Machine

variable (pg : Postgres) (codec : Codec)

/-- `sweep_once_with`, one statement at a time. -/
inductive PassStep (store : Store) (staleAfter : Int) :
    Pass × Db → Moment → Pass × Db → Prop where
  /-- `db_now`. -/
  | stamp (db : Db) (moment : Moment) :
      PassStep store staleAfter (.start, db) moment (.stamped (pg.render moment.now), db)
  | readLeases (db : Db) (moment : Moment) (issuedAt : Timestamp) (leases : List Target)
      (read : leases.Perm (expiredLeases db moment.now)) :
      PassStep store staleAfter (.stamped issuedAt, db) moment (.expiring issuedAt leases, db)
  /-- The attempts of a lease are the pass's to touch only if it expired the lease itself. -/
  | expire (db : Db) (moment : Moment) (issuedAt : Timestamp) (lease : Target)
      (leases : List Target) (result : KernelResult) (after : Db)
      (submitted : submit pg codec db (sweepCall store moment issuedAt .expireLease lease) =
        (result, after)) :
      PassStep store staleAfter (.expiring issuedAt (lease :: leases), db) moment
        (if result.isApplied then .expired issuedAt lease.id leases else .expiring issuedAt leases,
          after)
  | leasesDone (db : Db) (moment : Moment) (issuedAt : Timestamp) :
      PassStep store staleAfter (.expiring issuedAt [], db) moment (.silent issuedAt, db)
  | readDead (db : Db) (moment : Moment) (issuedAt : Timestamp) (leaseId : String)
      (attempts leases : List Target) (read : attempts.Perm (deadAttempts db leaseId)) :
      PassStep store staleAfter (.expired issuedAt leaseId leases, db) moment
        (.burying issuedAt leaseId attempts leases, db)
  | bury (db : Db) (moment : Moment) (issuedAt : Timestamp) (leaseId : String) (attempt : Target)
      (attempts leases : List Target) (result : KernelResult) (after : Db)
      (submitted : submit pg codec db (sweepCall store moment issuedAt .attemptUnknown attempt) =
        (result, after)) :
      PassStep store staleAfter (.burying issuedAt leaseId (attempt :: attempts) leases, db) moment
        (.burying issuedAt leaseId attempts leases, after)
  | deadDone (db : Db) (moment : Moment) (issuedAt : Timestamp) (leaseId : String)
      (leases : List Target) :
      PassStep store staleAfter (.burying issuedAt leaseId [] leases, db) moment
        (.expiring issuedAt leases, db)
  -- `ORDER BY a.id` is the order of the database's collation, whichever it is
  | readStale (db : Db) (moment : Moment) (issuedAt : Timestamp) (attempts : List Target)
      (read : attempts.Perm (staleAttempts db moment.now staleAfter)) :
      PassStep store staleAfter (.silent issuedAt, db) moment
        (.buryingStale issuedAt (attempts.take STALE_SWEEP_BATCH), db)
  | buryStale (db : Db) (moment : Moment) (issuedAt : Timestamp) (attempt : Target)
      (attempts : List Target) (result : KernelResult) (after : Db)
      (submitted : submit pg codec db (sweepCall store moment issuedAt .attemptStale attempt) =
        (result, after)) :
      PassStep store staleAfter (.buryingStale issuedAt (attempt :: attempts), db) moment
        (.buryingStale issuedAt attempts, after)
  | staleDone (db : Db) (moment : Moment) (issuedAt : Timestamp) :
      PassStep store staleAfter (.buryingStale issuedAt [], db) moment (.done, db)
  | finished (db : Db) (moment : Moment) : PassStep store staleAfter (.done, db) moment (.done, db)

/-! ## Clients -/

/-- The requests of the wire that carry a command.  A connection that has not negotiated
their capability is refused before any of this. -/
inductive ClientRequest where
  | submitCommand (call : Call)
  | sendPtyInput (call : Call)
  | resizePtySession (call : Call)
  | stopPtySession (call : Call)
  | startPtySession (call : Call)

def SWEEP_KEYS : String := "ttl_sweep:"

def sweepKeyed (key : IdempotencyKey) : Bool := SWEEP_KEYS.toList.isPrefixOf key.toList

def ptyRequest (name : String) (admits : KernelCommand → Bool) (db : Db) (call : Call) :
    KernelResult × Db :=
  match KernelCommand.fromEnvelope call.envelope with
  | .ok command =>
    if admits command then submit pg codec db call
    else (.error (.validation s!"the {name} request carries a {command.commandType} command"), db)
  | .error error => (.error (.validation (toString error)), db)

/-- What the wire does with a command before any delivery.  The sweep's namespace is closed
to a submitted command; the PTY requests do not look at it. -/
def serve (db : Db) : ClientRequest → KernelResult × Db
  | .submitCommand call =>
    if sweepKeyed call.envelope.idempotencyKey then
      (.error (.validation ("idempotency keys under `ttl_sweep:` are reserved for the kernel's " ++
        "own sweep")),
        db)
    else
      match KernelCommand.fromEnvelope call.envelope with
      | .ok (.resizePtySession ..) | .ok (.stopPtySession ..)
      | .ok (.requestPtySessionStart ..) =>
        (.error (.validation (s!"{call.envelope.commandType} must use its dedicated PTY request " ++
          "so negotiated capabilities and host delivery cannot be skipped")),
          db)
      | _ => submit pg codec db { call with ptyInput := none }
  | .sendPtyInput call => ptyRequest pg codec "send_pty_input" (·.isPtyInput) db call
  | .resizePtySession call =>
    ptyRequest pg codec "resize_pty_session"
      (fun command => match command with | .resizePtySession .. => true | _ => false) db call
  | .stopPtySession call =>
    ptyRequest pg codec "stop_pty_session"
      (fun command => match command with | .stopPtySession .. => true | _ => false) db call
  | .startPtySession call =>
    ptyRequest pg codec "start_pty_session"
      (fun command => match command with | .requestPtySessionStart .. => true | _ => false) db
      call

def ClientRequest.call : ClientRequest → Call
  | .submitCommand call | .sendPtyInput call | .resizePtySession call | .stopPtySession call
  | .startPtySession call => call

/-! ## Clients and passes together -/

structure World where
  db : Db
  passes : Nat → Pass

def World.initial (db : Db) : World := ⟨db, fun _ => .start⟩

/-- What can happen next: a client's request, a statement of a pass, or the end of a pass,
finished or cut off. -/
inductive WorldAction where
  | client (request : ClientRequest)
  | sweep (pass : Nat) (store : Store) (moment : Moment)
  | cut (pass : Nat)

/-- One step of the kernel under clients and passes, each pass at its own threshold. -/
inductive WorldStep (staleAfter : Nat → Int) : World → WorldAction → World → Prop where
  | client (world : World) (request : ClientRequest) :
      WorldStep staleAfter world (.client request)
        { world with db := (serve pg codec world.db request).2 }
  | sweep (world : World) (index : Nat) (store : Store) (moment : Moment) (pass : Pass) (db : Db)
      (step : PassStep pg codec store (staleAfter index) (world.passes index, world.db) moment
        (pass, db)) :
      WorldStep staleAfter world (.sweep index store moment)
        ⟨db, Function.update world.passes index pass⟩
  | cut (world : World) (index : Nat) :
      WorldStep staleAfter world (.cut index)
        { world with passes := Function.update world.passes index .start }

end Machine

variable {pg : Postgres} {codec : Codec} {store : Store} {moment : Moment} {target : Target}

/-! ## Every step is a call -/

theorem serve_cases (pg : Postgres) (codec : Codec) (db : Db) (request : ClientRequest) :
    (serve pg codec db request).2 = db ∨ ∃ ptyInput, (serve pg codec db request).2 =
        (submit pg codec db { request.call with ptyInput }).2 := by
  have ofPty (name : String) (admits : KernelCommand → Bool) (call : Call) :
      (ptyRequest pg codec name admits db call).2 = db ∨
        ∃ ptyInput, (ptyRequest pg codec name admits db call).2 =
          (submit pg codec db { call with ptyInput }).2 := by
    unfold ptyRequest
    split
    · split
      · exact .inr ⟨call.ptyInput, rfl⟩
      · exact .inl rfl
    · exact .inl rfl
  cases request with
  | submitCommand call =>
    simp only [serve]
    split
    · exact .inl rfl
    · split
      · exact .inl rfl
      · exact .inl rfl
      · exact .inl rfl
      · exact .inr ⟨none, rfl⟩
  | sendPtyInput call | resizePtySession call | stopPtySession call | startPtySession call =>
    exact ofPty _ _ call

theorem PassStep.db_cases {staleAfter : Int} {before after : Pass × Db}
    (step : PassStep pg codec store staleAfter before moment after) :
    after.2 = before.2 ∨ ∃ issuedAt write target, after.2 =
      (submit pg codec before.2 (sweepCall store moment issuedAt write target)).2 := by
  cases step with
  | expire _ _ issuedAt lease _ _ _ submitted =>
    exact .inr ⟨issuedAt, .expireLease, lease, by simp [submitted]⟩
  | bury _ _ issuedAt _ attempt _ _ _ _ submitted =>
    exact .inr ⟨issuedAt, .attemptUnknown, attempt, by simp [submitted]⟩
  | buryStale _ _ issuedAt attempt _ _ _ submitted =>
    exact .inr ⟨issuedAt, .attemptStale, attempt, by simp [submitted]⟩
  | _ => exact .inl rfl

def OfHistory (pg : Postgres) (codec : Codec) (initial db : Db) : Prop :=
  ∃ calls, db = after pg codec initial calls

theorem OfHistory.submit {initial db : Db} (reached : OfHistory pg codec initial db) (call : Call) :
    OfHistory pg codec initial (submit pg codec db call).2 := by
  obtain ⟨calls, rfl⟩ := reached
  exact ⟨calls ++ [call], by rw [after_append]; rfl⟩

/-- **Clients and passes make a history.** -/
theorem WorldStep.reached {staleAfter : Nat → Int} {initial : Db} {before next : World}
    {action : WorldAction} (step : WorldStep pg codec staleAfter before action next)
    (reached : OfHistory pg codec initial before.db) : OfHistory pg codec initial next.db := by
  cases step with
  | client request =>
    rcases serve_cases pg codec before.db request with kept | ⟨_, submitted⟩
    · simp only [kept]
      exact reached
    · simp only [submitted]
      exact reached.submit _
  | sweep _ _ _ _ _ step =>
    rcases step.db_cases with kept | ⟨_, _, _, submitted⟩
    · simp only at kept
      rw [kept]
      exact reached
    · simp only at submitted
      rw [submitted]
      exact reached.submit _
  | cut => exact reached

/-! ## The reads and the writes of a pass -/

theorem mem_targets_iff {Row : Type} {events : List Event} {family : String}
    {version : Row → UInt32} {rows : Rows Row} {selects : Row → Bool} :
    target ∈ targets events family version rows selects ↔
      ∃ row, rows[target.id]? = some row ∧ selects row = true ∧
        targetOf events family target.id (version row) = some target := by
  have named {id : String} {number : UInt32}
      (isTarget : targetOf events family id number = some target) : target.id = id := by
    obtain ⟨first, -, rfl⟩ := map_eq_some_iff.mp isTarget
    rfl
  simp only [targets, mem_filterMap, Prod.exists, ite_none_right_eq_some,
    Std.TreeMap.mem_toList_iff_getElem?_eq_some]
  constructor
  · rintro ⟨id, row, hit, selected, isTarget⟩
    obtain rfl := named isTarget
    exact ⟨row, hit, selected, isTarget⟩
  · rintro ⟨row, hit, selected, isTarget⟩
    exact ⟨target.id, row, hit, selected, isTarget⟩

theorem Passes.of_sweepCall {issuedAt : Timestamp} {write : SweepWrite} {request : Request}
    (passes : Passes codec (sweepCall store moment issuedAt write target) request) :
    request.command = write.command target ∧ request.route.aggregateType = write.family ∧
      request.route.aggregateId = target.id := by
  have decoded : write.command target = request.command := by
    have := passes.decoded
    simpa [KernelCommand.fromEnvelope, sweepCall, kernelEnvelope] using this
  obtain ⟨-, named, -, address⟩ := routeOf_ok.mp passes.routed
  rw [← decoded] at named address
  refine ⟨decoded.symm, ?_, ?_⟩
  · have typed := congrArg Prod.fst address
    cases write with
    | _ => exact typed
  · cases write with
    | _ => exact (some.inj named).symm

/-! ## Clients alone -/

theorem run_clients (pg : Postgres) (codec : Codec) (staleAfter : Nat → Int)
    (allowed : World → WorldAction → Prop) (db : Db) (requests : List ClientRequest)
    (allows : ∀ db, ∀ request ∈ requests, allowed (.initial db) (.client request)) :
    Run (fun before action after => WorldStep pg codec staleAfter before action after ∧
        allowed before action) (.initial db) (requests.map .client)
      (.initial (requests.foldl (fun db request => (serve pg codec db request).2) db)) := by
  induction requests generalizing db with
  | nil => exact .nil _
  | cons request rest ih =>
    refine .cons ⟨.client _ request, allows db request mem_cons_self⟩ ?_
    exact ih _ fun db other mem => allows db other (mem_cons_of_mem _ mem)

namespace Sample

def asks (command : KernelCommand) (key : IdempotencyKey) : ClientRequest :=
  .submitCommand (call command key operator)

/-- A lease without a time to live, and an attempt behind it that has started. -/
def started : List ClientRequest :=
  [.submitCommand activate,
    asks (.acquireLease "l" .exclusive none none none none none none none) "k1",
    asks (.createTask "t" none none none none none none) "k2",
    asks (.createAttempt "a" "t" "e" none none none none (some "l") none none) "k3",
    asks (.transitionAttempt "a" .leased 1 none) "k4",
    asks (.transitionAttempt "a" .starting 2 none) "k5"]

def served (requests : List ClientRequest) : Db :=
  requests.foldl (fun db request => (serve Sample.postgres Sample.codec db request).2) initial

end Sample

end Gridwork.Kernel
