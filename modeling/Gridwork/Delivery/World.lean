import Gridwork.Delivery.Row
import Gridwork.Kernel.Filing
import Gridwork.Kernel.Writers
import Gridwork.Lib.Mailbox
import Gridwork.Pty.Deliver

/-!
# Delivering committed controls

A PTY control is committed first and delivered afterwards.  Its delivery is an `Attempt`: a
task that looks for the delivery in the hub, claims the row in a transaction, takes the
control through the hub, waits for the host, and settles or releases the row.  A client's
retry is another attempt on the same row.  The host's answers are handled by tasks of their
own (`Ack`), and so are the rows of a host that hangs up (`orphans`).

`World` is the database, the hub and all these tasks, and a step is one statement, one
section of the hub, or one event of the outside: a deadline, a hangup, a crash.  A
transaction holds its row from the `SELECT … FOR UPDATE` to its end, and no other statement
touches the row in between.  A crash takes every task and the hub with it, and the next boot
quarantines what it left.
-/

namespace Gridwork.Delivery

open Domain Lib Pty Kernel

/-! ## Attempts -/

/-- Where a control goes: to one lifetime of a session, or to the manager of starts. -/
inductive Destination where
  | session (channel : Channel) (id : PtySessionId) (generation : PtySessionGeneration)
  | start
  deriving DecidableEq

namespace Destination

def of : KernelCommand → Option Destination
  | .sendPtyInput id generation _ => some (session .input id generation)
  | .resizePtySession id generation _ _ | .stopPtySession id generation =>
    some (session .control id generation)
  | .requestPtySessionStart .. => some start
  | _ => none

/-- The queue of the host went away while the control waited for its place. -/
def closed : Destination → PtyRefusal
  | session _ id _ =>
    { code := .notFound, message := s!"pty session {id}'s owning host connection closed" }
  | start => { code := .notFound, message := "PTY host connection closed" }

def slow : Destination → PtyRefusal
  | session _ id _ =>
    { code := .slowConsumer
      message := s!"pty session {id}'s owning host stopped accepting controls" }
  | start =>
    { code := .slowConsumer
      message := "PTY start manager replacement prevented bounded delivery" }

def enqueue (hub : PtyHub) (owner : ConnectionId) (claimToken : String) (deliveryId : EventId) :
    Destination → Except PtyRefusal PtyHub
  | session channel id generation =>
    hub.enqueueSession channel id generation owner claimToken deliveryId
  | start => hub.pend owner claimToken deliveryId

def Current (hub : PtyHub) (owner : ConnectionId) : Destination → Prop
  | session .. => True
  | start => hub.controls.startManagers.getLast? = some owner

theorem enqueue_eq_ok {destination : Destination} {hub result : PtyHub} {owner : ConnectionId}
    {claimToken : String} {deliveryId : EventId}
    (enqueues : destination.enqueue hub owner claimToken deliveryId = .ok result) :
    hub.pend owner claimToken deliveryId = .ok result := by
  cases destination with
  | session channel id generation => exact PtyHub.enqueueSession_eq_ok enqueues
  | start => exact enqueues

theorem aggregate_of_eq_session {command : KernelCommand} {channel : Channel} {id : PtySessionId}
    {generation : PtySessionGeneration}
    (isSession : of command = some (session channel id generation))
    (envelope : Kernel.CommandEnvelope) :
    command.address.1 = "pty_session" ∧
      command.targetId envelope = some (Kernel.ptySessionLifetimeId id generation) := by
  unfold of at isSession
  split at isSession
  · cases isSession
    exact ⟨rfl, rfl⟩
  · cases isSession
    exact ⟨rfl, rfl⟩
  · cases isSession
    exact ⟨rfl, rfl⟩
  · cases isSession
  · cases isSession

end Destination

inductive Stage where
  /-- The command is committed. -/
  | submitted
  | minted (token : String)
  /-- The transaction is open, at its time. -/
  | opening (token : String) (now : Instant)
  /-- The row is locked, and its claim has run out. -/
  | expiring (now : Instant)
  /-- The row is locked and pending. -/
  | ordering (token : String) (now : Instant)
  /-- The row is locked, and no earlier control is in the way. -/
  | claiming (token : String) (now : Instant)
  | claimed (token : String)
  | located (token : String) (owner : ConnectionId)
  /-- Waiting for a place in the queue of the connection. -/
  | routed (token : String) (owner : ConnectionId)
  | permitted (token : String) (owner : ConnectionId)
  /-- Waiting for the acknowledgement. -/
  | sent (token : String)
  | acknowledged (token : String) (result : Except PtyRefusal Unit)
  | refused (token : String) (refusal : PtyRefusal)
  | doubtful (token : String)
  deriving DecidableEq

structure Attempt where
  projectId : ProjectId
  idempotencyKey : IdempotencyKey
  deliveryId : EventId
  connection : ConnectionId
  destination : Destination
  stage : Stage
  deriving DecidableEq

inductive AckStage where
  | received
  | claimed (token : String)
  | settled (token : String)
  /-- The hub knows no such delivery. -/
  | unknown

structure Ack where
  connection : ConnectionId
  deliveryId : EventId
  result : PtyDeliveryResult
  stage : AckStage

def PTY_DELIVERY_FAILURE_MAX_BYTES : Nat := 4 * 1024

/-- `delivery_ack_result`: a refusal's message is bounded. -/
def ackFits : PtyDeliveryResult → Prop
  | .applied => True
  | .refused _ message => message.utf8ByteSize ≤ PTY_DELIVERY_FAILURE_MAX_BYTES

def ackResult : PtyDeliveryResult → Except PtyRefusal Unit
  | .applied => .ok ()
  | .refused code message => .error { code, message }

/-! ## The world -/

structure Enqueued where
  connection : ConnectionId
  deliveryId : EventId
  destination : Destination

/-- The database with the settlements and row locks of its deliveries, the running daemon, and
every control enqueued since the database was made. -/
structure World where
  clock : Instant
  db : Db
  states : EventId → Settlement
  locks : EventId → Option Nat
  hub : PtyHub
  serving : Bool
  attempts : Nat → Option Attempt
  next : Nat
  /-- What the attempts wait for, and whose sender is behind a pending delivery. -/
  slots : Nat → Slot (Except PtyRefusal Unit)
  senders : EventId → Nat
  acks : Nat → Option Ack
  /-- Deliveries of a host that hung up, with their claims. -/
  orphans : List (EventId × String)
  enqueued : List Enqueued

namespace World

/-- A daemon that has not started, on a database without deliveries. -/
def initial (db : Db) (clock : Instant) : World where
  clock := clock
  db := db
  states _ := .pending
  locks _ := none
  hub := .new 0
  serving := false
  attempts _ := none
  next := 0
  slots _ := .empty
  senders _ := 0
  acks _ := none
  orphans := []
  enqueued := []

variable (world : World)

def write (deliveryId : EventId) (statement : Statement) : World :=
  { world with
    states := Function.update world.states deliveryId (statement.run (world.states deliveryId)) }

theorem write_states (deliveryId other : EventId) (statement : Statement) :
    (world.write deliveryId statement).states other =
      if other = deliveryId then statement.run (world.states other) else world.states other := by
  simp only [write, Function.update_apply]
  split_ifs with eq
  · rw [eq]
  · rfl

def unlock (index : Nat) : World :=
  { world with
    locks := fun deliveryId =>
      if world.locks deliveryId = some index then none else world.locks deliveryId }

def finish (index : Nat) : World :=
  { world.unlock index with attempts := Function.update world.attempts index none }

def goto (index : Nat) (attempt : Attempt) : Option Stage → World
  | some stage =>
    { world with
      attempts := Function.update world.attempts index (some { attempt with stage }) }
  | none => world.finish index

/-- The attempt a request starts: its command was applied, and is one that is delivered. -/
def attemptFor (connection : ConnectionId) (request : ClientRequest) (result : KernelResult) :
    Option Attempt :=
  match request.isControl, result, KernelCommand.fromEnvelope request.call.envelope with
  | true, .commandApplied _ (event :: _) _, .ok command =>
    (Destination.of command).map fun destination =>
      { projectId := request.call.envelope.projectId
        idempotencyKey := request.call.envelope.idempotencyKey
        deliveryId := event.eventId
        connection
        destination
        stage := .submitted }
  | _, _, _ => none

theorem attemptFor_stage {connection : ConnectionId} {request : ClientRequest}
    {result : KernelResult} {attempt : Attempt}
    (isAttempt : attemptFor connection request result = some attempt) :
    attempt.stage = .submitted := by
  unfold attemptFor at isAttempt
  split at isAttempt
  · obtain ⟨destination, -, rfl⟩ := Option.map_eq_some_iff.mp isAttempt
    rfl
  · cases isAttempt

/-- A client's request is committed, or refused, and its delivery begins. -/
def request (pg : Postgres) (codec : Codec) (world : World) (connection : ConnectionId)
    (request : ClientRequest) : World :=
  let served := serve pg codec world.db request
  { world with
    db := served.2
    attempts := Function.update world.attempts world.next (attemptFor connection request served.1)
    next := world.next + 1 }

/-! ## The order of a lifetime -/

def appendedWithin (pg : Postgres) (now : Instant) (event : Event) : Bool :=
  match pg.instant event.appendedAt with
  | some appendedAt => now - deliveryLease < appendedAt
  | none => false

def Precedes (row prior : PtyDelivery) (event : Event) : Prop :=
  prior ∈ world.db.deliveries ∧ event ∈ world.db.events ∧ event.eventId = prior.eventId ∧
    ¬ (world.states prior.eventId).Settled ∧ prior.eventSeq < row.eventSeq ∧
    ∃ current ∈ world.db.events, current.eventId = row.eventId ∧ event.aggregate = current.aggregate

/-- The order check: an earlier delivery has a live claim, or its event is fresh. -/
def EarlierPending (pg : Postgres) (world : World) (row : PtyDelivery) (now : Instant) : Prop :=
  ∃ prior event, world.Precedes row prior event ∧
    ((world.states prior.eventId).live now = true ∨ appendedWithin pg now event = true)

end World

/-! ## Steps -/

variable (pg : Postgres) (codec : Codec)

/-- What an attempt does by itself, or learns from the hub and the database without a trace
in them; it may end with that.  A storage error ends it too, and is `lose`. -/
inductive Moves (world : World) (index : Nat) (attempt : Attempt) : Stage →
    Option Stage → Prop where
  /-- Another attempt is active. -/
  | busy (active : world.hub.deliveryPending attempt.deliveryId = true) :
      Moves world index attempt .submitted none
  | mints (nonce : String) (inactive : world.hub.deliveryPending attempt.deliveryId = false) :
      Moves world index attempt .submitted
        (some (.minted s!"{world.hub.writerEpoch}:{attempt.connection}:{nonce}"))
  | begins {token : String} :
      Moves world index attempt (.minted token) (some (.opening token world.clock))
  | missing {token : String} {now : Instant}
      (absent : deliveryFor world.db attempt.projectId attempt.idempotencyKey = none) :
      Moves world index attempt (.opening token now) none
  /-- The row is settled, or claimed by an active attempt. -/
  | answered {token : String} {now : Instant} {row : PtyDelivery}
      (hit : deliveryFor world.db attempt.projectId attempt.idempotencyKey = some row)
      (unlocked : world.locks row.eventId = none)
      (taken : (world.states row.eventId).Settled ∨ (world.states row.eventId).live now = true) :
      Moves world index attempt (.opening token now) none
  | blocked {token : String} {now : Instant} {row : PtyDelivery}
      (hit : deliveryFor world.db attempt.projectId attempt.idempotencyKey = some row)
      (prior : world.EarlierPending pg row now) :
      Moves world index attempt (.ordering token now) none
  | ordered {token : String} {now : Instant} {row : PtyDelivery}
      (hit : deliveryFor world.db attempt.projectId attempt.idempotencyKey = some row)
      (first : ¬ world.EarlierPending pg row now) :
      Moves world index attempt (.ordering token now) (some (.claiming token now))
  | locates {token : String} {channel : Channel} {id : PtySessionId}
      {generation : PtySessionGeneration} {owner : ConnectionId}
      (toSession : attempt.destination = .session channel id generation)
      (live : world.hub.liveOwner id generation = .ok owner) :
      Moves world index attempt (.claimed token) (some (.located token owner))
  | unlocated {token : String} {channel : Channel} {id : PtySessionId}
      {generation : PtySessionGeneration} {refusal : PtyRefusal}
      (toSession : attempt.destination = .session channel id generation)
      (stale : world.hub.liveOwner id generation = .error refusal) :
      Moves world index attempt (.claimed token) (some (.refused token refusal))
  | routes {token : String} {owner : ConnectionId} {channel : Channel} {id : PtySessionId}
      {generation : PtySessionGeneration}
      (toSession : attempt.destination = .session channel id generation)
      (negotiated : world.hub.checkSessionRoute channel id owner = .ok ()) :
      Moves world index attempt (.located token owner) (some (.routed token owner))
  | unrouted {token : String} {owner : ConnectionId} {channel : Channel} {id : PtySessionId}
      {generation : PtySessionGeneration} {refusal : PtyRefusal}
      (toSession : attempt.destination = .session channel id generation)
      (refuses : world.hub.checkSessionRoute channel id owner = .error refusal) :
      Moves world index attempt (.located token owner) (some (.refused token refusal))
  | manages {token : String} {manager : ConnectionId} (isStart : attempt.destination = .start)
      (managed : world.hub.startManager = .ok manager) :
      Moves world index attempt (.claimed token) (some (.routed token manager))
  | unmanaged {token : String} {refusal : PtyRefusal} (isStart : attempt.destination = .start)
      (refuses : world.hub.startManager = .error refusal) :
      Moves world index attempt (.claimed token) (some (.refused token refusal))
  | reserves {token : String} {owner : ConnectionId} :
      Moves world index attempt (.routed token owner) (some (.permitted token owner))
  | closed {token : String} {owner : ConnectionId} :
      Moves world index attempt (.routed token owner)
        (some (.refused token attempt.destination.closed))
  | slow {token : String} {owner : ConnectionId} :
      Moves world index attempt (.routed token owner)
        (some (.refused token attempt.destination.slow))
  /-- The one deadline of a start covers its whole way to the queue. -/
  | slowStart {token : String} {stage : Stage} (isStart : attempt.destination = .start)
      (before : stage = .claimed token ∨ ∃ owner, stage = .permitted token owner) :
      Moves world index attempt stage (some (.refused token attempt.destination.slow))
  /-- Another manager took over, which a start notices while it waits or when it sends. -/
  | reroutes {token : String} {owner : ConnectionId} {stage : Stage}
      (isStart : attempt.destination = .start)
      (before : stage = .routed token owner ∨
        stage = .permitted token owner ∧ ¬ attempt.destination.Current world.hub owner) :
      Moves world index attempt stage (some (.claimed token))
  | unqueued {token : String} {owner : ConnectionId} {refusal : PtyRefusal}
      (current : attempt.destination.Current world.hub owner)
      (refuses : attempt.destination.enqueue world.hub owner token attempt.deliveryId =
        .error refusal) :
      Moves world index attempt (.permitted token owner) (some (.refused token refusal))
  | replied {token : String} {result : Except PtyRefusal Unit}
      (filled : world.slots index = .filled result) :
      Moves world index attempt (.sent token) (some (.acknowledged token result))
  /-- The host hung up. -/
  | deserted {token : String} (dropped : world.slots index = .dropped) :
      Moves world index attempt (.sent token) (some (.doubtful token))
  /-- The deadline for the acknowledgement passed. -/
  | late {token : String} (silent : world.slots index = .empty) :
      Moves world index attempt (.sent token) (some (.doubtful token))

/-- What the handling of an acknowledgement learns from the hub; an error ends it. -/
inductive AckMoves (world : World) (ack : Ack) : AckStage → Option AckStage → Prop where
  | claims {token : String}
      (pending : world.hub.deliveryAckClaim ack.connection ack.deliveryId = .ok token) :
      AckMoves world ack .received (some (.claimed token))
  | unclaimed {refusal : PtyRefusal}
      (refuses : world.hub.deliveryAckClaim ack.connection ack.deliveryId = .error refusal)
      (unknown : refusal.code = .notFound) : AckMoves world ack .received (some .unknown)
  | lost (stage : AckStage) : AckMoves world ack stage none

inductive Action where
  | tick (clock : Instant)
  | act (act : Act)
  | request (connection : ConnectionId) (request : ClientRequest)
  | publish (action : PtyHub.Action)
  | register (connection : ConnectionId) (route : ControlRoute)
  | disconnect (connection : ConnectionId)
  | attempt (index : Nat)
  | lose (index : Nat)
  | acknowledge (index : Nat) (connection : ConnectionId) (deliveryId : EventId)
      (result : PtyDeliveryResult)
  | ack (index : Nat)
  | orphan (deliveryId : EventId) (token : String)
  | crash | quarantine

namespace World

/-- A hangup: what was pending with the host is dropped, and its rows are left to a task. -/
def disconnect (world : World) (connection : ConnectionId) : World :=
  let hungUp := world.hub.disconnect connection
  let dropped := hungUp.1.abandoned.map fun (deliveryId, _) => world.senders deliveryId
  { world with
    hub := hungUp.2
    slots := fun index => if index ∈ dropped then .dropped else world.slots index
    orphans := world.orphans ++ hungUp.1.abandoned }

def crash (world : World) : World :=
  let db := Kernel.writerRow.claim world.db
  { world with
    db
    locks := fun _ => none
    hub := .new (.ofNat db.writer.epoch.toNat)
    serving := false
    attempts := fun _ => none
    acks := fun _ => none
    orphans := [] }

/-- `quarantine_orphaned_pty_deliveries`, before the first connection. -/
def quarantine (world : World) : World :=
  { world with
    states := fun deliveryId =>
      if deliveryId ∈ world.db.deliveries.map (·.eventId) then
        (Statement.quarantine world.clock).run (world.states deliveryId)
      else world.states deliveryId
    serving := true }

/-- The control is in the queue, the delivery is pending, and a new channel waits for the
answer. -/
def send (world : World) (index : Nat) (attempt : Attempt) (token : String) (owner : ConnectionId)
    (hub : PtyHub) : World :=
  { world with
    hub
    attempts := Function.update world.attempts index (some { attempt with stage := .sent token })
    slots := Function.update world.slots index .empty
    senders := Function.update world.senders attempt.deliveryId index
    enqueued := world.enqueued ++ [⟨owner, attempt.deliveryId, attempt.destination⟩] }

def forget (world : World) (deliveryId : EventId) : World :=
  { world with
    hub := world.hub.forget deliveryId
    slots := if world.hub.deliveryPending deliveryId then
        Function.update world.slots (world.senders deliveryId) .dropped
      else world.slots }

def ackTo (world : World) (index : Nat) (ack : Ack) (stage : Option AckStage) : World :=
  { world with
    acks := Function.update world.acks index (stage.map fun stage => { ack with stage }) }

end World

inductive World.Step : World → Action → World → Prop where
  | tick {world : World} (clock : Instant) (later : world.clock ≤ clock) :
      Step world (.tick clock) { world with clock }
  /-- The kernel's own writes. -/
  | act (world : World) (act : Act) :
      Step world (.act act) { world with db := Kernel.perform pg codec world.db act }
  | request {world : World} (connection : ConnectionId) (request : ClientRequest)
      (serving : world.serving = true) (timed : request.call.moment.now = world.clock) :
      Step world (.request connection request) (world.request pg codec connection request)
  | publish (world : World) (action : PtyHub.Action)
      (stays : ∀ connection, action ≠ .disconnect connection) :
      Step world (.publish action) { world with hub := world.hub.perform action }
  | register (world : World) (connection : ConnectionId) (route : ControlRoute) :
      Step world (.register connection route)
        { world with hub := world.hub.registerConnection connection route }
  | disconnect (world : World) (connection : ConnectionId) :
      Step world (.disconnect connection) (world.disconnect connection)
  | moves {world : World} {index : Nat} {attempt : Attempt} {stage : Option Stage}
      (hit : world.attempts index = some attempt)
      (move : Moves pg world index attempt attempt.stage stage) :
      Step world (.attempt index) (world.goto index attempt stage)
  /-- `SELECT … FOR UPDATE` finds the row pending, or its claim run out. -/
  | lock {world : World} {index : Nat} {attempt : Attempt} {token : String} {now : Instant}
      {row : PtyDelivery} {stage : Stage} (hit : world.attempts index = some attempt)
      (opening : attempt.stage = .opening token now)
      (isRow : deliveryFor world.db attempt.projectId attempt.idempotencyKey = some row)
      (unlocked : world.locks row.eventId = none)
      (reads : world.states row.eventId = .pending ∧ stage = .ordering token now ∨
        (∃ held claimedUntil, world.states row.eventId = .claimed held claimedUntil) ∧
          (world.states row.eventId).live now = false ∧ stage = .expiring now) :
      Step world (.attempt index)
        { world.goto index attempt (some stage) with
          locks := Function.update world.locks row.eventId (some index) }
  | expire {world : World} {index : Nat} {attempt : Attempt} {now : Instant} {row : PtyDelivery}
      (hit : world.attempts index = some attempt) (expiring : attempt.stage = .expiring now)
      (isRow : deliveryFor world.db attempt.projectId attempt.idempotencyKey = some row) :
      Step world (.attempt index) ((world.write row.eventId (.expire now)).finish index)
  | claim {world : World} {index : Nat} {attempt : Attempt} {token : String} {now : Instant}
      {row : PtyDelivery} (hit : world.attempts index = some attempt)
      (claiming : attempt.stage = .claiming token now)
      (isRow : deliveryFor world.db attempt.projectId attempt.idempotencyKey = some row) :
      Step world (.attempt index)
        (((world.write row.eventId (.claim token now)).unlock index).goto index attempt
          (some (.claimed token)))
  | enqueue {world : World} {index : Nat} {attempt : Attempt} {token : String}
      {owner : ConnectionId} {hub : PtyHub} (hit : world.attempts index = some attempt)
      (permitted : attempt.stage = .permitted token owner)
      (current : attempt.destination.Current world.hub owner)
      (enqueues : attempt.destination.enqueue world.hub owner token attempt.deliveryId = .ok hub) :
      Step world (.attempt index) (world.send index attempt token owner hub)
  | forget {world : World} {index : Nat} {attempt : Attempt} {token : String}
      {result : Except PtyRefusal Unit} (hit : world.attempts index = some attempt)
      (acknowledged : attempt.stage = .acknowledged token result) :
      Step world (.attempt index)
        ((world.forget attempt.deliveryId).goto index attempt
          (match result with
            | .ok () => none
            | .error refusal => some (.refused token refusal)))
  | release {world : World} {index : Nat} {attempt : Attempt} {token : String}
      {refusal : PtyRefusal} {row : PtyDelivery} (hit : world.attempts index = some attempt)
      (refused : attempt.stage = .refused token refusal)
      (isRow : deliveryFor world.db attempt.projectId attempt.idempotencyKey = some row)
      (unlocked : world.locks row.eventId = none) :
      Step world (.attempt index) ((world.write row.eventId (.release token)).finish index)
  | abandon {world : World} {index : Nat} {attempt : Attempt} {token : String}
      (hit : world.attempts index = some attempt) (doubtful : attempt.stage = .doubtful token)
      (unlocked : world.locks attempt.deliveryId = none) :
      Step world (.attempt index)
        ((world.write attempt.deliveryId (.abandon token world.clock)).finish index)
  /-- The client hung up, or the database did not answer. -/
  | lose (world : World) (index : Nat) : Step world (.lose index) (world.finish index)
  | acknowledge {world : World} {index : Nat} (connection : ConnectionId) (deliveryId : EventId)
      (result : PtyDeliveryResult) (serving : world.serving = true)
      (idle : world.acks index = none) (fits : ackFits result) :
      Step world (.acknowledge index connection deliveryId result)
        (world.ackTo index ⟨connection, deliveryId, result, .received⟩ (some .received))
  | ackMoves {world : World} {index : Nat} {ack : Ack} {stage : Option AckStage}
      (hit : world.acks index = some ack) (move : AckMoves world ack ack.stage stage) :
      Step world (.ack index) (world.ackTo index ack stage)
  | settle {world : World} {index : Nat} {ack : Ack} {token : String}
      (hit : world.acks index = some ack) (claimed : ack.stage = .claimed token)
      (unlocked : world.locks ack.deliveryId = none)
      (matched : ((Statement.settle token world.clock ack.result).update
        (world.states ack.deliveryId)).isSome) :
      Step world (.ack index)
        ((world.write ack.deliveryId (.settle token world.clock ack.result)).ackTo index ack
          (some (.settled token)))
  | take {world : World} {index : Nat} {ack : Ack} {token : String} {hub : PtyHub}
      (hit : world.acks index = some ack) (settled : ack.stage = .settled token)
      (takes : world.hub.takeDeliveryAck ack.connection ack.deliveryId token = .ok hub) :
      Step world (.ack index)
        { world.ackTo index ack none with
          hub
          slots := Function.update world.slots (world.senders ack.deliveryId)
            (.filled (ackResult ack.result)) }
  | reconcile {world : World} {index : Nat} {ack : Ack} (hit : world.acks index = some ack)
      (unknown : ack.stage = .unknown) (applied : ack.result = .applied)
      (unlocked : world.locks ack.deliveryId = none) :
      Step world (.ack index)
        ((world.write ack.deliveryId (.reconcile world.clock)).ackTo index ack none)
  | orphan {world : World} {deliveryId : EventId} {token : String}
      (listed : (deliveryId, token) ∈ world.orphans) (unlocked : world.locks deliveryId = none) :
      Step world (.orphan deliveryId token)
        { world.write deliveryId (.abandon token world.clock) with
          orphans := world.orphans.erase (deliveryId, token) }
  | crash (world : World) : Step world .crash world.crash
  | quarantine {world : World} (stopped : world.serving = false) :
      Step world .quarantine world.quarantine

end Gridwork.Delivery
