import Gridwork.Lib.Mailbox
import Gridwork.Lib.Run
import Gridwork.Pty.Hub

/-!
# Controls at the PTY host

The kernel sends a PTY host inputs, resizes and stops for a session; the host hands each to
the session's own task through a bounded queue and acknowledges it as applied or refused.
Two deadlines guard a delivery, one for its place in the queue and one for the task's
answer.  When one passes the host may know that nothing happened, or may not know; the first
is a refusal, and the second has no acknowledgement at all.
-/

namespace Gridwork.PtyHost

open Domain Lib Pty

/-! ## Commands and errors -/

/-- What a session can be asked to do.  A snapshot and an attach only read it. -/
inductive SessionCommand where
  | input (bytes : List UInt8)
  | resize (cols rows : UInt16)
  | stop | read

inductive RegistryError where
  | ended
  | input (message : String)
  | inputTimeout | controlTimeout | applicationIndeterminate | dedupCapacity

def RegistryError.text (id : PtySessionId) : RegistryError → String
  | .ended => s!"session {id} has ended"
  | .input message => s!"input write to session {id} failed: {message}"
  | .inputTimeout => s!"input write to session {id} exceeded the delivery deadline"
  | .controlTimeout => s!"control delivery to session {id} exceeded the delivery deadline"
  | .applicationIndeterminate =>
    s!"application by session {id} was not confirmed before the delivery deadline"
  | .dedupCapacity => "the PTY delivery deduplication window is full of unsettled commands"

namespace SessionCommand

/-- The deadline passed before the queue took the command: `input` and `control` differ. -/
def sendTimeout : SessionCommand → RegistryError
  | .input _ => .inputTimeout
  | _ => .applicationIndeterminate

/-- The deadline passed before the task answered: they differ the other way round. -/
def answerTimeout : SessionCommand → RegistryError
  | .input _ => .applicationIndeterminate
  | _ => .controlTimeout

end SessionCommand

/-! ## The session task -/

def DELTA_CHANNEL_CAPACITY : Nat := 64

/-- Where the task stands; the command it works on is the one its mailbox has out. -/
inductive Task where
  | idle
  | writing (left : List UInt8)
  | stopping | ended
  deriving DecidableEq

/-- A session: its mailbox, its task, and the tickets of the commands that took effect. -/
structure Session where
  mailbox : Mailbox SessionCommand (Except String Unit)
  task : Task
  executed : List Nat

def Session.enlist (session : Session) (ticket : Nat) (command : SessionCommand) : Session :=
  { session with mailbox := session.mailbox.enlist ticket command }

/-- How `Session::resize` and the frame after it went. -/
inductive ResizeOutcome where
  | applied
  | refused (message : String)
  | unrendered

inductive SessionEvent where
  | take
  | resized (outcome : ResizeOutcome)
  | write | written
  | writeFailed (message : String)
  | stopped (result : Except String Unit)
  | exits

/-- `run`, one event at a time.  A byte on the PTY, a new size and the end of the child are
the effects of a command.  A task that ends drops the replies it owes. -/
inductive Session.Step : Session → SessionEvent → Session → Prop where
  | takeInput {session : Session} {ticket : Nat} {bytes : List UInt8}
      {rest : List (Nat × SessionCommand)} (idle : session.task = .idle)
      (first : session.mailbox.queue = (ticket, .input bytes) :: rest) :
      Step session .take
        { session with mailbox := session.mailbox.take ticket rest, task := .writing bytes }
  /-- The kill is on its way, and the session ends whatever comes of it. -/
  | takeStop {session : Session} {ticket : Nat} {rest : List (Nat × SessionCommand)}
      (idle : session.task = .idle)
      (first : session.mailbox.queue = (ticket, .stop) :: rest) :
      Step session .take
        { mailbox := session.mailbox.take ticket rest
          task := .stopping
          executed := ticket :: session.executed }
  | takeRead {session : Session} {ticket : Nat} {rest : List (Nat × SessionCommand)}
      (idle : session.task = .idle)
      (first : session.mailbox.queue = (ticket, .read) :: rest) :
      Step session .take
        { session with mailbox := (session.mailbox.take ticket rest).answer ticket (.ok ()) }
  | resized {session : Session} {ticket : Nat} {cols rows : UInt16}
      {rest : List (Nat × SessionCommand)} (idle : session.task = .idle)
      (first : session.mailbox.queue = (ticket, .resize cols rows) :: rest) :
      Step session (.resized .applied)
        { session with
          mailbox := (session.mailbox.take ticket rest).answer ticket (.ok ())
          executed := ticket :: session.executed }
  | resizeRefused {session : Session} {ticket : Nat} {cols rows : UInt16}
      {rest : List (Nat × SessionCommand)} (message : String) (idle : session.task = .idle)
      (first : session.mailbox.queue = (ticket, .resize cols rows) :: rest) :
      Step session (.resized (.refused message))
        { session with
          mailbox := (session.mailbox.take ticket rest).answer ticket (.error message) }
  /-- The size is set, the frame after it fails, and the task returns without a reply. -/
  | unrendered {session : Session} {ticket : Nat} {cols rows : UInt16}
      {rest : List (Nat × SessionCommand)} (idle : session.task = .idle)
      (first : session.mailbox.queue = (ticket, .resize cols rows) :: rest) :
      Step session (.resized .unrendered)
        { mailbox := (session.mailbox.take ticket rest).close
          task := .ended
          executed := ticket :: session.executed }
  | write {session : Session} {ticket : Nat} {byte : UInt8} {left : List UInt8}
      (writing : session.task = .writing (byte :: left))
      (working : session.mailbox.taken = some ticket) :
      Step session .write
        { session with task := .writing left, executed := ticket :: session.executed }
  | written {session : Session} {ticket : Nat} (writing : session.task = .writing [])
      (working : session.mailbox.taken = some ticket) :
      Step session .written
        { session with mailbox := session.mailbox.answer ticket (.ok ()), task := .idle }
  | writeFailed {session : Session} {ticket : Nat} {left : List UInt8} (message : String)
      (writing : session.task = .writing left)
      (working : session.mailbox.taken = some ticket) :
      Step session (.writeFailed message)
        { session with mailbox := session.mailbox.answer ticket (.error message), task := .idle }
  | stopped {session : Session} {ticket : Nat} (result : Except String Unit)
      (stopping : session.task = .stopping)
      (working : session.mailbox.taken = some ticket) :
      Step session (.stopped result)
        { session with mailbox := (session.mailbox.answer ticket result).close, task := .ended }
  /-- The child exits, or the PTY cannot be read. -/
  | exits {session : Session} (idle : session.task = .idle) :
      Step session .exits { session with mailbox := session.mailbox.close, task := .ended }

/-! ## The connection -/

structure Delivery where
  deliveryId : EventId
  commandId : CommandId
  sessionId : PtySessionId
  generation : PtySessionGeneration

inductive ServerControl where
  | ptyInput (delivery : Delivery) (byteSize : UInt64) (dataBase64 : String)
  | ptyResize (delivery : Delivery) (cols rows : UInt16)
  | ptyStop (delivery : Delivery)

def ServerControl.delivery : ServerControl → Delivery
  | .ptyInput delivery .. | .ptyResize delivery .. | .ptyStop delivery => delivery

variable (decode : String → Except String (List UInt8)) (input : Option PtySessionId)

/-- The session this connection may reach is the one the control names. -/
def checkRoute (kind : String) (sessionId : PtySessionId) : Except String Unit :=
  match input with
  | none => .error s!"this connection has no local session {kind} route"
  | some id => require (id = sessionId) s!"this publisher owns local session {id}"

/-- `consume_session_control`, up to the session itself; `decode` is the base64 decoder. -/
def consumeSessionControl : ServerControl → Except String SessionCommand
  | .ptyInput delivery byteSize dataBase64 => do
    checkRoute input "input" delivery.sessionId
    require (dataBase64.utf8ByteSize ≤ PTY_INPUT_MAX_BASE64_BYTES)
      s!"base64 carrier is {dataBase64.utf8ByteSize} bytes, maximum {PTY_INPUT_MAX_BASE64_BYTES}"
    let bytes ← (decode dataBase64).mapError fun error => s!"invalid base64: {error}"
    require (bytes.length ≤ PTY_INPUT_MAX_BYTES ∧ bytes.length = byteSize.toNat)
      s!"header declares {byteSize} bytes, decoded {bytes.length}, maximum {PTY_INPUT_MAX_BYTES}"
    return .input bytes
  | .ptyResize delivery cols rows => do
    checkRoute input "control" delivery.sessionId
    return .resize cols rows
  | .ptyStop delivery => do
    checkRoute input "control" delivery.sessionId
    return .stop

inductive Phase where
  | idle
  | sending (ticket : Nat) (delivery : Delivery) (command : SessionCommand)
  | waiting (ticket : Nat) (delivery : Delivery) (command : SessionCommand)
  /-- A stop waits for the task's end of the queue to go away. -/
  | closing (ticket : Nat) (delivery : Delivery)

/-- One session at the host, the window of the deliveries it applied, how many commands have
come up so far, and every acknowledgement sent. -/
structure Host where
  session : Session
  phase : Phase
  delivered : List EventId
  next : Nat
  acks : List (Nat × PtyDeliveryResult)

def Host.initial : Host where
  session := ⟨.empty, .idle, []⟩
  phase := .idle
  delivered := []
  next := 0
  acks := []

def DELIVERED_COMMANDS : Nat := 1024

def refusal (delivery : Delivery) (message : String) : PtyDeliveryResult :=
  .refused .validation (s!"could not apply PTY command {delivery.commandId} to " ++
      s!"{delivery.sessionId}:{delivery.generation}: {message}")

/-- `apply_session_control` once the operation is over.  An indeterminate application is not
acknowledged. -/
def Host.conclude (host : Host) (ticket : Nat) (delivery : Delivery) :
    Except RegistryError Unit → Host
  | .ok () =>
    { host with
      phase := .idle
      delivered := if delivery.deliveryId ∈ host.delivered then host.delivered
        else host.delivered ++ [delivery.deliveryId]
      acks := (ticket, .applied) :: host.acks }
  | .error .applicationIndeterminate => { host with phase := .idle }
  | .error error =>
    { host with
      phase := .idle
      acks := (ticket, refusal delivery (error.text delivery.sessionId)) :: host.acks }

/-- A control comes up: its own checks, the window of `apply_once`, and then the queue. -/
def Host.arrive (decode : String → Except String (List UInt8)) (input : Option PtySessionId)
    (host : Host) (control : ServerControl) : Host :=
  let delivery := control.delivery
  let arrived := { host with next := host.next + 1 }
  match consumeSessionControl decode input control with
  | .error message => { arrived with acks := (host.next, refusal delivery message) :: host.acks }
  | .ok command =>
    if delivery.deliveryId ∈ host.delivered then
      { arrived with acks := (host.next, .applied) :: host.acks }
    else if DELIVERED_COMMANDS ≤ host.delivered.length then
      arrived.conclude host.next delivery (.error .dedupCapacity)
    else { arrived with phase := .sending host.next delivery command }

def replied : Slot (Except String Unit) → Option (Except RegistryError Unit)
  | .empty => none
  | .filled (.ok ()) => some (.ok ())
  | .filled (.error message) => some (.error (.input message))
  | .dropped => some (.error .ended)

inductive HostAction where
  | arrive (control : ServerControl)
  | enlist | sendTimeout | sendClosed | answered | answerTimeout | closed | closeTimeout
  | settle (deliveryId : EventId)
  | abandon
  | others (command : SessionCommand)
  | session (event : SessionEvent)

inductive Host.Step (decode : String → Except String (List UInt8)) (input : Option PtySessionId) :
    Host → HostAction → Host → Prop where
  | arrive (host : Host) (control : ServerControl) (idle : host.phase = .idle) :
      Step decode input host (.arrive control) (host.arrive decode input control)
  | enlist {host : Host} {ticket : Nat} {delivery : Delivery} {command : SessionCommand}
      (sending : host.phase = .sending ticket delivery command)
      (isOpen : host.session.task ≠ .ended)
      (room : host.session.mailbox.queue.length < DELTA_CHANNEL_CAPACITY) :
      Step decode input host .enlist
        { host with
          session := host.session.enlist ticket command
          phase := .waiting ticket delivery command }
  /-- The queue is full, or the senders before this one hold its last places. -/
  | sendTimeout {host : Host} {ticket : Nat} {delivery : Delivery} {command : SessionCommand}
      (sending : host.phase = .sending ticket delivery command) :
      Step decode input host .sendTimeout
        (host.conclude ticket delivery (.error command.sendTimeout))
  | sendClosed {host : Host} {ticket : Nat} {delivery : Delivery} {command : SessionCommand}
      (sending : host.phase = .sending ticket delivery command)
      (ended : host.session.task = .ended) :
      Step decode input host .sendClosed (host.conclude ticket delivery (.error .ended))
  /-- A stop that was answered well is not over: it waits for the queue to close. -/
  | stopAnswered {host : Host} {ticket : Nat} {delivery : Delivery}
      (waiting : host.phase = .waiting ticket delivery .stop)
      (reply : replied (host.session.mailbox.slots ticket) = some (.ok ())) :
      Step decode input host .answered { host with phase := .closing ticket delivery }
  | answered {host : Host} {ticket : Nat} {delivery : Delivery} {command : SessionCommand}
      {result : Except RegistryError Unit}
      (waiting : host.phase = .waiting ticket delivery command)
      (reply : replied (host.session.mailbox.slots ticket) = some result)
      (final : command = .stop → result ≠ .ok ()) :
      Step decode input host .answered (host.conclude ticket delivery result)
  | answerTimeout {host : Host} {ticket : Nat} {delivery : Delivery} {command : SessionCommand}
      (waiting : host.phase = .waiting ticket delivery command)
      (silent : host.session.mailbox.slots ticket = .empty) :
      Step decode input host .answerTimeout
        (host.conclude ticket delivery (.error command.answerTimeout))
  | closed {host : Host} {ticket : Nat} {delivery : Delivery}
      (closing : host.phase = .closing ticket delivery)
      (ended : host.session.task = .ended) :
      Step decode input host .closed (host.conclude ticket delivery (.ok ()))
  | closeTimeout {host : Host} {ticket : Nat} {delivery : Delivery}
      (closing : host.phase = .closing ticket delivery)
      (running : host.session.task ≠ .ended) :
      Step decode input host .closeTimeout
        (host.conclude ticket delivery (.error .applicationIndeterminate))
  /-- The kernel has settled a delivery, and its place in the window is free. -/
  | settle (host : Host) (deliveryId : EventId) :
      Step decode input host (.settle deliveryId)
        { host with delivered := host.delivered.filter (· ≠ deliveryId) }
  /-- The connection is cut, or its task aborted. -/
  | abandon (host : Host) : Step decode input host .abandon { host with phase := .idle }
  /-- The host's own callers reach the session through the same queue. -/
  | others {host : Host} (command : SessionCommand) (isOpen : host.session.task ≠ .ended)
      (room : host.session.mailbox.queue.length < DELTA_CHANNEL_CAPACITY) :
      Step decode input host (.others command)
        { host with session := host.session.enlist host.next command, next := host.next + 1 }
  | session {host : Host} {event : SessionEvent} {session : Session}
      (step : host.session.Step event session) :
      Step decode input host (.session event) { host with session }

end Gridwork.PtyHost
