import Gridwork.Domain.Envelope
import Gridwork.Lib.Counter

/-!
# The four public state machines and the transition function

Each machine is an enumeration with a fixed table of edges; terminality is derived
from the table.  `apply` is the one transition algorithm every writer goes
through: the actor guard first, then the idempotent echo, then the edge, then the
version.
-/

namespace Gridwork.Domain

open Lib

/-! ## State machines as data -/

/-- A state machine whose full shape is data.  `parse` is the derived
deserializer: it accepts the snake_case variant names and nothing else. -/
class StateMachine (S : Type) where
  states : List S
  edges : List (S × S)
  wire : S → String
  wire_injective : Function.Injective wire
  mem_states : ∀ s : S, s ∈ states

namespace StateMachine

variable {S : Type} [StateMachine S]

def parse (name : String) : Option S :=
  (states : List S).find? fun state => wire state == name

theorem wire_of_parse {name : String} {state : S} (parsed : parse name = some state) :
    wire state = name := by
  simpa using List.find?_some parsed

@[simp] theorem parse_wire (state : S) : parse (wire state) = some state := by
  cases hit : (parse (wire state) : Option S) with
  | none =>
    have missing := List.find?_eq_none.mp hit state (mem_states state)
    simp at missing
  | some other => rw [wire_injective (wire_of_parse hit)]

variable [DecidableEq S]

def isTerminal (state : S) : Bool :=
  !(edges : List (S × S)).any fun edge => decide (edge.1 = state)

def canTransition (source target : S) : Bool :=
  decide ((source, target) ∈ (edges : List (S × S)))

end StateMachine

inductive TaskState where
  | submitted | working | inputRequired | completed | failed | canceled
  deriving DecidableEq

inductive AttemptState where
  | queued | leased | starting | running | blocked | canceling | canceled | failed | unknown
  | succeeded
  deriving DecidableEq

inductive MessageState where
  | accepted | delivered | acknowledged | applied | rejected | deadLetter
  deriving DecidableEq

inductive CommandState where
  | issued | targeted | signaled | verificationComplete
  deriving DecidableEq

inductive Outcome where
  | clean | partly | unknown
  deriving DecidableEq

def TaskState.wire : TaskState → String
  | .submitted => "submitted"
  | .working => "working"
  | .inputRequired => "input_required"
  | .completed => "completed"
  | .failed => "failed"
  | .canceled => "canceled"

def AttemptState.wire : AttemptState → String
  | .queued => "queued"
  | .leased => "leased"
  | .starting => "starting"
  | .running => "running"
  | .blocked => "blocked"
  | .canceling => "canceling"
  | .canceled => "canceled"
  | .failed => "failed"
  | .unknown => "unknown"
  | .succeeded => "succeeded"

def MessageState.wire : MessageState → String
  | .accepted => "accepted"
  | .delivered => "delivered"
  | .acknowledged => "acknowledged"
  | .applied => "applied"
  | .rejected => "rejected"
  | .deadLetter => "dead_letter"

def CommandState.wire : CommandState → String
  | .issued => "issued"
  | .targeted => "targeted"
  | .signaled => "signaled"
  | .verificationComplete => "verification_complete"

instance : StateMachine TaskState where
  states := [.submitted, .working, .inputRequired, .completed, .failed, .canceled]
  edges := [ (.submitted, .working), (.submitted, .canceled), (.working, .inputRequired),
    (.working, .completed),
    (.working, .failed),
    (.working, .canceled),
    (.inputRequired, .working),
    (.inputRequired, .canceled)]
  wire := TaskState.wire
  wire_injective := by
    intro left right eq
    cases left <;> cases right <;> first | rfl | exact absurd eq (by decide)
  mem_states state := by cases state <;> decide

instance : StateMachine AttemptState where
  states := [.queued, .leased, .starting, .running, .blocked, .canceling, .canceled, .failed,
    .unknown, .succeeded]
  edges := [ (.queued, .leased), (.queued, .canceled), (.leased, .starting), (.leased, .canceled),
    (.starting, .running),
    (.starting, .failed),
    (.starting, .unknown),
    (.starting, .canceling),
    (.running, .blocked),
    (.running, .canceling),
    (.running, .failed),
    (.running, .unknown),
    (.running, .succeeded),
    (.blocked, .running),
    (.blocked, .canceling),
    (.blocked, .failed),
    (.blocked, .unknown),
    (.canceling, .canceled),
    (.canceling, .unknown)]
  wire := AttemptState.wire
  wire_injective := by
    intro left right eq
    cases left <;> cases right <;> first | rfl | exact absurd eq (by decide)
  mem_states state := by cases state <;> decide

instance : StateMachine MessageState where
  states := [.accepted, .delivered, .acknowledged, .applied, .rejected, .deadLetter]
  edges := [ (.accepted, .delivered), (.accepted, .deadLetter), (.delivered, .acknowledged),
    (.delivered, .deadLetter),
    (.acknowledged, .applied),
    (.acknowledged, .rejected),
    (.acknowledged, .deadLetter)]
  wire := MessageState.wire
  wire_injective := by
    intro left right eq
    cases left <;> cases right <;> first | rfl | exact absurd eq (by decide)
  mem_states state := by cases state <;> decide

instance : StateMachine CommandState where
  states := [.issued, .targeted, .signaled, .verificationComplete]
  edges := [ (.issued, .targeted), (.targeted, .signaled), (.signaled, .verificationComplete)]
  wire := CommandState.wire
  wire_injective := by
    intro left right eq
    cases left <;> cases right <;> first | rfl | exact absurd eq (by decide)
  mem_states state := by cases state <;> decide

/-! ## Guards -/

/-- The actor `kind` of the one legal writer of the `running` ⇄ `blocked` flip. -/
def LIVENESS_PRODUCER_KIND : String := "liveness_producer"

inductive GuardViolation where
  | wrongActor (requiredKind : String)
  | missingReceipt

instance : ToString GuardViolation where
  toString
    | .wrongActor requiredKind => "edge requires actor kind " ++ requiredKind
    | .missingReceipt => "edge requires a receipt"

structure GuardCtx where
  actor : Actor
  receiptId : Option ReceiptId

/-- Per-machine actor rules layered over edge legality. -/
class TransitionGuard (S : Type) extends StateMachine S where
  guard : S → S → GuardCtx → Except GuardViolation Unit := fun _ _ _ => .ok ()

instance : TransitionGuard TaskState where
instance : TransitionGuard MessageState where
instance : TransitionGuard CommandState where

/-- The flip between `running` and `blocked`, in either direction. -/
def AttemptState.isFlip : AttemptState → AttemptState → Bool
  | .running, .blocked => true
  | .blocked, .running => true
  | _, _ => false

def receiptMissing (receiptId : Option ReceiptId) : Bool :=
  receiptId.all fun receipt => receipt.isEmpty

instance : TransitionGuard AttemptState where
  guard source target ctx :=
    if AttemptState.isFlip source target then
      if ctx.actor.kind ≠ LIVENESS_PRODUCER_KIND then
        .error (.wrongActor LIVENESS_PRODUCER_KIND)
      else if receiptMissing ctx.receiptId then .error .missingReceipt
      else .ok ()
    else .ok ()

/-! ## The transition function -/

/-- An aggregate's current position: state, version, and the idempotency key of the
last applied transition with the actor that recorded it. -/
structure Cursor (S : Type) where
  state : S
  version : UInt32
  appliedIdempotencyKey : Option IdempotencyKey
  appliedBy : Option Actor

structure TransitionRequest (S : Type) where
  target : S
  expectedVersion : UInt32
  actor : Actor
  idempotencyKey : Option IdempotencyKey
  receiptId : Option ReceiptId

/-- What `apply` decided. -/
inductive TransitionResult (S : Type) where
  | applied (state : S) (version : UInt32)
  | illegalEdge (source target : S)
  | staleVersion (actual expected : UInt32)
  | unauthorizedActor (reason : String)
  deriving DecidableEq

variable {S : Type} [DecidableEq S] [TransitionGuard S]

/-- A request repeats the last applied transition: same key, same target, same
actor. -/
def isEcho (cursor : Cursor S) (req : TransitionRequest S) : Bool :=
  match req.idempotencyKey, cursor.appliedIdempotencyKey with
  | some key, some applied =>
    decide (key = applied ∧ cursor.state = req.target ∧ cursor.appliedBy = some req.actor)
  | _, _ => false

/-- Decide one transition: guard, idempotent echo, edge legality, version. -/
def apply (cursor : Cursor S) (req : TransitionRequest S) : TransitionResult S :=
  match TransitionGuard.guard cursor.state req.target ⟨req.actor, req.receiptId⟩ with
  | .error violation => .unauthorizedActor (toString violation)
  | .ok () =>
    if isEcho cursor req then .applied cursor.state cursor.version
    else if !StateMachine.canTransition cursor.state req.target then
      .illegalEdge cursor.state req.target
    else if cursor.version ≠ req.expectedVersion then
      .staleVersion cursor.version req.expectedVersion
    else
      match checkedSucc req.expectedVersion with
      | none => .staleVersion cursor.version req.expectedVersion
      | some nextVersion => .applied req.target nextVersion

theorem apply_eq_applied_of_unkeyed {cursor : Cursor S} {req : TransitionRequest S} {next : UInt32}
    (unkeyed : req.idempotencyKey = none)
    (guarded : TransitionGuard.guard cursor.state req.target ⟨req.actor, req.receiptId⟩ = .ok ())
    (legal : StateMachine.canTransition cursor.state req.target = true)
    (current : cursor.version = req.expectedVersion)
    (following : next.toNat = req.expectedVersion.toNat + 1) :
    apply cursor req = .applied req.target next := by
  have fresh : isEcho cursor req = false := by simp [isEcho, unkeyed]
  simp [apply, guarded, fresh, legal, current, (checkedSucc_some _ _).mpr following]

/-! ## The machines by aggregate type -/

inductive Machine where
  | task | attempt | message | command
  deriving DecidableEq

namespace Machine

def aggregateType : Machine → String
  | .task => "task"
  | .attempt => "attempt"
  | .message => "message"
  | .command => "command"

abbrev State : Machine → Type
  | .task => TaskState
  | .attempt => AttemptState
  | .message => MessageState
  | .command => CommandState

instance : (machine : Machine) → DecidableEq machine.State
  | .task => inferInstanceAs (DecidableEq TaskState)
  | .attempt => inferInstanceAs (DecidableEq AttemptState)
  | .message => inferInstanceAs (DecidableEq MessageState)
  | .command => inferInstanceAs (DecidableEq CommandState)

instance : (machine : Machine) → TransitionGuard machine.State
  | .task => inferInstanceAs (TransitionGuard TaskState)
  | .attempt => inferInstanceAs (TransitionGuard AttemptState)
  | .message => inferInstanceAs (TransitionGuard MessageState)
  | .command => inferInstanceAs (TransitionGuard CommandState)

def initial : (machine : Machine) → machine.State
  | .task => TaskState.submitted
  | .attempt => AttemptState.queued
  | .message => MessageState.accepted
  | .command => CommandState.issued

end Machine

end Gridwork.Domain
