import Gridwork.Kernel.Store

/-!
# The authority gate

Which commands carry a risk class, and what the grants on record say about one of them.
The PTY classes have an actor boundary of their own: the operator is authorized, the
orchestrator needs a live grant, and nobody else is asked.
-/

namespace Gridwork.Kernel

open Domain Lib

def PTY_INPUT_ACTION_CLASS : String := "pty_input"
def PTY_CONTROL_ACTION_CLASS : String := "pty_control"
def PTY_START_ACTION_CLASS : String := "pty_start"
def PTY_TEMPLATE_ACTION_CLASS : String := "pty_template"

/-- The commands with a risk class, and their classes. -/
def RISK_CLASS : List (String × String) :=
  [("issue_command", "stop"), ("record_evidence:config_change", "config_change"),
    ("send_pty_input", PTY_INPUT_ACTION_CLASS),
    ("resize_pty_session", PTY_CONTROL_ACTION_CLASS),
    ("stop_pty_session", PTY_CONTROL_ACTION_CLASS),
    ("request_pty_session_start", PTY_START_ACTION_CLASS),
    ("declare_pty_session_template", PTY_TEMPLATE_ACTION_CLASS),
    ("retire_pty_session_template", PTY_TEMPLATE_ACTION_CLASS)]

def MATCHING_GRANT_BASIS : String := "matching unexpired scoped grant"
def OPERATOR_BASIS : String := "operator authority"
def UNGRANTED_BASIS : String := "no matching unexpired scoped grant"
def ACTOR_KIND_BASIS : String := "actor kind is neither operator nor orchestrator"

/-- The command has no class, may go on, or pages the operator. -/
inductive Decision where
  | unclassified
  | allow (actionClass observedBasis : String)
  | page (actionClass observedBasis : String)

/-- The key the classes are consulted with: evidence is refined by its kind. -/
def classificationKey (commandType : String) : KernelCommand → String
  | .recordEvidence _ kind .. =>
    if kind = "config_change" then "record_evidence:config_change" else commandType
  | _ => commandType

def classOf (commandType : String) : Option String :=
  RISK_CLASS.lookup commandType

def isPtyAction (actionClass : String) : Bool :=
  actionClass ∈ [PTY_INPUT_ACTION_CLASS, PTY_CONTROL_ACTION_CLASS, PTY_START_ACTION_CLASS,
    PTY_TEMPLATE_ACTION_CLASS]

/-- A grant covers an actor, a class and a subject, its expiry aside. -/
def AuthorityGrant.covers (grant : AuthorityGrant) (actor : Actor) (actionClass subject : String) :
    Bool :=
  grant.actionClass = actionClass ∧ grant.grantee = actor ∧
    (grant.scope = none ∨ grant.scope = some subject) ∧ grant.revokedAt = none

def AuthorityGrant.unexpired (grant : AuthorityGrant) (time : Instant) : Bool :=
  grant.expiresAt.all fun expiry => time < expiry

variable (pg : Postgres) (grants : Rows AuthorityGrant) (envelope : CommandEnvelope)

/-- `matching_grant`.  The command's own time is read only for a grant that has an expiry
to compare it with. -/
def matchingGrant (actionClass subject : String) (clock : Instant) : Except Refusal Bool :=
  let covering := grants.values.filter (·.covers envelope.actor actionClass subject)
  if covering.any (·.expiresAt.isNone) then .ok true
  else if isPtyAction actionClass then .ok (covering.any (·.unexpired clock))
  else if covering.isEmpty then .ok false
  else do
    let issued ← timestamptz pg "read authority grants" envelope.issuedAt
    return covering.any (·.unexpired issued)

def decisionOf (actionClass : String) (allowed : Bool) : Decision :=
  if allowed then .allow actionClass MATCHING_GRANT_BASIS
  else .page actionClass UNGRANTED_BASIS

def evaluateClass (actionClass subject : String) (clock : Instant) : Except Refusal Decision :=
  if isPtyAction actionClass ∧ envelope.actor.kind = "operator" then
    .ok (.allow actionClass OPERATOR_BASIS)
  else if isPtyAction actionClass ∧ envelope.actor.kind ≠ "orchestrator" then
    .ok (.page actionClass ACTOR_KIND_BASIS)
  else (matchingGrant pg grants envelope actionClass subject clock).map (decisionOf actionClass)

def evaluate (commandType subject : String) (clock : Instant) : Except Refusal Decision :=
  match classOf commandType with
  | none => .ok .unclassified
  | some actionClass => evaluateClass pg grants envelope actionClass subject clock

end Gridwork.Kernel
