import Gridwork.Kernel.Tables

/-!
# The settlement of a delivery

The columns of a delivery row that say how its delivery stands, and every statement of the
kernel that changes them.  The table's checks leave five combinations of the columns, and
`Settlement` has one constructor for each: a row that is claimed and settled at once cannot
be built.
-/

namespace Gridwork.Delivery

open Domain
open Kernel (Instant)

inductive Settlement where
  | pending
  | claimed (token : String) (claimedUntil : Instant)
  | delivered (deliveredAt : Instant)
  | failed (failedAt : Instant) (code : KernelErrorCode) (message : String)
  | indeterminate (indeterminateAt : Instant)
  deriving DecidableEq

def Settlement.live (now : Instant) : Settlement → Bool
  | claimed _ claimedUntil => now < claimedUntil
  | _ => false

/-- Seconds a claim lasts: one deadline for the queue, one for the acknowledgement, and a
margin. -/
def PTY_DELIVERY_LEASE_SECS : Nat := SLOW_CONSUMER_TIMEOUT_SECS * 2 + 5

def deliveryLease : Int := PTY_DELIVERY_LEASE_SECS * 1000000

def acknowledged (now : Instant) : PtyDeliveryResult → Settlement
  | .applied => .delivered now
  | .refused code message => .failed now code message

inductive Statement where
  /-- A later attempt finds a claim that has run out. -/
  | expire (now : Instant)
  | claim (token : String) (now : Instant)
  | release (token : String)
  /-- `settle_pty_delivery`. -/
  | settle (token : String) (now : Instant) (result : PtyDeliveryResult)
  /-- `abandon_pty_delivery`. -/
  | abandon (token : String) (now : Instant)
  /-- `reconcile_pty_delivery`. -/
  | reconcile (now : Instant)
  /-- `quarantine_orphaned_pty_deliveries`. -/
  | quarantine (now : Instant)

namespace Statement

/-- The columns a statement leaves, if the row meets its condition. -/
def update : Statement → Settlement → Option Settlement
  | expire now, .claimed .. => some (.indeterminate now)
  | claim token now, .pending => some (.claimed token (now + deliveryLease))
  | release token, .claimed held _ => if held = token then some .pending else none
  | settle token now result, .claimed held _ =>
    if held = token then some (acknowledged now result) else none
  | abandon token now, .claimed held _ => if held = token then some (.indeterminate now) else none
  | reconcile now, .indeterminate _ => some (.delivered now)
  | quarantine now, .pending | quarantine now, .claimed .. => some (.indeterminate now)
  | _, _ => none

def run (statement : Statement) (settlement : Settlement) : Settlement :=
  (statement.update settlement).getD settlement

end Statement

/-! ## States that stay -/

def Settlement.Final : Settlement → Prop
  | delivered _ | failed .. => True
  | pending | claimed .. | indeterminate _ => False

/-- `delivered_at`, `failed_at` or `indeterminate_at` is set. -/
def Settlement.Settled : Settlement → Prop
  | delivered _ | failed .. | indeterminate _ => True
  | pending | claimed .. => False

instance (settlement : Settlement) : Decidable settlement.Settled :=
  match settlement with
  | .delivered _ | .failed .. | .indeterminate _ => .isTrue trivial
  | .pending | .claimed .. => .isFalse id

theorem acknowledged_final (now : Instant) (result : PtyDeliveryResult) :
    (acknowledged now result).Final := by
  cases result with
  | applied | refused => trivial

namespace Statement

variable {settlement : Settlement}

/-- **No statement changes a final row.** -/
theorem run_final (statement : Statement) (final : settlement.Final) :
    statement.run settlement = settlement := by
  cases settlement with
  | delivered | failed => cases statement <;> rfl
  | _ => exact final.elim

theorem run_settled (statement : Statement) (settled : settlement.Settled) :
    (statement.run settlement).Settled := by
  cases settlement with
  | delivered | failed | indeterminate => cases statement <;> trivial
  | pending | claimed => exact settled.elim

theorem settle_final {token : String} {now : Instant} {result : PtyDeliveryResult}
    (matched : ((settle token now result).update settlement).isSome) :
    ((settle token now result).run settlement).Final := by
  cases settlement with
  | pending | delivered | failed | indeterminate => cases matched
  | claimed held claimedUntil =>
    by_cases eq : held = token
    · simp only [run, update, if_pos eq, Option.getD_some]
      exact acknowledged_final now result
    · simp [update, eq] at matched

theorem pending_of_run {statement : Statement} (isPending : statement.run settlement = .pending) :
    settlement = .pending ∨ ∃ token claimedUntil, statement = .release token ∧
      settlement = .claimed token claimedUntil := by
  cases settlement with
  | pending => exact .inl rfl
  | delivered | failed | indeterminate => cases statement <;> cases isPending
  | claimed held claimedUntil =>
    cases statement with
    | release token =>
      by_cases eq : held = token
      · exact .inr ⟨token, claimedUntil, rfl, by rw [eq]⟩
      · simp [run, update, eq] at isPending
    | settle token now result =>
      by_cases eq : held = token
      · cases result <;> simp [run, update, eq, acknowledged] at isPending
      · simp [run, update, eq] at isPending
    | abandon token now => by_cases eq : held = token <;> simp [run, update, eq] at isPending
    | _ => cases isPending

end Statement

end Gridwork.Delivery
