import Mathlib.Algebra.Order.Ring.Nat
import Mathlib.Data.List.Basic

/-!
# The wire protocol's error codes and bounds

The codes a client branches on, and the bounds that more than one party enforces:
the frame body, the slow consumer, the resident PTY sessions, the PTY grid and one batch of
PTY input.
-/

namespace Gridwork.Domain

/-- Why the kernel refused, in the vocabulary of the contract. -/
inductive KernelErrorCode where
  | handshake | unsupportedVersion | capability | validation | duplicateKey | frameSize | sealed
  | alreadyActive | notFound | indeterminate | staleVersion | illegalEdge | authority
  | idempotencyConflict | fenced | overloaded | slowConsumer | storage | schema | privilege
  | blobIntegrity | blobTombstoned
  deriving DecidableEq

def KernelErrorCode.asStr : KernelErrorCode → String
  | .handshake => "handshake"
  | .unsupportedVersion => "unsupported_version"
  | .capability => "capability"
  | .validation => "validation"
  | .duplicateKey => "duplicate_key"
  | .frameSize => "frame_size"
  | .sealed => "sealed"
  | .alreadyActive => "already_active"
  | .notFound => "not_found"
  | .indeterminate => "indeterminate"
  | .staleVersion => "stale_version"
  | .illegalEdge => "illegal_edge"
  | .authority => "authority"
  | .idempotencyConflict => "idempotency_conflict"
  | .fenced => "fenced"
  | .overloaded => "overloaded"
  | .slowConsumer => "slow_consumer"
  | .storage => "storage"
  | .schema => "schema"
  | .privilege => "privilege"
  | .blobIntegrity => "blob_integrity"
  | .blobTombstoned => "blob_tombstoned"

/-- The host's application result for a reverse PTY delivery. -/
inductive PtyDeliveryResult where
  | applied
  | refused (code : KernelErrorCode) (message : String)

/-! ## Bounds -/

def FRAME_BODY_MAX_BYTES : Nat := 4 * 1024 * 1024

def SLOW_CONSUMER_TIMEOUT_SECS : Nat := 30

def PTY_INPUT_MAX_BYTES : Nat := 64 * 1024

def PTY_INPUT_MAX_BASE64_BYTES : Nat := (PTY_INPUT_MAX_BYTES + 2) / 3 * 4

/-- Maximum resident PTY sessions, in the host and in the kernel's mirror. -/
def PTY_SESSION_MAX_COUNT : Nat := 64

/-- Largest PTY grid axis accepted from declarations, controls or publishes. -/
def PTY_GRID_MAX_AXIS : Nat := 1000

def PTY_GRID_MAX_CELLS : Nat := 100000

/-- A PTY geometry is non-zero and inside both allocation bounds. -/
def ptyGridDimensionsAreBounded (cols rows : UInt16) : Bool :=
  cols ≠ 0 && rows ≠ 0 && cols.toNat ≤ PTY_GRID_MAX_AXIS && rows.toNat ≤ PTY_GRID_MAX_AXIS &&
    cols.toNat * rows.toNat ≤ PTY_GRID_MAX_CELLS

end Gridwork.Domain
