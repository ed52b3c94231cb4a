import Gridwork.Domain.Json

/-!
# Event and command envelopes

The two records every party agrees on.  The contract's identifiers are opaque
strings compared byte for byte, its 64-bit counters are `u64`, and its versions are
`u32`.
-/

namespace Gridwork.Domain

/-! ## Identifiers and scalars -/

abbrev EventId := String
abbrev CommandId := String
abbrev ProjectId := String
abbrev AggregateId := String
abbrev CorrelationId := String
abbrev IdempotencyKey := String
abbrev ReceiptId := String

/-- An RFC 3339 timestamp, carried opaquely. -/
abbrev Timestamp := String

abbrev Seq := UInt64

abbrev ByteCount := UInt64

/-! ## Envelopes -/

/-- The envelope schema version this contract reads and writes. -/
def ENVELOPE_SCHEMA_VERSION : UInt32 := 1

/-- Inline `payload` bound, in serialized bytes. -/
def INLINE_PAYLOAD_MAX_BYTES : Nat := 64 * 1024

structure Actor where
  kind : String
  id : Option String
  deriving DecidableEq

structure Origin where
  system : String
  ref : Option String
  deriving DecidableEq

/-- Reference to an out-of-line, content-addressed payload blob. -/
structure PayloadRef where
  (digest mediaType : String)
  byteSize : ByteCount
  retentionClass : Option String
  evidencePin : Option Bool
  deriving DecidableEq

/-- One appended event, with a payload of type `Payload`. -/
structure EventEnvelope (Payload : Type) where
  eventId : EventId
  projectId : ProjectId
  aggregateType : String
  aggregateId : AggregateId
  aggregateVersion : UInt32
  eventType : String
  schemaVersion : UInt32
  globalSequence : Seq
  (occurredAt appendedAt : Timestamp)
  actor : Actor
  origin : Origin
  causationId : Option EventId
  correlationId : Option CorrelationId
  idempotencyKey : Option IdempotencyKey
  payload : Payload
  payloadRef : Option PayloadRef
  deriving DecidableEq

def EventEnvelope.aggregate {Payload : Type} (event : EventEnvelope Payload) :
    String × AggregateId :=
  (event.aggregateType, event.aggregateId)

def aggregateEvents {Payload : Type} (aggregate : String × AggregateId)
    (events : List (EventEnvelope Payload)) : List (EventEnvelope Payload) :=
  events.filter fun event => event.aggregate = aggregate

/-! ## Schema versions -/

/-- A consumer met a `schema_version` it cannot read and has no upcaster for. -/
structure UnknownSchemaVersion where
  (found supported : UInt32)

instance : ToString UnknownSchemaVersion where
  toString err := "unknown schema_version " ++ toString err.found ++ " (supported: " ++
    toString err.supported ++ ", no upcaster registered)"

/-- Accept `found` iff it is the supported version or an upcaster covers it. -/
def acceptSchemaVersion (found supported : UInt32) (upcastFrom : List UInt32) :
    Except UnknownSchemaVersion Unit :=
  if found = supported ∨ found ∈ upcastFrom then .ok ()
  else .error { found, supported }

end Gridwork.Domain
