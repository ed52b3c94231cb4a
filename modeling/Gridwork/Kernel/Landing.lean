import Mathlib
import Gridwork.Kernel.Versions
import Gridwork.Lib.Text

/-!
# Landing an accepted command

Between the decision on a command and its event in the log stand the checks `Room`
collects: the envelope's own version, the version of the aggregate in the log, the ceilings
of the counters and the size of the body.  The unique indexes of the log are no further
obstacle: ids are injective in the aggregate and the version, so the next event of an
aggregate under an unused key always finds a place (`LogInvariant.indexesFree`).
-/

namespace Gridwork.Kernel

open Domain Lib Prod

variable {pg : Postgres} {codec : Codec} {db : Db} {event row : Event} {request : Request}
  {want version otherVersion : UInt32} {call : Call} {tables : Projections}

/-! ## Room in the log -/

theorem colon_notMem_address (command : KernelCommand) : ':' ∉ command.address.1.toList := by
  cases command <;> (simp only [KernelCommand.address]; decide)

theorem LogInvariant.colon_notMem (log : LogInvariant db)
    (mem : event ∈ db.events) : ':' ∉ event.aggregateType.toList := by
  rcases log.known event mem with genesis | ⟨command, isCommand⟩
  · have named : event.aggregateType = KERNEL_AGGREGATE := congrArg fst genesis.aggregate
    rw [named]
    decide
  · have typed : event.aggregateType = command.address.1 := congrArg fst isCommand.address
    rw [typed]
    exact colon_notMem_address command

theorem LogInvariant.named (log : LogInvariant db) (mem : event ∈ db.events) :
    event.eventId = eventIdOf event.aggregateType event.aggregateId event.aggregateVersion := by
  rcases log.known event mem with genesis | ⟨command, isCommand⟩
  · exact genesis.named
  · exact isCommand.named

theorem eventIdOf_inj {aggregateType otherType : String} {aggregateId otherId : AggregateId}
    (free : ':' ∉ aggregateType.toList)
    (otherFree : ':' ∉ otherType.toList)
    (eq : eventIdOf aggregateType aggregateId version =
      eventIdOf otherType otherId otherVersion) :
    aggregateType = otherType ∧ aggregateId = otherId ∧ version = otherVersion := by
  obtain ⟨sameType, sameId, sameVersion⟩ := colonJoin_inj free otherFree
    (colon_notMem_toString version.toNat) (colon_notMem_toString otherVersion.toNat) eq
  exact ⟨sameType, sameId, UInt32.toNat_inj.mp (Nat.repr_inj.mp sameVersion)⟩

theorem LogInvariant.indexesFree (log : LogInvariant db)
    (colonFree : ':' ∉ row.aggregateType.toList)
    (named : row.eventId = eventIdOf row.aggregateType row.aggregateId row.aggregateVersion)
    (sequence : row.globalSequence = db.writer.nextSeq)
    (version : (currentAggregateVersion db.events row.aggregateType row.aggregateId).toNat <
      row.aggregateVersion.toNat) {key : IdempotencyKey} (keyed : row.idempotencyKey = some key)
    (unused : eventsForKey db.events row.projectId row.aggregateType row.aggregateId key = []) :
    eventIndexesFree db.events row := by
  intro other mem
  -- the row is at a version its aggregate has not reached
  have ahead (eq : other.aggregate = row.aggregate) :
      other.aggregateVersion ≠ row.aggregateVersion := by
    obtain ⟨sameType, sameId⟩ := Prod.ext_iff.mp eq
    have reached := le_currentAggregateVersion mem
    rw [show other.aggregateType = row.aggregateType from sameType,
      show other.aggregateId = row.aggregateId from sameId] at reached
    intro equal
    rw [equal] at reached
    omega
  refine ⟨?_, ?_, ahead, ?_⟩
  · intro equal
    have below := log.sequenced other mem
    rw [equal, sequence] at below
    exact lt_irrefl _ below
  · intro equal
    rw [log.named mem, named] at equal
    obtain ⟨sameType, sameId, sameVersion⟩ :=
      eventIdOf_inj (log.colon_notMem mem) colonFree equal
    exact ahead (Prod.ext sameType sameId) sameVersion
  · intro _ sameKey
    simp only [eventsForKey, List.filter_eq_nil_iff, decide_eq_true_eq, not_and, not_or] at unused
    obtain ⟨otherProject, otherAggregate⟩ := unused other mem (sameKey.trans keyed)
    refine ⟨?_, otherProject⟩
    intro eq
    obtain ⟨sameType, sameId⟩ := Prod.ext_iff.mp eq
    exact otherAggregate sameType sameId

/-! ## Inserting -/

/-- The checks between the decision and the append, and those of the append itself. -/
structure Room (codec : Codec) (db : Db) (call : Call) (request : Request) (want : UInt32) :
    Prop where
  agreed : ∀ version ∈ call.envelope.expectedVersion, version = want
  current : currentAggregateVersion db.events request.route.aggregateType
    request.route.aggregateId = want
  below : want.toNat + 1 < 2 ^ 32
  fits : codec.inlineSize (.command request.command) ≤ INLINE_PAYLOAD_MAX_BYTES
  sequenced : db.writer.nextSeq.toNat + 1 < 2 ^ 64

theorem Lands.withReceipts
    (lands : Lands pg codec db call request want row tables) (receipts : Rows Receipt) :
    Lands pg codec { db with receipts } call request want row tables :=
  ⟨lands.agreed, lands.below, lands.fits, lands.current, lands.inserted, lands.sequenced,
    lands.projected, lands.delivered⟩

theorem Lands.room {receipts : Rows Receipt}
    (lands : Lands pg codec { db with receipts } call request want row tables) :
    Room codec db call request want :=
  ⟨lands.agreed, lands.current, lands.below, lands.fits, lands.sequenced⟩

/-- What the insertion of an accepted command's event leaves in the log. -/
structure Inserts (pg : Postgres) (db : Db) (call : Call) (request : Request) (want : UInt32)
    (row : Event) : Prop where
  isEvent : CommandEvent row request.command
  aggregate : row.aggregate = (request.route.aggregateType, request.route.aggregateId)
  version : row.aggregateVersion = want + 1
  appended : (pg.asOf call.moment.now).instant row.appendedAt = some call.moment.now
  free : eventIndexesFree db.events row
  inserted : insertEvent pg call.moment.now db.events db.writer.nextSeq
    (commandEvent call.envelope request.command request.route (want + 1)) = .ok row

theorem exists_inserts {issued : Instant} (log : LogInvariant db)
    (passes : Passes codec call request) (fresh : Fresh db call request)
    (plain : storedBody pg (.command request.command) = some (.command request.command))
    (dated : pg.reads call.moment.now call.envelope.issuedAt = some issued)
    (room : Room codec db call request want) :
    ∃ row, Inserts pg db call request want row := by
  obtain ⟨-, -, -, address⟩ := routeOf_ok.mp passes.routed
  obtain ⟨row, isRow⟩ : ∃ row, row = storedRow pg call.moment.now db.writer.nextSeq
      (commandEvent call.envelope request.command request.route (want + 1)) issued
      (.command request.command) := ⟨_, rfl⟩
  have isEvent : CommandEvent row request.command := by
    rw [isRow]
    exact ⟨rfl, address, rfl, rfl⟩
  have aggregate : row.aggregate = (request.route.aggregateType, request.route.aggregateId) := by
    rw [isRow]
    rfl
  have version : row.aggregateVersion = want + 1 := by
    rw [isRow]
    rfl
  have free : eventIndexesFree db.events row := by
    have colonFree : ':' ∉ row.aggregateType.toList := by
      have typed : row.aggregateType = request.command.address.1 :=
        congrArg fst isEvent.address
      rw [typed]
      exact colon_notMem_address request.command
    have ahead : (currentAggregateVersion db.events row.aggregateType row.aggregateId).toNat <
        row.aggregateVersion.toNat := by
      rw [version, toNat_succ room.below, isRow]
      exact Nat.lt_succ_of_le (Nat.le_of_eq (congrArg UInt32.toNat room.current))
    have unused : eventsForKey db.events row.projectId row.aggregateType row.aggregateId
        call.envelope.idempotencyKey = [] := by
      rw [isRow]
      exact fresh.unused
    refine log.indexesFree colonFree isEvent.named ?_ ahead ?_ unused
    · rw [isRow]
      rfl
    · rw [isRow]
      rfl
  refine ⟨row, isEvent, aggregate, version, ?_, free,
    insertEvent_ok.mpr ⟨issued, _, dated, plain, isRow, free⟩⟩
  rw [isRow]
  exact (pg.asOf _).instant_render call.moment.now

end Gridwork.Kernel
