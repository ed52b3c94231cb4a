import Gridwork.Kernel.History
import Gridwork.Kernel.RecordFact

/-!
# Histories of both append paths

`recordContextFact_ok` says what a recorded fact does to the database: nothing, when
its key already named it, or one event more on the aggregate of its route.  An `Act` is a
call of either path, and `history` is the database a list of acts leaves.
-/

namespace Gridwork.Kernel

open Domain Lib List

variable {pg : Postgres} {codec : Codec} {recording : Recording} {tables : Projections} {db : Db}
  {row : Event} {appended : Appended}

/-! ## Recording -/

/-- The event of a recording lands as `row`, and projects to `tables`. -/
structure RecordLands (pg : Postgres) (codec : Codec) (db : Db) (recording : Recording)
    (route : Route) (want : UInt32) (row : Event) (tables : Projections) : Prop where
  current : currentAggregateVersion db.events route.aggregateType route.aggregateId = want
  checked : precheck db recording.fact want = .ok ()
  below : want.toNat + 1 < 2 ^ 32
  fits : codec.inlineSize recording.payload ≤ INLINE_PAYLOAD_MAX_BYTES
  inserted : insertEvent pg recording.moment.now db.events db.writer.nextSeq
    (contextEvent recording route (want + 1)) = .ok row
  sequenced : db.writer.nextSeq.toNat + 1 < 2 ^ 64
  projected : applyEvent (pg.asOf recording.moment.now) row db.tables = .ok tables

def recordLanding (pg : Postgres) (codec : Codec) (db : Db) (recording : Recording) (row : Event)
    (tables : Projections) : Db :=
  checkpointIfDue pg codec recording.store db.writer recording.moment.now [row] { db with
      events := db.events ++ [row]
      writer := { db.writer with nextSeq := db.writer.nextSeq + 1 }
      tables }

@[simp] theorem recordLanding_events :
    (recordLanding pg codec db recording row tables).events = db.events ++ [row] :=
  checkpointIfDue_frame.1

@[simp] theorem recordLanding_epoch :
    (recordLanding pg codec db recording row tables).writer.epoch = db.writer.epoch :=
  checkpointIfDue_frame.2.2.2.2.1

@[simp] theorem recordLanding_nextSeq :
    (recordLanding pg codec db recording row tables).writer.nextSeq = db.writer.nextSeq + 1 :=
  checkpointIfDue_frame.2.2.2.2.2

/-- What a recording must meet before it is routed. -/
structure RecordAdmits (db : Db) (recording : Recording) : Prop where
  permit : recording.moment.permit = true
  answers : storageAnswers recording.moment = .ok ()
  locked : db.writer.epoch = recording.store.bootEpoch
  active : epochOf db.events = .active

inductive RecordStep (pg : Postgres) (codec : Codec) (db : Db) (recording : Recording)
    (route : Route) : Appended → Prop where
  /-- The key already named this recording. -/
  | replayed {row : Event}
      (stored : eventsForKey db.events recording.projectId route.aggregateType route.aggregateId
        recording.idempotencyKey = [row])
      (named : recording.named route row) :
      RecordStep pg codec db recording route { events := [row], replayed := true, db }
  /-- The fact landed. -/
  | landed {want : UInt32} {row : Event} {tables : Projections}
      (unused : eventsForKey db.events recording.projectId route.aggregateType route.aggregateId
        recording.idempotencyKey = [])
      (lands : RecordLands pg codec db recording route want row tables) :
      RecordStep pg codec db recording route
        { events := [row]
          replayed := false
          db := recordLanding pg codec db recording row tables }

theorem recordNew_ok {route : Route}
    (unused : eventsForKey db.events recording.projectId route.aggregateType route.aggregateId
      recording.idempotencyKey = []) :
    recordNew pg codec db recording route = .ok appended ↔
      ∃ want row tables, RecordLands pg codec db recording route want row tables ∧
        appended = {
          events := [row]
          replayed := false
          db := recordLanding pg codec db recording row tables } := by
  have stored (version : UInt32) : storedUnderKeys db.events
      (contextEvent recording route version) [contextEvent recording route version] = [] :=
    storedUnderKeys_eq_nil rfl unused
  obtain ⟨want, current⟩ : ∃ want,
      currentAggregateVersion db.events route.aggregateType route.aggregateId = want :=
    ⟨_, rfl⟩
  simp only [recordNew, current, bind_ok, exists_unit]
  constructor
  · rintro ⟨checked, appends⟩
    split at appends
    next => cases appends
    next version succeeds =>
      simp only [bind_ok, mapError_ok, pure_ok] at appends
      obtain ⟨inLog, append, projected, project, rfl⟩ := appends
      obtain ⟨row, valid, -, inserted, sequenced, rfl⟩ :=
        (appendLocked_singleton (stored _)).mp append
      obtain ⟨below, -, -, fits⟩ := validateBatch_singleton.mp valid
      have next : version = want + 1 :=
        Option.some.inj (succeeds.symm.trans (checkedSucc_below below))
      subst next
      simp only [projectAppended, Bool.false_eq_true, if_false, foldlM_cons, foldlM_nil,
        bind_pure, bind_ok, pure_ok] at project
      obtain ⟨tables, applies, rfl⟩ := project
      exact ⟨want, row, tables,
        ⟨current, checked, below, fits, inserted, sequenced, applies⟩, rfl⟩
  · rintro ⟨version, row, tables, lands, rfl⟩
    obtain rfl : want = version := current.symm.trans lands.current
    have versioned : (contextEvent recording route (want + 1)).schemaVersion ≠ 0 := by
      change ENVELOPE_SCHEMA_VERSION ≠ 0
      decide
    refine ⟨lands.checked, ?_⟩
    simp only [checkedSucc_below lands.below, bind_ok, mapError_ok, pure_ok]
    refine ⟨_, (appendLocked_singleton (stored _)).mpr ⟨row, validateBatch_singleton.mpr
      ⟨lands.below, toNat_succ lands.below, versioned, lands.fits⟩, lands.current, lands.inserted,
      lands.sequenced, rfl⟩, ?_⟩
    simp only [projectAppended, Bool.false_eq_true, if_false, foldlM_cons, foldlM_nil,
      bind_pure, bind_ok, pure_ok]
    exact ⟨_, ⟨tables, lands.projected, rfl⟩, rfl⟩

/-- **A recording commits exactly the steps.** -/
theorem recordContextFact_ok :
    recordContextFact pg codec db recording = .ok appended ↔ RecordAdmits db recording ∧ ∃ route,
        factRouteOf db.tables.context recording.fact = .ok route ∧
        RecordStep pg codec db recording route appended := by
  simp only [recordContextFact, bind_ok, exists_unit, mapError_ok, lockWriter, require_ok]
  constructor
  · rintro ⟨permit, answers, locked, active, route, routed, committing⟩
    refine ⟨⟨permit, answers, locked, active⟩, route, routed, ?_⟩
    cases stored : eventsForKey db.events recording.projectId route.aggregateType
        route.aggregateId recording.idempotencyKey with
    | nil =>
      simp only [stored] at committing
      obtain ⟨want, row, tables, lands, rfl⟩ := (recordNew_ok stored).mp committing
      exact .landed stored lands
    | cons first rest =>
      simp only [stored, bind_ok, exists_unit, require_ok, pure_ok] at committing
      obtain ⟨⟨rfl, named⟩, rfl⟩ := committing
      exact .replayed stored named
  · rintro ⟨⟨permit, answers, locked, active⟩, route, routed, step⟩
    refine ⟨permit, answers, locked, active, route, routed, ?_⟩
    cases step with
    | replayed stored named =>
      simp only [stored, bind_ok, exists_unit, require_ok, pure_ok]
      exact ⟨⟨trivial, named⟩, trivial⟩
    | landed unused lands =>
      simp only [unused]
      exact (recordNew_ok unused).mpr ⟨_, _, _, lands, rfl⟩

/-! ## Acts -/

inductive Act where
  | submit (call : Call)
  | record (recording : Recording)

def perform (pg : Postgres) (codec : Codec) (db : Db) : Act → Db
  | .submit call => (submit pg codec db call).2
  | .record recording =>
    match recordContextFact pg codec db recording with
    | .ok appended => appended.db
    | .error _ => db

def history (pg : Postgres) (codec : Codec) (db : Db) (acts : List Act) : Db :=
  acts.foldl (perform pg codec) db

end Gridwork.Kernel

namespace Gridwork.Kernel.Sample

open Domain Context

theorem zeros_legal : isSha256Hex zeros = true := by
  decide

def digest : Digest := ⟨zeros, zeros_legal⟩

def attribution : ContextAttribution where
  compiler := ⟨"compiler", by decide, by decide⟩
  routeDigest := digest
  authorityDigest := digest
  derivedFrom := ⟨"m", by decide⟩

/-- A project asks for a compilation for the attempt `a`. -/
def requested (projectId : ProjectId) (idempotencyKey : IdempotencyKey) : Recording where
  store := store
  moment := moment
  projectId := projectId
  idempotencyKey := idempotencyKey
  attribution := attribution
  fact := .compilationRequested "a" digest digest "p"

end Gridwork.Kernel.Sample
