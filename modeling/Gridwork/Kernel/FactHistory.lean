import Gridwork.Kernel.Acts

/-!
# Histories of Context facts

What a call of either append path does to the Context side of the database: nothing, or one fact
more in the log, which passed its check and was projected (`perform_factStep`).
-/

namespace Gridwork.Kernel

open Domain Lib Context List Std.TreeMap

variable {pg : Postgres} {codec : Codec} {Row : Type} {id key : String} {db : Db} {route : Route}
  {want : UInt32} {tables : Projections} {context : ContextTables}

/-! ## Steps -/

def Event.fact (event : Event) : Option ContextFact :=
  match event.payload with
  | .context payload => some payload.fact
  | _ => none

def contextFacts (events : List Event) : List ContextFact :=
  events.filterMap Event.fact

theorem contextFacts_append (events rest : List Event) :
    contextFacts (events ++ rest) = contextFacts events ++ contextFacts rest :=
  filterMap_append

theorem contextFacts_commands {rest : List Event}
    (commands : ∀ row ∈ rest, ∃ command, CommandEvent row command) : contextFacts rest = [] := by
  refine filterMap_eq_nil_iff.mpr fun row mem => ?_
  obtain ⟨command, isEvent⟩ := commands row mem
  rw [Event.fact, isEvent.payload]

theorem contextFacts_snoc {events : List Event} {row : Event} {fact : ContextFact}
    (isFact : row.fact = some fact) :
    contextFacts (events ++ [row]) = contextFacts events ++ [fact] := by
  rw [contextFacts_append, contextFacts, contextFacts, filterMap_cons, isFact]
  rfl

def KeepsAttempts (db after : Db) : Prop :=
  ∀ id, db.tables.derived.attempt.contains id → after.tables.derived.attempt.contains id

inductive FactStep (pg : Postgres) (codec : Codec) (db : Db) (act : Act) (after : Db) : Prop where
  | aside {rest : List Event}
      (idle : ∀ recording appended, act = .record recording →
        recordContextFact pg codec db recording = .ok appended → appended.replayed = true)
      (events : after.events = db.events ++ rest)
      (commands : ∀ row ∈ rest, ∃ command, CommandEvent row command)
      (tables : after.tables.context = db.tables.context) (attempts : KeepsAttempts db after)
  | landed {recording : Recording} {route : Route} {want : UInt32} {row : Event}
      {tables : Projections} (isRecord : act = .record recording)
      (routed : factRouteOf db.tables.context recording.fact = .ok route)
      (lands : RecordLands pg codec db recording route want row tables)
      (commits : recordContextFact pg codec db recording =
        .ok ⟨[row], false, recordLanding pg codec db recording row tables⟩)
      (result : after = recordLanding pg codec db recording row tables)

variable {row event : Event}

theorem contains_insert (rows : Rows Row) (key : String) (row : Row)
    (present : rows.contains id) : (rows.insert key row).contains id := by
  rw [Std.TreeMap.contains_insert, present, Bool.or_true]

theorem applyAttempt_contains {command : KernelCommand} {tasks : Rows Task}
    {leases : Rows Lease} {rows result : Rows Attempt}
    (applies : applyAttempt pg event command tasks leases rows = .ok result)
    (present : rows.contains id) : result.contains id := by
  cases command with
  | createAttempt =>
    simp only [applyAttempt, bind_ok, Rows.insertNew_ok, pure_ok] at applies
    obtain ⟨-, -, -, -, _, ⟨-, rfl⟩, -, -, -, -, rfl⟩ := applies
    exact contains_insert _ _ _ present
  | transitionAttempt | updateBudget | recordAttemptRuntime | recordAttemptOutcome | recordRound
  | recordFinding =>
    obtain ⟨_, _, _, -, -, -, -, rfl⟩ := revise_ok.mp applies
    exact contains_insert _ _ _ present
  | _ =>
    cases applies
    exact present

/-- **What one act does to the facts.** -/
theorem perform_factStep (db : Db) (act : Act) :
    FactStep pg codec db act (perform pg codec db act) := by
  have eq (act : Act) (other : Db) (events : other.events = db.events)
      (context : other.tables.context = db.tables.context)
      (derived : other.tables.derived = db.tables.derived)
      (idle : ∀ recording appended, act = .record recording →
        recordContextFact pg codec db recording = .ok appended → appended.replayed = true) :
      FactStep pg codec db act other :=
    .aside idle (events.trans (append_nil _).symm) (fun _ mem => nomatch mem)
      context fun id present => by rwa [derived]
  cases act with
  | submit call =>
    have idle (recording : Recording) (appended : Appended)
        (isRecord : Act.submit call = .record recording)
        (_ : recordContextFact pg codec db recording = .ok appended) : appended.replayed = true :=
      nomatch isRecord
    rw [perform]
    rcases submit_cases db call with
      ⟨refusal, unchanged⟩ | ⟨request, committed, passes, admits, step, unchanged⟩
    · rw [unchanged]
      exact eq _ db rfl rfl rfl idle
    · rw [unchanged]
      cases step with
      | replayed | refusedInput | paged | refusedControl => exact eq _ _ rfl rfl rfl idle
      | landed _ _ _ _ _ _ _ lands =>
        obtain ⟨kept, made⟩ := lands.made
        have isEvent := made.commandEvent passes
        obtain ⟨derived, attention, applies, -, rfl⟩ :=
          isEvent.applyEvent_ok.mp lands.projected
        refine .aside idle landing_events ?_ (by rw [landing_tables]) fun id present => ?_
        · intro row mem
          cases mem_singleton.mp mem
          exact ⟨_, isEvent⟩
        · rw [landing_tables]
          exact applyAttempt_contains (appliesDerived_of_eq_ok applies).attempt present
  | record recording =>
    simp only [perform]
    cases outcome : recordContextFact pg codec db recording with
    | error =>
      refine eq _ db rfl rfl rfl fun other appended isRecord commits => ?_
      cases isRecord
      rw [outcome] at commits
      cases commits
    | ok appended =>
      obtain ⟨-, route, routed, step⟩ := recordContextFact_ok.mp outcome
      cases step with
      | replayed =>
        refine eq _ db rfl rfl rfl fun other appended isRecord commits => ?_
        cases isRecord
        rw [outcome] at commits
        cases commits
        rfl
      | landed unused lands => exact .landed rfl routed lands outcome rfl

/-- The event of a recording, as it stands in the log. -/
structure FactRow (recording : Recording) (route : Route) (want : UInt32) (row : Event) :
    Prop where
  fact : row.fact = some recording.fact
  aggregate : row.aggregate = (route.aggregateType, route.aggregateId)
  eventType : row.eventType = route.eventType
  version : row.aggregateVersion = want + 1

section Landing

variable {recording : Recording}

section

variable (lands : RecordLands pg codec db recording route want row tables)
include lands

theorem RecordLands.factRow : FactRow recording route want row := by
  obtain ⟨occurred, payload, -, stored, isRow, -⟩ := insertEvent_ok.mp lands.inserted
  cases stored
  subst isRow
  exact ⟨rfl, rfl, rfl, rfl⟩

theorem RecordLands.contextFacts_eq :
    contextFacts (db.events ++ [row]) = contextFacts db.events ++ [recording.fact] :=
  contextFacts_snoc lands.factRow.fact

end

theorem factRouteOf_types (routed : factRouteOf db.tables.context recording.fact = .ok route) :
    route.aggregateType = recording.fact.eventName.aggregate.asStr ∧
      route.eventType = recording.fact.eventName.asStr ∧
      factTarget db.tables.context recording.fact = .ok route.aggregateId := by
  obtain ⟨aggregateId, target, isRoute⟩ := bind_ok.mp routed
  cases isRoute
  exact ⟨rfl, rfl, target⟩

theorem RecordLands.projectFact_eq
    (lands : RecordLands pg codec db recording route want row tables)
    (routed : factRouteOf db.tables.context recording.fact = .ok route) :
    projectFact (pg.asOf recording.moment.now) db.tables.derived.attempt db.tables.context
        recording.fact = .ok tables.context ∧ tables =
          { db.tables with context := tables.context } := by
  have isRow := lands.factRow
  have family : isContextAggregate row.aggregateType = true := by
    have type : row.aggregateType = route.aggregateType := congrArg Prod.fst isRow.aggregate
    rw [type, (factRouteOf_types routed).1]
    cases recording.fact <;> rfl
  have payload : row.payload = recording.payload := by
    obtain ⟨occurred, payload, -, stored, isRow, -⟩ := insertEvent_ok.mp lands.inserted
    cases stored
    rw [isRow]
    rfl
  have projects := lands.projected
  simp only [applyEvent, family, if_true, payload, Recording.payload, bind_ok, pure_ok] at projects
  obtain ⟨-, -, context, projected, rfl⟩ := projects
  exact ⟨projected, rfl⟩

theorem recordLanding_tables : (recordLanding pg codec db recording row tables).tables = tables :=
  checkpointIfDue_frame.2.1

end Landing

/-! ## Rows -/

def Certifies (fact : ContextFact) (row : FinalizationSupplement) : Prop :=
  ∃ run closedAt certifiedAt, fact = .assuranceCertified run row.manifestId row.id row.outputDigest
    row.verificationDigest row.approvalCount row.observationCount row.finalEventRoot
    row.lifecycleComplete row.assurance row.evidenceIds closedAt certifiedAt

/-- What a checked fact does to the truth tables: one row more in the table of its kind, or
nothing. -/
inductive Adds (db : Db) : ContextFact → ContextTables → Prop where
  | manifest {fact : ContextFact} {key : String} (row : ResolvedManifest)
      (unused : db.tables.context.manifest.contains key = false)
      (single : ∀ manifest ∈ db.tables.context.manifest.values, manifest.attemptId ≠ row.attemptId)
      (classes : checkParticipationClasses db.tables.context.blob row.participations = .ok ())
      (named : fact.eventName = .manifestResolved) :
      Adds db fact { db.tables.context with
        manifest := db.tables.context.manifest.insert key row }
  | release {fact : ContextFact} {key : String} (row : ReleaseSupplement)
      (unused : db.tables.context.release.contains key = false)
      (single : ∀ other ∈ db.tables.context.release.values, other.manifestId ≠ row.manifestId)
      (named : fact.eventName = .releaseRecorded)
      (released : fact.manifestId = some row.manifestId) :
      Adds db fact { db.tables.context with
        release := db.tables.context.release.insert key row }
  | observation {fact : ContextFact} {key : String} (row : ObservationSupplement)
      (unused : db.tables.context.observation.contains key = false)
      (next : row.observationIndex.value.toNat =
        highestObservation db.tables.context row.manifestId + 1)
      (named : fact.eventName = .observationAppended) :
      Adds db fact { db.tables.context with
        observation := db.tables.context.observation.insert key row }
  | finalization {fact : ContextFact} {key : String} (row : FinalizationSupplement)
      (unused : db.tables.context.finalization.contains key = false)
      (single : ∀ other ∈ db.tables.context.finalization.values, other.manifestId ≠ row.manifestId)
      (verified : requireVerified db.events row.manifestId row.verificationDigest = .ok ())
      (certified : Certifies fact row) :
      Adds db fact { db.tables.context with
        finalization := db.tables.context.finalization.insert key row }
  | nothing {fact : ContextFact} (named : fact.eventName ≠ .releaseRecorded) :
      Adds db fact db.tables.context

theorem absorb_ok {rows result : Rows Row} {row : Row}
    {constraints : Except Refusal Unit} (unused : rows.contains key = false) :
    absorb rows key row constraints = .ok result ↔
      constraints = .ok () ∧ result = rows.insert key row := by
  simp only [absorb, unused, Bool.false_eq_true, if_false, bind_ok, exists_unit, pure_ok]

/-- **A fact that lands adds its row.** -/
theorem adds_of_checked {fact : ContextFact} (checked : precheck db fact want = .ok ())
    (projected : projectFact pg db.tables.derived.attempt db.tables.context fact = .ok context) :
    Adds db fact context := by
  cases fact with
  | manifestResolved =>
    simp only [precheck, bind_ok, exists_unit, require_ok] at checked
    obtain ⟨-, unused, single, classes⟩ := checked
    simp only [projectFact, bind_ok, absorb_ok unused, pure_ok] at projected
    obtain ⟨time, -, _, ⟨-, rfl⟩, rfl⟩ := projected
    refine .manifest _ ?_ ?_ ?_ ?_
    exacts [unused, single, classes, rfl]
  | releaseRecorded =>
    simp only [precheck, bind_ok, exists_unit, require_ok] at checked
    obtain ⟨unused, single⟩ := checked
    simp only [projectFact, bind_ok, absorb_ok unused, pure_ok] at projected
    obtain ⟨time, -, _, ⟨-, rfl⟩, rfl⟩ := projected
    refine .release _ ?_ ?_ ?_ ?_
    exacts [unused, single, rfl, rfl]
  | observationAppended =>
    simp only [precheck, bind_ok, exists_unit, require_ok] at checked
    obtain ⟨-, -, unused, next⟩ := checked
    simp only [projectFact, bind_ok, absorb_ok unused, pure_ok] at projected
    obtain ⟨time, -, _, ⟨-, rfl⟩, rfl⟩ := projected
    refine .observation _ ?_ ?_ ?_
    exacts [unused, next, rfl]
  | assuranceCertified =>
    simp only [precheck, bind_ok, exists_unit, require_ok] at checked
    obtain ⟨-, -, unused, single, verified⟩ := checked
    simp only [projectFact, bind_ok, absorb_ok unused, pure_ok] at projected
    obtain ⟨time, -, _, ⟨-, rfl⟩, rfl⟩ := projected
    refine .finalization _ ?_ ?_ ?_ ?_
    exacts [unused, single, verified, ⟨_, _, _, rfl⟩]
  | _ =>
    cases projected
    exact .nothing nofun

/-! ## Content classes -/

/-- One call of `ContextCasStore::put`, as the classification table sees it.  `foreign` says that
the blob store already holds the bytes under a key label that is not the class's. -/
structure Put where
  address : Digest
  content : ContentClass
  foreign : Bool

/-- What a put leaves in the classification table.  Unclassified bytes of a foreign key domain are
refused before the claim.  The claim is `ON CONFLICT (digest) DO NOTHING`, and it stands whether or
not the upload after it succeeds. -/
def put (blobs : Rows ContentClass) (call : Put) : Rows ContentClass :=
  if blobs.contains call.address.asStr = false ∧ call.foreign then blobs
  else blobs.insertIfNew call.address.asStr call.content

inductive ContextAct where
  | act (act : Act)
  | put (call : Put)

def performContext (pg : Postgres) (codec : Codec) (db : Db) : ContextAct → Db
  | .act act => perform pg codec db act
  | .put call =>
    { db with tables.context.blob := put db.tables.context.blob call }

def contextHistory (pg : Postgres) (codec : Codec) (db : Db) (acts : List ContextAct) : Db :=
  acts.foldl (performContext pg codec) db

/-- No manifest states a class for some bytes that differs from the one their row holds. -/
def ClassesAgree (tables : ContextTables) : Prop :=
  ∀ manifest ∈ tables.manifest.values, ∀ stated ∈ manifest.participations.asSlice,
    ∀ content ∈ tables.blob[stated.digest.asStr]?, stated.contentClass = content
  deriving Decidable

/-- A put that classifies bytes for the first time gives them the class that every recorded
manifest states for them. -/
def Put.StatesClass (call : Put) (tables : ContextTables) : Prop :=
  tables.blob.contains call.address.asStr = false → call.foreign = false →
    ∀ manifest ∈ tables.manifest.values, ∀ stated ∈ manifest.participations.asSlice,
      stated.digest.asStr = call.address.asStr → stated.contentClass = call.content

theorem put_getElem? (blobs : Rows ContentClass) (call : Put) (key : String) :
    (put blobs call)[key]? =
      if blobs.contains call.address.asStr = false ∧ call.foreign = false ∧
        key = call.address.asStr then some call.content else blobs[key]? := by
  rw [put]
  cases present : blobs.contains call.address.asStr <;> cases call.foreign <;>
    simp [Std.TreeMap.getElem?_insertIfNew, ← Std.TreeMap.contains_iff_mem, present,
      eq_comm (a := key)]

theorem put_classesAgree_iff (tables : ContextTables) (call : Put) :
    ClassesAgree { tables with blob := put tables.blob call } ↔
      ClassesAgree tables ∧ call.StatesClass tables := by
  simp only [ClassesAgree, Put.StatesClass, put_getElem?]
  constructor
  · intro agree
    refine ⟨fun manifest mem stated listed content holds => ?_,
      fun unclassified own manifest mem stated listed eq => ?_⟩
    · refine agree manifest mem stated listed content ?_
      rwa [if_neg]
      rintro ⟨unclassified, -, eq⟩
      rw [← eq, contains_eq_isSome_getElem?, holds] at unclassified
      cases unclassified
    · exact agree manifest mem stated listed _ (by rw [if_pos ⟨unclassified, own, eq⟩]; rfl)
  · rintro ⟨agree, states⟩ manifest mem stated listed content holds
    split at holds
    next first =>
      cases holds
      exact states first.1 first.2.1 manifest mem stated listed first.2.2
    next => exact agree manifest mem stated listed content holds

theorem Adds.classesAgree_iff {fact : ContextFact}
    (adds : Adds db fact context) : ClassesAgree context ↔ ClassesAgree db.tables.context := by
  cases adds with
  | manifest row unused single classes =>
    have states : ∀ stated ∈ row.participations.asSlice,
        ∀ content ∈ db.tables.context.blob[stated.digest.asStr]?,
          stated.contentClass = content := by
      intro stated listed content holds
      simp only [checkParticipationClasses, forM_ok, require_ok, Prod.forall,
        mem_toList_iff_getElem?_eq_some] at classes
      exact classes _ _ holds stated listed rfl
    simp only [ClassesAgree, (Rows.values_insert_perm unused row).mem_iff, forall_mem_cons]
    exact and_iff_right states
  | _ => exact Iff.rfl

theorem perform_classesAgree_iff (db : Db) (act : ContextAct) :
    ClassesAgree (performContext pg codec db act).tables.context ↔ ClassesAgree db.tables.context ∧
        ∀ call, act = .put call → call.StatesClass db.tables.context := by
  cases act with
  | put call => simp [performContext, put_classesAgree_iff]
  | act act =>
    simp only [performContext, reduceCtorEq, false_implies, implies_true, and_true]
    cases perform_factStep db act with
    | aside _ _ _ tables => rw [tables]
    | landed _ routed lands _ result =>
      rw [result, recordLanding_tables]
      exact (adds_of_checked lands.checked (lands.projectFact_eq routed).1).classesAgree_iff

/-- **Which histories keep the classes in agreement.**  In a history of calls, recorded facts and
puts, every participation of a recorded manifest states the class that the row of its digest holds
exactly when no put gave bytes, at their first classification, another class than a manifest had
stated for them. -/
theorem history_classesAgree_iff {initial : Db} (init : Initialised pg codec initial)
    (acts : List ContextAct) :
    ClassesAgree (contextHistory pg codec initial acts).tables.context ↔
      ∀ before call later, acts = before ++ .put call :: later →
        call.StatesClass (contextHistory pg codec initial before).tables.context := by
  obtain ⟨genesis, opened⟩ := init.opened
  have initially : ClassesAgree initial.tables.context := by
    rw [opened.tables]
    exact fun manifest mem => nomatch mem
  refine (foldl_iff_splits (fun db : Db => ClassesAgree db.tables.context) (fun _ => True) trivial
    initially (fun _ _ _ => trivial) (fun db act _ => perform_classesAgree_iff db act) acts).trans
      ?_
  constructor
  · intro fine before call later split
    exact fine before _ later split call rfl
  · rintro fine before item later split call rfl
    exact fine before call later split

namespace Sample

def noEvidence : EvidenceRefs := ⟨[], by decide, nofun⟩

def zeroCount : RecordCount := ⟨0, by decide⟩

theorem name_legal : ∀ name ∈ ["r", "s", "o", "f"], idIsValid name = .ok () := by
  decide

def runId : ContextRunId := ⟨"r", name_legal _ (by simp)⟩

def releaseId : ReleaseSupplementId := ⟨"s", name_legal _ (by simp)⟩

def observationId : ObservationSupplementId := ⟨"o", name_legal _ (by simp)⟩

def finalizationId : FinalizationSupplementId := ⟨"f", name_legal _ (by simp)⟩

/-- The manifest `m` of the attempt `a` states that some bytes are open for conformance. -/
def resolved (time : Timestamp) : ContextFact :=
  .manifestResolved attribution.derivedFrom "a" digest digest digest zeroCount 0
    ⟨[⟨digest, .conformance, .active, none, none⟩], by decide, by decide⟩ noEvidence time

def recording (fact : ContextFact) (idempotencyKey : IdempotencyKey) : Recording :=
  { requested "p" idempotencyKey with fact }

/-- The attempt `a` of a task exists. -/
def attempting : List Act :=
  [.submit activate, .submit (call (.createTask "t" none none none none none none) "k1" operator),
    .submit (call (.createAttempt "a" "t" "e" none none none none none none none) "k2" operator)]

def manifested (time : Timestamp) : List ContextAct :=
  (attempting ++ [Act.record (recording (resolved time) "k3")]).map .act

/-- The manifest is recorded, and its bytes are put under a class. -/
def classified (content : ContentClass) : List ContextAct :=
  manifested "p" ++ [.put ⟨digest, content, false⟩]

def recordings (facts : List ContextFact) : List ContextAct :=
  (facts.zip ["r1", "r2", "r3", "r4", "r5", "r6"]).map fun (fact, key) =>
    .act (.record (recording fact key))

def opened : ContextFact := .runOpened runId attribution.derivedFrom releaseId "p"

/-- The manifest is verified and released, and a run on it is observed, closed and certified. -/
def certified : List ContextAct :=
  manifested "p" ++ recordings
    [.manifestVerificationRecorded attribution.derivedFrom digest .verified digest noEvidence "p",
      .releaseRecorded attribution.derivedFrom releaseId digest digest 0 zeroCount noEvidence "p",
      opened,
      .observationAppended runId attribution.derivedFrom observationId ⟨1, by decide⟩ digest 0
        zeroCount false noEvidence "p",
      .runClosed runId finalizationId digest zeroCount true "p",
      .assuranceCertified runId attribution.derivedFrom finalizationId digest digest
        zeroCount zeroCount digest true .trace noEvidence "p" "p"]

end Sample

open Sample in
theorem history_classesAgree_conformance :
    ClassesAgree (contextHistory postgres Sample.codec initial
        (classified .conformance)).tables.context ∧
      Put.StatesClass ⟨digest, .conformance, false⟩
        (contextHistory postgres Sample.codec initial
          (manifested "p")).tables.context :=
  ⟨by decide +kernel,
    (history_classesAgree_iff init (classified .conformance)).mp
      (by decide +kernel) (manifested "p") _ [] rfl⟩

theorem history_classesAgree_fails_private :
    ¬ ClassesAgree (contextHistory Sample.postgres Sample.codec Sample.initial
      (Sample.classified .privateContent)).tables.context := by
  decide +kernel

end Gridwork.Kernel
