import Gridwork.Kernel.FactHistory
import Gridwork.Kernel.Versions

/-!
# The lifecycle of Context runs

A run has no table: it is the facts of its aggregate.  `Lifecycle` says what the facts of a log
should keep to: a run is opened on a released manifest, what is recorded under it names that
manifest, nothing is observed after its close and nothing is certified before it.  The check of a
fact reads the version of the run's aggregate only.  `history_lifecycle_iff` says which histories
keep to the lifecycle all the same.
-/

namespace Gridwork.Kernel

open Domain Lib Context List ContextAggregate

variable {pg : Postgres} {codec : Codec} {db : Db} {want : UInt32} {route : Route}

/-! ## The law -/

def ContextFact.runId : ContextFact → Option ContextRunId
  | .runOpened runId .. | .observationAppended runId .. | .runClosed runId ..
  | .assuranceCertified runId .. => some runId
  | _ => none

/-- The facts of one name about a run. -/
def ofRun (facts : List ContextFact) (name : ContextEventName) (runId : ContextRunId) :
    List ContextFact :=
  facts.filter fun fact => fact.eventName = name ∧ fact.runId = some runId

/-- The run was opened on this manifest, if at all. -/
def NamesOpened (facts : List ContextFact) (runId : ContextRunId) (manifestId : ManifestId) :
    Prop :=
  ∀ opening ∈ ofRun facts .runOpened runId, opening.manifestId = some manifestId
  deriving Decidable

/-- What the facts before a fact have to say. -/
def Lawful (before : List ContextFact) : ContextFact → Prop
  | .runOpened _ manifestId .. =>
    ∃ fact ∈ before, fact.eventName = .releaseRecorded ∧ fact.manifestId = some manifestId
  | .observationAppended runId manifestId .. =>
    ofRun before .runOpened runId ≠ [] ∧ NamesOpened before runId manifestId ∧
      ofRun before .runClosed runId = []
  | .assuranceCertified runId manifestId .. =>
    ofRun before .runOpened runId ≠ [] ∧ NamesOpened before runId manifestId ∧
      ofRun before .runClosed runId ≠ []
  | _ => True

/-- Every fact is lawful where it stands. -/
def Lifecycle (facts : List ContextFact) : Prop :=
  ∀ before fact later, facts = before ++ fact :: later → Lawful before fact

/-- The checks that `precheck` does not make: the manifest of an opening has a release row, and an
observation or a certification names the manifest of its run, before or after the run's close. -/
def RunChecks (db : Db) : ContextFact → Prop
  | .runOpened _ manifestId .. =>
    ∃ release ∈ db.tables.context.release.values, release.manifestId = manifestId
  | .observationAppended runId manifestId .. =>
    NamesOpened (contextFacts db.events) runId manifestId ∧
      ofRun (contextFacts db.events) .runClosed runId = []
  | .assuranceCertified runId manifestId .. =>
    NamesOpened (contextFacts db.events) runId manifestId ∧
      ofRun (contextFacts db.events) .runClosed runId ≠ []
  | _ => True

/-- The recording is admitted on an unused key, and its event has room in the log and in the
tables. -/
def Recording.Lands (pg : Postgres) (codec : Codec) (db : Db) (recording : Recording) : Prop :=
  RecordAdmits db recording ∧ ∃ route want row tables,
    factRouteOf db.tables.context recording.fact = .ok route ∧
    eventsForKey db.events recording.projectId route.aggregateType route.aggregateId
      recording.idempotencyKey = [] ∧
    RecordLands pg codec db recording route want row tables

theorem Recording.lands_iff {recording : Recording} : recording.Lands pg codec db ↔
    ∃ appended, recordContextFact pg codec db recording = .ok appended ∧
      appended.replayed = false := by
  constructor
  · rintro ⟨admits, route, want, row, tables, routed, unused, lands⟩
    exact ⟨_, recordContextFact_ok.mpr ⟨admits, route, routed, .landed unused lands⟩, rfl⟩
  · rintro ⟨appended, commits, new⟩
    obtain ⟨admits, route, routed, step⟩ := recordContextFact_ok.mp commits
    cases step with
    | replayed => cases new
    | landed unused lands => exact ⟨admits, route, _, _, _, routed, unused, lands⟩

variable {fact : ContextFact} {facts : List ContextFact}

theorem lifecycle_snoc : Lifecycle (facts ++ [fact]) ↔ Lifecycle facts ∧ Lawful facts fact :=
  forall_split_snoc

/-! ## What the tables and versions say of the facts -/

/-- The release rows are the releases of the log, and a run with a version has been opened. -/
structure RunsKnown (db : Db) : Prop where
  released : ∀ manifestId,
    (∃ release ∈ db.tables.context.release.values, release.manifestId = manifestId) ↔
      ∃ fact ∈ contextFacts db.events, fact.eventName = .releaseRecorded ∧
        fact.manifestId = some manifestId
  opened : ∀ runId : ContextRunId,
    currentAggregateVersion db.events ContextAggregate.contextRun.asStr runId.text ≠ 0 →
      ofRun (contextFacts db.events) .runOpened runId ≠ []

theorem lawful_iff_runChecks (known : RunsKnown db)
    (routed : factRouteOf db.tables.context fact = .ok route)
    (current : currentAggregateVersion db.events route.aggregateType route.aggregateId = want)
    (checked : precheck db fact want = .ok ()) :
    Lawful (contextFacts db.events) fact ↔ RunChecks db fact := by
  cases fact with
  | runOpened _ manifestId => exact (known.released manifestId).symm
  | observationAppended runId | assuranceCertified runId =>
    cases routed
    simp only [precheck, requireRun, bind_ok, exists_unit, require_ok] at checked
    exact and_iff_right (known.opened runId (current.symm ▸ checked.1))
  | _ => exact Iff.rfl

theorem ofRun_append (facts rest : List ContextFact) (name : ContextEventName)
    (runId : ContextRunId) : ofRun (facts ++ rest) name runId =
      ofRun facts name runId ++ ofRun rest name runId :=
  filter_append ..

theorem Adds.released {context : ContextTables} (adds : Adds db fact context)
    (manifestId : ManifestId) :
    (∃ release ∈ context.release.values, release.manifestId = manifestId) ↔
      (∃ release ∈ db.tables.context.release.values, release.manifestId = manifestId) ∨
        fact.eventName = .releaseRecorded ∧ fact.manifestId = some manifestId := by
  cases adds with
  | release row unused _ named released =>
    simp only [(Rows.values_insert_perm unused row).mem_iff, mem_cons, exists_eq_or_imp, named,
      released, Option.some.injEq, true_and]
    exact or_comm
  | manifest _ _ _ _ named | observation _ _ _ named => simp [named]
  | finalization _ _ _ _ certified =>
    obtain ⟨run, closedAt, certifiedAt, rfl⟩ := certified
    simp [ContextFact.eventName]
  | nothing named => simp [named]

theorem currentAggregateVersion_append_commands {events rest : List Event} {id : AggregateId}
    (commands : ∀ row ∈ rest, ∃ command, CommandEvent row command) :
    currentAggregateVersion (events ++ rest) contextRun.asStr id =
      currentAggregateVersion events contextRun.asStr id := by
  have none : aggregateEvents (contextRun.asStr, id) rest = [] := by
    refine eq_nil_iff_forall_not_mem.mpr fun row mem => ?_
    obtain ⟨listed, own⟩ := mem_aggregateEvents.mp mem
    obtain ⟨command, isEvent⟩ := commands row listed
    have type : command.address.1 = contextRun.asStr :=
      (congrArg Prod.fst isEvent.address).symm.trans (congrArg Prod.fst own)
    have foreign := isContextAggregate_address command
    rw [type] at foreign
    exact absurd foreign (by decide)
  have eq : aggregateEvents (contextRun.asStr, id) (events ++ rest) =
      aggregateEvents (contextRun.asStr, id) events := by
    rw [aggregateEvents, filter_append]
    exact (congrArg _ none).trans (append_nil _)
  rw [currentAggregateVersion, eq, currentAggregateVersion]

theorem opened_of_checked {runId : ContextRunId} (known : RunsKnown db)
    (routed : factRouteOf db.tables.context fact = .ok route)
    (current : currentAggregateVersion db.events route.aggregateType route.aggregateId = want)
    (checked : precheck db fact want = .ok ()) (own : (route.aggregateType, route.aggregateId) =
      (contextRun.asStr, runId.text)) :
    ofRun (contextFacts db.events ++ [fact]) .runOpened runId ≠ [] := by
  obtain ⟨type, id⟩ := Prod.mk.inj own
  rw [type, id] at current
  rw [ofRun_append]
  cases fact with
  | runOpened other =>
    cases routed
    have eq : other = runId := by
      cases other
      cases runId
      cases id
      rfl
    simp [ofRun, ContextFact.eventName, ContextFact.runId, eq]
  | observationAppended | assuranceCertified =>
    simp only [precheck, requireRun, bind_ok, exists_unit, require_ok] at checked
    exact append_ne_nil_of_left_ne_nil (known.opened runId (current.symm ▸ checked.1)) _
  | runClosed =>
    simp only [precheck, requireRun, require_ok] at checked
    exact append_ne_nil_of_left_ne_nil (known.opened runId (current.symm ▸ checked)) _
  | _ =>
    obtain ⟨aggregateId, -, isRoute⟩ := bind_ok.mp routed
    cases isRoute
    exact absurd type (by simp [ContextFact.eventName, ContextEventName.aggregate, asStr])

theorem perform_runsKnown (known : RunsKnown db) (act : ContextAct) :
    RunsKnown (performContext pg codec db act) := by
  cases act with
  | put call => exact ⟨known.1, known.2⟩
  | act act =>
    have step : FactStep pg codec db act _ := perform_factStep db act
    rw [performContext]
    cases step with
    | aside idle events commands tables attempts =>
      have facts : contextFacts (perform pg codec db act).events = contextFacts db.events := by
        rw [events, contextFacts_append, contextFacts_commands commands, append_nil]
      refine ⟨fun manifestId => ?_, fun runId versioned => ?_⟩
      · rw [facts, tables]
        exact known.released manifestId
      · rw [facts]
        rw [events, currentAggregateVersion_append_commands commands] at versioned
        exact known.opened runId versioned
    | @landed recording route want row tables isRecord routed lands commits result =>
      have facts := lands.contextFacts_eq
      have adds := adds_of_checked lands.checked (lands.projectFact_eq routed).1
      rw [result]
      refine ⟨fun manifestId => ?_, fun runId versioned => ?_⟩
      · rw [recordLanding_tables, recordLanding_events, facts, adds.released manifestId,
          known.released manifestId]
        simp only [mem_append, mem_singleton, or_and_right, exists_or, exists_eq_left]
      · rw [recordLanding_events] at versioned ⊢
        rw [facts]
        by_cases own : row.aggregate = (contextRun.asStr, runId.text)
        · exact opened_of_checked known routed lands.current lands.checked
            (lands.factRow.aggregate.symm.trans own)
        · rw [currentAggregateVersion_snoc_of_ne own] at versioned
          rw [ofRun_append]
          exact append_ne_nil_of_left_ne_nil (known.opened runId versioned) _

/-! ## Histories -/

theorem perform_lifecycle_iff (known : RunsKnown db) (act : ContextAct) :
    Lifecycle (contextFacts (performContext pg codec db act).events) ↔
      Lifecycle (contextFacts db.events) ∧ ∀ recording, act = .act (.record recording) →
        recording.Lands pg codec db → RunChecks db recording.fact := by
  cases act with
  | put call => simp [performContext]
  | act act =>
    have step : FactStep pg codec db act _ := perform_factStep db act
    rw [performContext]
    cases step with
    | aside idle events commands =>
      rw [events, contextFacts_append, contextFacts_commands commands, append_nil]
      refine (and_iff_left ?_).symm
      intro recording isRecord lands
      obtain ⟨appended, commits, lands⟩ := Recording.lands_iff.mp lands
      rw [idle recording appended (ContextAct.act.inj isRecord) commits] at lands
      cases lands
    | @landed recording route want row tables isRecord routed lands commits result =>
      rw [result, recordLanding_events, lands.contextFacts_eq, lifecycle_snoc,
        lawful_iff_runChecks known routed lands.current lands.checked]
      subst isRecord
      refine and_congr_right fun _ => ⟨?_, ?_⟩
      · rintro checks other isRecord -
        cases isRecord
        exact checks
      · intro checks
        exact checks recording rfl (Recording.lands_iff.mpr ⟨_, commits, rfl⟩)

/-- **Which histories keep to the lifecycle.**  In a history of calls, recorded facts and puts, the
facts keep to the lifecycle of runs exactly when every recording that landed met the checks
`precheck` does not make. -/
theorem history_lifecycle_iff {initial : Db} (init : Initialised pg codec initial)
    (acts : List ContextAct) :
    Lifecycle (contextFacts (contextHistory pg codec initial acts).events) ↔
      ∀ before recording later, acts = before ++ .act (.record recording) :: later →
        recording.Lands pg codec (contextHistory pg codec initial before) →
          RunChecks (contextHistory pg codec initial before) recording.fact := by
  obtain ⟨genesis, opened⟩ := init.opened
  have facts : contextFacts initial.events = [] := by
    obtain ⟨revision, payload⟩ := opened.isGenesis.payload
    rw [opened.events, contextFacts, filterMap_cons, Event.fact, payload]
    rfl
  have known : RunsKnown initial := by
    refine ⟨fun manifestId => ?_, fun runId versioned => absurd ?_ versioned⟩
    · rw [facts, opened.tables]
      constructor <;> rintro ⟨_, listed, -⟩ <;> cases listed
    · rw [opened.events, ← nil_append [genesis], currentAggregateVersion_snoc_of_ne]
      · rfl
      · rw [opened.isGenesis.aggregate]
        have differ : KERNEL_AGGREGATE ≠ ContextAggregate.contextRun.asStr := by decide
        exact fun eq => differ (congrArg Prod.fst eq)
  have lawful : Lifecycle (contextFacts initial.events) := by
    rw [facts]
    intro before fact later split
    simp at split
  refine (foldl_iff_splits (fun db : Db => Lifecycle (contextFacts db.events)) RunsKnown known
    lawful (fun _ act known => perform_runsKnown known act)
    (fun _ act known => perform_lifecycle_iff known act) acts).trans ?_
  constructor
  · intro fine before recording later split
    exact fine before _ later split recording rfl
  · rintro fine before item later split recording rfl
    exact fine before recording later split

theorem lifecycle_iff_take :
    Lifecycle facts ↔ ∀ index : Fin facts.length, Lawful (facts.take index) (facts.get index) := by
  constructor
  · intro lawful index
    exact lawful _ _ (facts.drop (index + 1)) (by simp)
  · rintro lawful before fact later rfl
    simpa using lawful ⟨before.length, by simp⟩

instance (before : List ContextFact) (fact : ContextFact) : Decidable (Lawful before fact) := by
  cases fact <;> unfold Lawful <;> infer_instance

instance (facts : List ContextFact) : Decidable (Lifecycle facts) :=
  decidable_of_iff _ lifecycle_iff_take.symm

instance (db : Db) (recording : Recording) : Decidable (recording.Lands pg codec db) :=
  match outcome : recordContextFact pg codec db recording with
  | .ok appended =>
    decidable_of_iff (appended.replayed = false) (by simp [Recording.lands_iff, outcome])
  | .error _ => .isFalse (by simp [Recording.lands_iff, outcome])

open Sample in
theorem history_lifecycle_iff_certified :
    Lifecycle (contextFacts (contextHistory postgres Sample.codec initial
        certified).events) ∧
      (recording opened "r3").Lands postgres Sample.codec
        (contextHistory postgres Sample.codec initial (certified.take 6)) ∧
      RunChecks (contextHistory postgres Sample.codec initial
        (certified.take 6)) opened := by
  have lands : (recording opened "r3").Lands postgres Sample.codec
      (contextHistory postgres Sample.codec initial (certified.take 6)) := by
    decide +kernel
  have lawful : Lifecycle (contextFacts (contextHistory postgres Sample.codec initial
      certified).events) := by
    decide +kernel
  exact ⟨lawful, lands, (history_lifecycle_iff init certified).mp lawful
    (certified.take 6) _ (certified.drop 7) rfl lands⟩

open Sample in
theorem history_lifecycle_fails_unreleased :
    ¬ Lifecycle (contextFacts (contextHistory postgres Sample.codec initial
      (manifested "p" ++ recordings [opened])).events) := by
  decide +kernel

end Gridwork.Kernel
