import Mathlib.Data.List.Induction
import Gridwork.Kernel.Acts

/-!
# One project per aggregate

The project of an aggregate's first event owns the aggregate.  `OneOwner` says so of a
log, and `oneOwner_snoc` says what an append must check to keep it.  The command path
checks it: `after_oneOwner`.  The recording of Context facts does not, and
`history_oneOwner_iff` says which histories of both paths keep it all the same.
-/

namespace Gridwork.Kernel

open Domain Lib List Option

/-! ## Owners -/

/-- Every event carries the project of its aggregate's first event. -/
def OneOwner (events : List Event) : Prop :=
  ∀ event ∈ events, ∀ first ∈ (aggregateEvents event.aggregate events).head?,
    event.projectId = first.projectId
  deriving Decidable

theorem aggregateEvents_snoc (aggregate : String × AggregateId) (events : List Event)
    (row : Event) :
    aggregateEvents aggregate (events ++ [row]) =
      aggregateEvents aggregate events ++ if row.aggregate = aggregate then [row] else [] := by
  by_cases eq : row.aggregate = aggregate
  · simp [aggregateEvents, eq]
  · simp [aggregateEvents, eq]

variable {events : List Event} {aggregate : String × AggregateId} {event row other genesis : Event}
  {pg : Postgres} {codec : Codec} {db initial : Db}

theorem mem_aggregateEvents :
    event ∈ aggregateEvents aggregate events ↔ event ∈ events ∧ event.aggregate = aggregate := by
  simp [aggregateEvents]

theorem exists_first (mem : event ∈ events) :
    ∃ first, (aggregateEvents event.aggregate events).head? = some first := by
  cases listed : aggregateEvents event.aggregate events with
  | nil =>
    have inside := mem_aggregateEvents.mpr ⟨mem, rfl⟩
    rw [listed] at inside
    cases inside
  | cons first rest => exact ⟨first, rfl⟩

theorem head?_aggregateEvents_snoc {first : Event} (row : Event)
    (hit : (aggregateEvents aggregate events).head? = some first) :
    (aggregateEvents aggregate (events ++ [row])).head? = some first := by
  rw [aggregateEvents_snoc, head?_append, hit]
  rfl

/-- **An append keeps one owner exactly when it comes from the owner.** -/
theorem oneOwner_snoc : OneOwner (events ++ [row]) ↔ OneOwner events ∧
      ∀ first ∈ (aggregateEvents row.aggregate events).head?, row.projectId = first.projectId := by
  constructor
  · intro kept
    refine ⟨?_, ?_⟩
    · intro event mem first hit
      exact kept event (mem_append_left _ mem) first (head?_aggregateEvents_snoc row hit)
    · intro first hit
      exact kept row (by simp) first (head?_aggregateEvents_snoc row hit)
  · rintro ⟨holds, owned⟩ event mem first hit
    rcases mem_append.mp mem with prior | last
    · obtain ⟨owner, owns⟩ := exists_first prior
      have eq := head?_aggregateEvents_snoc row owns
      rw [mem_def, eq, some.injEq] at hit
      exact hit ▸ holds event prior owner owns
    · rw [mem_singleton] at last
      subst last
      cases owns : (aggregateEvents event.aggregate events).head? with
      | some owner =>
        have eq := head?_aggregateEvents_snoc event owns
        rw [mem_def, eq, some.injEq] at hit
        exact hit ▸ owned owner owns
      | none =>
        have empty := head?_eq_none_iff.mp owns
        simp only [aggregateEvents_snoc, empty, if_true, nil_append, head?_cons,
          mem_some_iff] at hit
        rw [hit]

theorem OneOwner.projectId_eq (holds : OneOwner events)
    (mem : event ∈ events) (otherMember : other ∈ events)
    (eq : event.aggregate = other.aggregate) : event.projectId = other.projectId := by
  obtain ⟨first, hit⟩ := exists_first mem
  rw [holds event mem first hit, holds other otherMember first (eq ▸ hit)]

/-! ## The command path -/

theorem OneOwner.of_opened (opened : Opened db genesis) : OneOwner db.events := by
  have nothing : OneOwner [] := by simp [OneOwner]
  rw [opened.events]
  exact oneOwner_snoc.mpr ⟨nothing, by simp [aggregateEvents]⟩

theorem Step.oneOwner_iff {call : Call} {request : Request} {committed : Committed}
    (step : Step pg codec db call request committed) :
    OneOwner committed.db.events ↔ OneOwner db.events := by
  cases step with
  | replayed | refusedInput | paged | refusedControl => rfl
  | landed fresh _ _ _ _ _ _ lands =>
    obtain ⟨kept, made⟩ := lands.made
    simp only [landing_events, oneOwner_snoc, made.aggregate, made.projectId]
    exact and_iff_left fun first hit => (fresh.owned first hit).symm

/-- **In every history of the command path an aggregate has one owner.** -/
theorem after_oneOwner (init : Initialised pg codec initial)
    (calls : List Call) : OneOwner (after pg codec initial calls).events := by
  obtain ⟨genesis, opened⟩ := init.opened
  refine after_induction (fun db => OneOwner db.events) (.of_opened opened) ?_ calls
  intro db call request committed holds passes admits step
  exact step.oneOwner_iff.mpr holds

/-! ## Both paths -/

/-- A fact that would land comes from the owner of its aggregate, or opens it. -/
def FromOwner (pg : Postgres) (codec : Codec) (db : Db) (recording : Recording) : Prop :=
  ∀ route want row tables, RecordAdmits db recording →
    factRouteOf db.tables.context recording.fact = .ok route →
    eventsForKey db.events recording.projectId route.aggregateType route.aggregateId
      recording.idempotencyKey = [] →
    RecordLands pg codec db recording route want row tables →
    ∀ first ∈ (aggregateEvents (route.aggregateType, route.aggregateId) db.events).head?,
      recording.projectId = first.projectId

theorem RecordLands.row_eq {recording : Recording} {route : Route} {want : UInt32}
    {tables : Projections} (lands : RecordLands pg codec db recording route want row tables) :
    row.aggregate = (route.aggregateType, route.aggregateId) ∧
      row.projectId = recording.projectId := by
  obtain ⟨occurred, payload, -, -, rfl, -⟩ := insertEvent_ok.mp lands.inserted
  exact ⟨rfl, rfl⟩

theorem perform_oneOwner_iff {act : Act} :
    OneOwner (perform pg codec db act).events ↔ OneOwner db.events ∧
      ∀ recording, act = .record recording → FromOwner pg codec db recording := by
  cases act with
  | submit call =>
    simp only [perform, reduceCtorEq, false_imp_iff, implies_true, and_true]
    rcases submit_cases db call with
      ⟨refusal, eq⟩ | ⟨request, committed, passes, admits, step, eq⟩
    · rw [eq]
    · rw [eq]
      exact step.oneOwner_iff
  | record recording =>
    simp only [perform, Act.record.injEq, forall_eq']
    -- a recording that lands is answered with its row
    have answers {route want row tables} (admits : RecordAdmits db recording)
        (routed : factRouteOf db.tables.context recording.fact = .ok route)
        (unused : eventsForKey db.events recording.projectId route.aggregateType
          route.aggregateId recording.idempotencyKey = [])
        (lands : RecordLands pg codec db recording route want row tables) :=
      recordContextFact_ok.mpr ⟨admits, route, routed, .landed unused lands⟩
    cases outcome : recordContextFact pg codec db recording with
    | error refusal =>
      refine ⟨fun holds => ⟨holds, ?_⟩, And.left⟩
      intro route want row tables admits routed unused lands
      have commits := answers admits routed unused lands
      rw [outcome] at commits
      cases commits
    | ok appended =>
      obtain ⟨admits, route, routed, step⟩ := recordContextFact_ok.mp outcome
      cases step with
      | replayed stored named =>
        refine ⟨fun holds => ⟨holds, ?_⟩, And.left⟩
        intro route want row tables admits routed unused lands
        have commits := answers admits routed unused lands
        rw [outcome] at commits
        cases commits
      | landed unused lands =>
        obtain ⟨aggregate, projectId⟩ := lands.row_eq
        simp only [recordLanding_events, oneOwner_snoc, aggregate, projectId]
        refine and_congr_right fun holds => ⟨?_, ?_⟩
        · intro owned other want row tables _ routedAgain
          rw [routed, Except.ok.injEq] at routedAgain
          exact fun _ _ => routedAgain ▸ owned
        · intro fromOwner
          exact fromOwner route _ _ _ admits routed unused lands

/-- **Which histories keep one owner.**  In a history of calls and recorded facts every event
carries the project of its aggregate's first event exactly when no fact landed on an
aggregate that another project had opened. -/
theorem history_oneOwner_iff (init : Initialised pg codec initial) (acts : List Act) :
    OneOwner (history pg codec initial acts).events ↔
      ∀ before recording later, acts = before ++ .record recording :: later →
        FromOwner pg codec (history pg codec initial before) recording := by
  obtain ⟨genesis, opened⟩ := init.opened
  refine (foldl_iff_splits (fun db : Db => OneOwner db.events) (fun _ => True) trivial
    (OneOwner.of_opened opened) (fun _ _ _ => trivial)
    (fun _ _ _ => perform_oneOwner_iff) acts).trans ?_
  constructor
  · intro fine before recording later split
    exact fine before _ later split recording rfl
  · rintro fine before item later split recording rfl
    exact fine before recording later split

open Sample in
theorem history_oneOwner_shared : OneOwner (history postgres Sample.codec Sample.initial
        [.submit activate, .record (requested "p" "k1"),
          .record (requested "p" "k2")]).events ∧
      FromOwner postgres Sample.codec (history postgres Sample.codec Sample.initial
          [.submit activate, .record (requested "p" "k1")])
        (requested "p" "k2") :=
  ⟨by decide, (history_oneOwner_iff init [.submit activate,
    .record (requested "p" "k1"), .record (requested "p" "k2")]).mp (by decide)
    [.submit activate, .record (requested "p" "k1")] _ [] rfl⟩

open Sample in
theorem history_oneOwner_fails_requested :
    ¬ OneOwner (history postgres Sample.codec Sample.initial
      [.submit activate, .record (requested "p" "k1"),
        .record (requested "q" "k2")]).events := by
  decide

end Gridwork.Kernel
