import Gridwork.Kernel.FactHistory

/-!
# The Context truth tables of a history

What holds of the four truth tables after any history of calls, recorded facts and puts
(`history_cardinalities`).  The facts of a manifest may come from several runs, so each count is
kept by the check under the writer lock, and the tables are what the facts of the log project to,
unless a fact is dated relative to the clock (`history_replay_fails_now`).
-/

namespace Gridwork.Kernel

open Domain Lib Context List Rows

variable {pg : Postgres} {codec : Codec} {key : String} {attempts more : Rows Attempt}
  {tables context : ContextTables} {fact : ContextFact} {manifestId : ManifestId}
  {events : List Event} {Row Key : Type}

/-! ## Replay -/

def replayFacts (pg : Postgres) (attempts : Rows Attempt) (events : List Event) :
    Except Refusal ContextTables :=
  (contextFacts events).foldlM (projectFact pg attempts) .empty

theorem projectFact_asOf (steady : ∀ text ∈ fact.timestamps, pg.Steady text) (now : Instant) :
    projectFact (pg.asOf now) attempts tables fact = projectFact pg attempts tables fact := by
  cases fact with
  | manifestResolved | releaseRecorded | observationAppended | assuranceCertified =>
    simp only [projectFact, timestamptz_asOf _ (steady _ mem_cons_self)]
    rfl
  | _ => rfl

theorem absorb_mono {rows result : Rows Row} {row : Row}
    {constraints weaker : Except Refusal Unit} (imply : constraints = .ok () → weaker = .ok ())
    (absorbs : absorb rows key row constraints = .ok result) :
    absorb rows key row weaker = .ok result := by
  unfold absorb at absorbs ⊢
  split
  next present => rwa [if_pos present] at absorbs
  next absent =>
    rw [if_neg absent, bind_ok] at absorbs
    obtain ⟨⟨⟩, met, inserted⟩ := absorbs
    exact bind_ok.mpr ⟨(), imply met, inserted⟩

theorem projectFact_mono {result : ContextTables}
    (kept : ∀ id, attempts.contains id → more.contains id)
    (projects : projectFact pg attempts tables fact = .ok result) :
    result.blob = tables.blob ∧ ∀ blob,
      projectFact pg more { tables with blob } fact = .ok { result with blob } := by
  cases fact with
  | manifestResolved =>
    simp only [projectFact, bind_ok, pure_ok] at projects ⊢
    obtain ⟨time, timed, manifest, absorbs, rfl⟩ := projects
    refine ⟨rfl, fun blob => ⟨time, timed, manifest, absorb_mono ?_ absorbs, rfl⟩⟩
    simp only [bind_ok, exists_unit, references, require_ok]
    rintro ⟨single, known⟩
    exact ⟨single, fun id named => kept id (known id named)⟩
  | releaseRecorded | observationAppended | assuranceCertified =>
    simp only [projectFact, bind_ok, pure_ok] at projects ⊢
    obtain ⟨time, timed, rows, absorbs, rfl⟩ := projects
    exact ⟨rfl, fun blob => ⟨time, timed, rows, absorbs, rfl⟩⟩
  | _ =>
    cases projects
    exact ⟨rfl, fun blob => rfl⟩

theorem foldlM_projectFact_mono (kept : ∀ id, attempts.contains id → more.contains id)
    {facts : List ContextFact} {result : ContextTables}
    (projects : facts.foldlM (projectFact pg attempts) tables = .ok result) :
    facts.foldlM (projectFact pg more) tables = .ok result := by
  induction facts generalizing tables with
  | nil => exact projects
  | cons fact facts ih =>
    rw [foldlM_cons, bind_ok] at projects ⊢
    obtain ⟨mid, first, rest⟩ := projects
    obtain ⟨eq, projects⟩ := projectFact_mono kept first
    refine ⟨mid, (projects tables.blob).trans ?_, ih rest⟩
    rw [← eq]

/-! ## Observation indexes -/

def observationIndexes (tables : ContextTables) (manifestId : ManifestId) : List Nat :=
  (tables.observation.values.filter fun row => row.manifestId = manifestId).map
    fun row => row.observationIndex.value.toNat

theorem foldl_max_range (count : Nat) : (List.range' 1 count).foldl max 0 = count := by
  induction count with
  | zero => rfl
  | succ count ih =>
    rw [range'_1_concat, foldl_concat, ih]
    omega

theorem highestObservation_eq {count : Nat}
    (counted : (observationIndexes tables manifestId).Perm (List.range' 1 count)) :
    highestObservation tables manifestId = count :=
  (counted.foldl_eq' (fun _ _ _ _ _ => by omega) 0).trans (foldl_max_range count)

theorem observationIndexes_insert {row : ObservationSupplement}
    (unused : tables.observation.contains key = false)
    (next : row.observationIndex.value.toNat = highestObservation tables row.manifestId + 1)
    (counted : ∀ manifestId, ∃ count,
      (observationIndexes tables manifestId).Perm (List.range' 1 count)) (manifestId : ManifestId) :
    ∃ count, (observationIndexes
      { tables with observation := tables.observation.insert key row } manifestId).Perm
        (List.range' 1 count) := by
  obtain ⟨count, perm⟩ := counted manifestId
  have inserted := ((values_insert_perm unused row).filter
    fun row => row.manifestId = manifestId).map fun row => row.observationIndex.value.toNat
  by_cases own : row.manifestId = manifestId
  · refine ⟨count + 1, inserted.trans ?_⟩
    rw [filter_cons_of_pos (by simpa using own), map_cons, next, own,
      highestObservation_eq perm, range'_1_concat, Nat.add_comm count 1]
    exact (perm.cons _).trans (perm_append_singleton _ _).symm
  · refine ⟨count, inserted.trans ?_⟩
    rw [filter_cons_of_neg (by simpa using own)]
    exact perm

/-! ## Cardinalities -/

/-- Every timestamp in the facts of a log reads the same at any clock. -/
def SteadyFacts (pg : Postgres) (events : List Event) : Prop :=
  ∀ fact ∈ contextFacts events, ∀ text ∈ fact.timestamps, pg.Steady text

/-- A certification in the log left the row, and the newest verification of the manifest before it
passed under the same digest. -/
def Finalized (events : List Event) (row : FinalizationSupplement) : Prop :=
  ∃ before event later fact, events = before ++ event :: later ∧ event.fact = some fact ∧
    Certifies fact row ∧ ∃ named digest evidence verifiedAt,
      newestVerification before row.manifestId = some (.manifestVerificationRecorded named digest
        .verified row.verificationDigest evidence verifiedAt)

theorem Finalized.append {row : FinalizationSupplement}
    (finalized : Finalized events row) (rest : List Event) : Finalized (events ++ rest) row := by
  obtain ⟨before, event, later, fact, rfl, facts⟩ := finalized
  exact ⟨before, event, later ++ rest, fact, by simp, facts⟩

structure Cardinalities (pg : Postgres) (attempts : Rows Attempt) (events : List Event)
    (tables : ContextTables) : Prop where
  /-- The indexes stored for a manifest are exactly `1..n`. -/
  observations : ∀ manifestId, ∃ count,
    (observationIndexes tables manifestId).Perm (List.range' 1 count)
  /-- An attempt has at most one manifest. -/
  manifests : (tables.manifest.values.map (·.attemptId)).Nodup
  /-- A manifest has at most one release. -/
  releases : (tables.release.values.map (·.manifestId)).Nodup
  /-- A manifest has at most one finalization. -/
  finalizations : (tables.finalization.values.map (·.manifestId)).Nodup
  verified : ∀ row ∈ tables.finalization.values, Finalized events row
  /-- Facts whose timestamps read the same at any clock, replayed into empty tables, give the four
  tables. -/
  replayed : SteadyFacts pg events → replayFacts pg attempts events = .ok { tables with blob := ∅ }

theorem nodup_insert {rows : Rows Row} {row : Row}
    (column : Row → Key) (unused : rows.contains key = false)
    (single : ∀ other ∈ rows.values, column other ≠ column row)
    (nodup : (rows.values.map column).Nodup) :
    ((rows.insert key row).values.map column).Nodup := by
  rw [((values_insert_perm unused row).map column).nodup_iff, map_cons, nodup_cons]
  refine ⟨fun mem => ?_, nodup⟩
  obtain ⟨other, listed, eq⟩ := mem_map.mp mem
  exact single other listed eq

theorem requireVerified_eq_ok {claimed : Digest}
    (verified : requireVerified events manifestId claimed = .ok ()) :
    ∃ named digest evidence verifiedAt, newestVerification events manifestId =
      some (.manifestVerificationRecorded named digest .verified claimed evidence verifiedAt) := by
  unfold requireVerified at verified
  split at verified
  next => cases verified
  next hit =>
    simp only [bind_ok, exists_unit, require_ok] at verified
    obtain ⟨rfl, rfl⟩ := verified
    exact ⟨_, _, _, _, hit⟩
  next => cases verified

variable {db : Db}

theorem Adds.cardinalities {row : Event} {now : Instant} (adds : Adds db fact context)
    (holds : Cardinalities pg db.tables.derived.attempt db.events db.tables.context)
    (isFact : row.fact = some fact)
    (projected : projectFact (pg.asOf now) db.tables.derived.attempt db.tables.context fact =
      .ok context) :
    Cardinalities pg db.tables.derived.attempt (db.events ++ [row]) context := by
  have verified : ∀ finalization ∈ db.tables.context.finalization.values,
      Finalized (db.events ++ [row]) finalization :=
    fun finalization mem => (holds.verified finalization mem).append [row]
  have replayed (steady : SteadyFacts pg (db.events ++ [row])) :
      replayFacts pg db.tables.derived.attempt (db.events ++ [row]) =
        .ok { context with blob := ∅ } := by
    rw [SteadyFacts, contextFacts_snoc isFact, forall_mem_append, forall_mem_singleton] at steady
    rw [replayFacts, contextFacts_snoc isFact, foldlM_snoc_eq_ok]
    rw [projectFact_asOf steady.2] at projected
    exact ⟨_, holds.replayed steady.1, (projectFact_mono (fun _ => id) projected).2 ∅⟩
  obtain ⟨observations, manifests, releases, finalizations, -, -⟩ := holds
  cases adds with
  | manifest other unused single =>
    exact ⟨observations, nodup_insert _ unused single manifests, releases, finalizations, verified,
      replayed⟩
  | release other unused single =>
    exact ⟨observations, manifests, nodup_insert _ unused single releases, finalizations, verified,
      replayed⟩
  | observation other unused next =>
    exact ⟨observationIndexes_insert unused next observations, manifests, releases, finalizations,
      verified, replayed⟩
  | finalization other unused single passed certified =>
    refine ⟨observations, manifests, releases, nodup_insert _ unused single finalizations, ?_,
      replayed⟩
    intro finalization mem
    rcases mem_cons.mp ((values_insert_perm unused other).mem_iff.mp mem) with
      rfl | prior
    · exact ⟨db.events, row, [], fact, rfl, isFact, certified, requireVerified_eq_ok passed⟩
    · exact verified finalization prior
  | nothing => exact ⟨observations, manifests, releases, finalizations, verified, replayed⟩

def Db.Cardinal (pg : Postgres) (db : Db) : Prop :=
  Cardinalities pg db.tables.derived.attempt db.events db.tables.context

theorem perform_cardinal (holds : db.Cardinal pg) (act : ContextAct) :
    (performContext pg codec db act).Cardinal pg := by
  cases act with
  | put call => exact ⟨holds.1, holds.2, holds.3, holds.4, holds.5, holds.6⟩
  | act act =>
    have step : FactStep pg codec db act _ := perform_factStep db act
    rw [performContext]
    cases step with
    | aside idle events commands tables attempts =>
      rw [Db.Cardinal, events, tables]
      refine ⟨holds.1, holds.2, holds.3, holds.4, fun row mem => (holds.5 row mem).append _,
        ?_⟩
      rw [SteadyFacts, replayFacts, contextFacts_append, contextFacts_commands commands, append_nil]
      exact fun steady => foldlM_projectFact_mono attempts (holds.replayed steady)
    | landed isRecord routed lands commits result =>
      obtain ⟨projected, framed⟩ := lands.projectFact_eq routed
      rw [result, Db.Cardinal, recordLanding_tables, recordLanding_events, framed]
      have adds := adds_of_checked lands.checked projected
      exact adds.cardinalities holds lands.factRow.fact projected

/-- **The Context truth tables of every history.**  The observation indexes of each manifest are
exactly `1..n`, an attempt has at most one manifest and a manifest at most one release and one
finalization, the newest verification before each certification passed under the certified digest,
and replaying the facts of a log whose timestamps read the same at any clock into empty tables
gives the four tables again. -/
theorem history_cardinalities {initial : Db} (init : Initialised pg codec initial)
    (acts : List ContextAct) : (contextHistory pg codec initial acts).Cardinal pg := by
  induction acts using List.reverseRecOn with
  | nil =>
    obtain ⟨genesis, opened⟩ := init.opened
    obtain ⟨revision, payload⟩ := opened.isGenesis.payload
    rw [contextHistory, foldl_nil, Db.Cardinal, opened.events, opened.tables]
    refine ⟨fun _ => ⟨0, .nil⟩, .nil, .nil, .nil, nofun, fun _ => ?_⟩
    rw [replayFacts, contextFacts, filterMap_cons, Event.fact, payload]
    rfl
  | append_singleton acts act ih =>
    rw [contextHistory, foldl_concat]
    exact perform_cardinal ih act

open Sample in
theorem history_cardinalities_certified :
    let db := contextHistory postgres Sample.codec initial certified
    db.tables.context.observation.values.length = 1 ∧
      db.tables.context.finalization.values.length = 1 ∧ db.Cardinal postgres ∧
      replayFacts postgres db.tables.derived.attempt db.events =
        .ok { db.tables.context with blob := ∅ } := by
  intro db
  have cardinal : db.Cardinal postgres := history_cardinalities init certified
  have dated : ∀ fact ∈ contextFacts db.events, "now" ∉ fact.timestamps := by decide +kernel
  exact ⟨by decide +kernel, by decide +kernel, cardinal,
    cardinal.replayed fun fact mem => steady_of_notMem (dated fact mem)⟩

open Sample in
/-- The manifest is resolved `now`, and the replay has another clock. -/
theorem history_replay_fails_now :
    let db := contextHistory postgres Sample.codec initial (manifested "now")
    Initialised postgres Sample.codec initial ∧
      db.tables.context.manifest.values.map (·.resolvedAt) = [render 1] ∧
      (∃ tables, replayFacts postgres db.tables.derived.attempt db.events = .ok tables ∧
        tables.manifest.values.map (·.resolvedAt) = [render 9]) ∧
      replayFacts postgres db.tables.derived.attempt db.events ≠
        .ok { db.tables.context with blob := ∅ } := by
  intro db
  have live : db.tables.context.manifest.values.map (·.resolvedAt) = [render 1] := by
    decide +kernel
  obtain ⟨tables, replays, later⟩ : ∃ tables,
      replayFacts postgres db.tables.derived.attempt db.events = .ok tables ∧
        tables.manifest.values.map (·.resolvedAt) = [render 9] := ⟨_, rfl, by decide +kernel⟩
  refine ⟨init, live, ⟨tables, replays, later⟩, fun eq => ?_⟩
  rw [replays] at eq
  cases eq
  rw [live] at later
  exact absurd later (by decide)

end Gridwork.Kernel
