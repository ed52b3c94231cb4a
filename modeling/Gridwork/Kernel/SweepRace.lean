import Gridwork.Kernel.Sweep

/-!
# The sweep against its clients

A pass reads leases and attempts without the writer's lock, and its writes are guarded by
the version of the one row they change.  For a lease that is enough: it never returns to
`held`, so the attempts of a lease the pass expired stay unprotected (`Evolves`).  For a
silent attempt it is not: its version does not move when its lease is renewed, so a lease
that had no time to live can get one between the read and the write.
-/

namespace Gridwork.Kernel

open Domain Lib List Function Option Rows KernelCommand

variable {pg : Postgres} {codec : Codec} {command kept : KernelCommand} {event : Event}
  {context kind id other leaseId : String} {Row ε : Type} {tasks : Rows Task} {leases : Rows Lease}
  {rows : Rows Attempt} {version : UInt32} {db before : Db} {issuedAt : Timestamp}
  {target lease : Target} {receiptId : Option ReceiptId} {staleAfter : Int}

/-! ## How leases and attempts change -/

/-- A lease that left `held` does not come back, and only a renewal gives a time to live. -/
structure LeaseEvolves (command : KernelCommand) (id : String) (lease changed : Lease) :
    Prop where
  held : changed.state = .held → lease.state = .held
  timed : changed.expiresAt.isSome → lease.expiresAt.isSome ∨
    ∃ version expiry, command = .renewLease id version (some expiry)

theorem LeaseEvolves.refl (command : KernelCommand) (id : String) (lease : Lease) :
    LeaseEvolves command id lease lease :=
  ⟨fun held => held, .inl⟩

/-- What a call does to the leases, and that an attempt keeps the lease it was made with. -/
structure Evolves (command : KernelCommand) (before after : Db) : Prop where
  leases : ∀ (id : String) (lease : Lease), before.tables.derived.lease[id]? = some lease →
    ∃ changed, after.tables.derived.lease[id]? = some changed ∧
      LeaseEvolves command id lease changed
  attempts : ∀ (id : String) (attempt : Attempt),
    before.tables.derived.attempt[id]? = some attempt →
    ∃ changed, after.tables.derived.attempt[id]? = some changed ∧
      changed.worktreeLeaseId = attempt.worktreeLeaseId

theorem Evolves.of_derived_eq {after : Db}
    (eq : after.tables.derived = before.tables.derived) : Evolves command before after where
  leases _ lease hit := ⟨lease, eq ▸ hit, .refl _ _ _⟩
  attempts _ attempt hit := ⟨attempt, eq ▸ hit, rfl⟩

theorem exists_of_revise [Versioned Row] {change : Row → Instant → Except Refusal Row}
    {rows result : Rows Row} (revised : revise pg event context kind id change rows = .ok result)
    (evolves : String → Row → Row → Prop) (refl : ∀ id row, evolves id row row)
    (changes : ∀ row time changed, change row time = .ok changed →
      evolves id row (Versioned.stamp changed event.aggregateVersion time)) (other : String)
    (row : Row) (hit : rows[other]? = some row) :
    ∃ changed, result[other]? = some changed ∧ evolves other row changed := by
  obtain ⟨before, time, changed, present, -, changing, -, rfl⟩ := revise_ok.mp revised
  rw [getElem?_insert_eq]
  by_cases eq : id = other
  · subst eq
    obtain rfl : before = row := some.inj (present.symm.trans hit)
    exact ⟨_, if_pos rfl, changes before time changed changing⟩
  · exact ⟨row, by rw [if_neg eq, hit], refl other row⟩

theorem getElem?_of_insertNew {taken : ε} {inserted : Row}
    {rows result : Rows Row} (inserts : rows.insertNew taken id inserted = .ok result)
    {row : Row} (hit : rows[other]? = some row) : result[other]? = some row := by
  obtain ⟨free, rfl⟩ := insertNew_ok.mp inserts
  rw [getElem?_insert_eq, if_neg, hit]
  rintro rfl
  rw [free] at hit
  cases hit

theorem evolves_applyLease {rows result : Rows Lease}
    (applies : applyLease pg event command rows = .ok result) (id : String) (lease : Lease)
    (hit : rows[id]? = some lease) :
    ∃ changed, result[id]? = some changed ∧ LeaseEvolves command id lease changed := by
  cases command with
  | acquireLease =>
    simp only [applyLease, bind_ok] at applies
    obtain ⟨_, -, _, -, inserts⟩ := applies
    exact ⟨lease, getElem?_of_insertNew inserts hit, .refl _ _ _⟩
  | renewLease leaseId version expiresAt =>
    refine exists_of_revise applies _ (LeaseEvolves.refl _) ?_ id lease hit
    intro row time changed changing
    simp only [bind_ok, pure_ok] at changing
    obtain ⟨expiry, parsed, rfl⟩ := changing
    refine ⟨fun held => held, ?_⟩
    cases expiresAt with
    | some expiry => exact fun _ => .inr ⟨version, expiry, rfl⟩
    | none =>
      cases parsed
      exact .inl
  | releaseLease | expireLease =>
    refine exists_of_revise applies _ (LeaseEvolves.refl _) ?_ id lease hit
    rintro row time changed ⟨⟩
    exact ⟨fun held => (by cases held), .inl⟩
  | _ =>
    cases applies
    exact ⟨lease, hit, .refl _ _ _⟩

theorem evolves_applyAttempt {result : Rows Attempt}
    (applies : applyAttempt pg event command tasks leases rows = .ok result) (id : String)
    (attempt : Attempt) (hit : rows[id]? = some attempt) :
    ∃ changed, result[id]? = some changed ∧ changed.worktreeLeaseId = attempt.worktreeLeaseId := by
  cases command with
  | createAttempt =>
    simp only [applyAttempt, bind_ok, exists_unit, pure_ok] at applies
    obtain ⟨_, -, -, _, inserts, -, -, rfl⟩ := applies
    exact ⟨attempt, getElem?_of_insertNew inserts hit, rfl⟩
  | recordAttemptRuntime =>
    refine exists_of_revise applies
      (fun _ row changed => changed.worktreeLeaseId = row.worktreeLeaseId) (fun _ _ => rfl) ?_ id
      attempt hit
    intro row time changed changing
    simp only [bind_ok, pure_ok] at changing
    obtain ⟨_, -, rfl⟩ := changing
    rfl
  | transitionAttempt | updateBudget | recordAttemptOutcome | recordRound | recordFinding =>
    refine exists_of_revise applies
      (fun _ row changed => changed.worktreeLeaseId = row.worktreeLeaseId) (fun _ _ => rfl) ?_ id
      attempt hit
    rintro row time changed ⟨⟩
    rfl
  | _ =>
    cases applies
    exact ⟨attempt, hit, rfl⟩

theorem Stores.renewLease_eq (stores : Stores pg command kept)
    {expiry : Option Timestamp} (isRenewal : kept = .renewLease id version expiry) :
    command = .renewLease id version expiry := by
  cases stores with
  | eq => exact isRenewal
  | message | record => cases isRenewal

/-- **Every step keeps leases and attempts to their course.** -/
theorem Step.evolves {call : Call} {request : Request} {committed : Committed}
    (passes : Passes codec call request) (step : Step pg codec db call request committed) :
    Evolves request.command db committed.db := by
  cases step with
  | replayed | refusedInput | paged | refusedControl => exact .of_derived_eq rfl
  | landed _ _ _ _ _ _ _ lands =>
    obtain ⟨kept, made, applied⟩ := lands.applies passes
    constructor
    · intro id lease hit
      obtain ⟨changed, present, evolves⟩ := evolves_applyLease applied.lease id lease hit
      refine ⟨changed, by rw [landing_tables]; exact present, evolves.held, fun timed => ?_⟩
      refine (evolves.timed timed).imp_right ?_
      rintro ⟨version, expiry, isRenewal⟩
      exact ⟨version, expiry, made.stores.renewLease_eq isRenewal⟩
    · rw [landing_tables]
      exact evolves_applyAttempt applied.attempt

/-! ## What every history keeps -/

def NotHeld (db : Db) (leaseId : String) : Prop :=
  ∃ lease, db.tables.derived.lease[leaseId]? = some lease ∧ lease.state ≠ .held

theorem NotHeld.evolve {after : Db}
    (gone : NotHeld before leaseId) (evolves : Evolves command before after) :
    NotHeld after leaseId := by
  obtain ⟨lease, hit, notHeld⟩ := gone
  obtain ⟨changed, present, evolved⟩ := evolves.leases leaseId lease hit
  exact ⟨changed, present, fun held => notHeld (evolved.held held)⟩

/-- What the log and the tables say of leases: one that was expired is not held any more,
and the lease of an attempt is there. -/
structure LeaseInvariant (db : Db) : Prop where
  expired : ∀ event ∈ db.events, ∀ leaseId version,
    event.payload = .command (.expireLease leaseId version) → NotHeld db leaseId
  backing : ∀ (id : String) (attempt : Attempt) (leaseId : String),
    db.tables.derived.attempt[id]? = some attempt → attempt.worktreeLeaseId = some leaseId →
    ∃ lease, db.tables.derived.lease[leaseId]? = some lease

theorem notHeld_of_applyLease {rows result : Rows Lease}
    (applies : applyLease pg event (.expireLease leaseId version) rows = .ok result) :
    ∃ lease, result[leaseId]? = some lease ∧ lease.state ≠ .held := by
  obtain ⟨row, time, _, -, -, ⟨⟩, -, rfl⟩ := revise_ok.mp applies
  refine ⟨_, by rw [getElem?_insert_eq, if_pos rfl], fun held => ?_⟩
  cases held

theorem isSome_of_revise [Versioned Row] {change : Row → Instant → Except Refusal Row}
    {rows result : Rows Row} (revised : revise pg event context kind id change rows = .ok result)
    (present : result[other]?.isSome) : rows[other]?.isSome := by
  obtain ⟨row, time, changed, hit, -, -, -, rfl⟩ := revise_ok.mp revised
  rw [getElem?_insert_eq] at present
  split at present
  next eq => simp [← eq, hit]
  next => exact present

theorem backing_of_applyAttempt {result : Rows Attempt}
    (applies : applyAttempt pg event command tasks leases rows = .ok result) {attempt : Attempt}
    (hit : result[id]? = some attempt) :
    (∃ before, rows[id]? = some before ∧ before.worktreeLeaseId = attempt.worktreeLeaseId) ∨
      ∀ leaseId, attempt.worktreeLeaseId = some leaseId →
        ∃ lease, leases[leaseId]? = some lease := by
  cases known : rows[id]? with
  | some before =>
    obtain ⟨changed, present, eq⟩ := evolves_applyAttempt applies id before known
    rw [hit] at present
    exact .inl ⟨before, rfl, by rw [← eq, some.inj present]⟩
  | none =>
    have absent : ¬ rows[id]?.isSome := by simp [known]
    have there : result[id]?.isSome := by simp [hit]
    cases command with
    | createAttempt attemptId =>
      simp only [applyAttempt, bind_ok, exists_unit, pure_ok, insertNew_ok] at applies
      obtain ⟨_, -, -, _, ⟨-, rfl⟩, -, foreign, rfl⟩ := applies
      rw [getElem?_insert_eq] at hit
      split at hit
      next =>
        cases hit
        refine .inr fun leaseId names => isSome_iff_exists.mp ?_
        rw [← Std.TreeMap.contains_eq_isSome_getElem?]
        exact require_ok.mp foreign leaseId names
      next => exact absurd (by simp [hit]) absent
    | transitionAttempt | updateBudget | recordAttemptRuntime | recordAttemptOutcome
    | recordRound | recordFinding => exact absurd (isSome_of_revise applies there) absent
    | _ =>
      cases applies
      exact absurd there absent

theorem LeaseInvariant.of_evolves {after : Db}
    (holds : LeaseInvariant before) (evolves : Evolves command before after)
    (events : after.events = before.events)
    (attempts : after.tables.derived.attempt = before.tables.derived.attempt) :
    LeaseInvariant after where
  expired event mem leaseId version isExpiry :=
    (holds.expired event (events ▸ mem) leaseId version isExpiry).evolve evolves
  backing id attempt leaseId hit names := by
    obtain ⟨lease, present⟩ := holds.backing id attempt leaseId (attempts ▸ hit) names
    obtain ⟨changed, still, -⟩ := evolves.leases leaseId lease present
    exact ⟨changed, still⟩

/-- **Every history keeps the lease invariant.** -/
theorem after_leaseInvariant {initial : Db} (init : Initialised pg codec initial)
    (calls : List Call) : LeaseInvariant (after pg codec initial calls) := by
  obtain ⟨genesis, opened⟩ := init.opened
  refine after_induction LeaseInvariant ?_ ?_ calls
  · constructor
    · intro event mem leaseId version isExpiry
      rw [opened.events, mem_singleton] at mem
      obtain ⟨revision, isGenesis⟩ := opened.isGenesis.payload
      rw [mem, isGenesis] at isExpiry
      cases isExpiry
    · intro id attempt leaseId hit
      rw [opened.tables] at hit
      simp [Projections.empty, Derived.empty] at hit
  · intro db call request committed holds passes admits step
    have evolves := step.evolves passes
    cases step with
    | replayed | refusedInput | paged | refusedControl => exact holds.of_evolves evolves rfl rfl
    | landed _ _ _ _ _ _ _ lands =>
      obtain ⟨kept, made, applied⟩ := lands.applies passes
      constructor
      · intro event mem leaseId version isExpiry
        rw [landing_events, mem_snoc] at mem
        rcases mem with earlier | rfl
        · exact (holds.expired event earlier leaseId version isExpiry).evolve evolves
        · obtain rfl : kept = .expireLease leaseId version :=
            EventBody.command.inj (made.payload.symm.trans isExpiry)
          rw [NotHeld, landing_tables]
          exact notHeld_of_applyLease applied.lease
      · intro id attempt leaseId hit names
        rw [landing_tables] at hit
        obtain ⟨lease, present⟩ : ∃ lease, db.tables.derived.lease[leaseId]? = some lease := by
          rcases backing_of_applyAttempt applied.attempt hit with
            ⟨before, known, eq⟩ | backing
          · exact holds.backing id before leaseId known (eq.trans names)
          · exact backing leaseId names
        obtain ⟨changed, still, -⟩ := evolves.leases leaseId lease present
        exact ⟨changed, still⟩

/-! ## Passes -/

def Unbacked (db : Db) (id : String) : Prop :=
  ∃ attempt, db.tables.derived.attempt[id]? = some attempt ∧
    ∀ leaseId, attempt.worktreeLeaseId = some leaseId →
      ∃ lease, db.tables.derived.lease[leaseId]? = some lease ∧
        (lease.state = .held → lease.expiresAt = none)

/-- The command gives no time to live to a held lease without one behind the attempt. -/
def Spares (command : KernelCommand) (db : Db) (id : String) : Prop :=
  ∀ (attempt : Attempt) (leaseId : String) (lease : Lease),
    db.tables.derived.attempt[id]? = some attempt → attempt.worktreeLeaseId = some leaseId →
    db.tables.derived.lease[leaseId]? = some lease → lease.state = .held →
    lease.expiresAt = none →
    ∀ version expiry, command ≠ .renewLease leaseId version (some expiry)

theorem Unbacked.evolve {after : Db}
    (unbacked : Unbacked before id) (evolves : Evolves command before after)
    (spares : Spares command before id) : Unbacked after id := by
  obtain ⟨attempt, hit, behind⟩ := unbacked
  obtain ⟨changed, present, sameLease⟩ := evolves.attempts id attempt hit
  refine ⟨changed, present, fun leaseId names => ?_⟩
  rw [sameLease] at names
  obtain ⟨lease, known, untimed⟩ := behind leaseId names
  obtain ⟨renewed, still, evolved⟩ := evolves.leases leaseId lease known
  refine ⟨renewed, still, fun held => ?_⟩
  have wasHeld := evolved.held held
  by_contra timed
  rcases evolved.timed (isSome_iff_ne_none.mpr timed) with already | ⟨version, expiry, renews⟩
  · simp [untimed wasHeld] at already
  · exact spares attempt leaseId lease hit names known wasHeld (untimed wasHeld) version expiry
      renews

/-- What a pass may rely on: the lease whose attempts it buries is no longer held, and
nothing is behind the silent attempts it has yet to bury. -/
def Pass.Safe (db : Db) : Pass → Prop
  | .expired _ leaseId _ => NotHeld db leaseId
  | .burying _ leaseId attempts _ =>
    NotHeld db leaseId ∧ ∀ target ∈ attempts, ∃ attempt,
      db.tables.derived.attempt[target.id]? = some attempt ∧ attempt.worktreeLeaseId = some leaseId
  | .buryingStale _ attempts => ∀ target ∈ attempts, Unbacked db target.id
  | _ => True

variable {pass : Pass}

theorem Pass.Safe.evolve {after : Db}
    (safe : pass.Safe before) (evolves : Evolves command before after)
    (spares : ∀ issuedAt attempts, pass = .buryingStale issuedAt attempts →
      ∀ target ∈ attempts, Spares command before target.id) : pass.Safe after := by
  cases pass with
  | expired issuedAt leaseId leases => exact NotHeld.evolve safe evolves
  | burying issuedAt leaseId attempts leases =>
    refine ⟨safe.1.evolve evolves, fun target mem => ?_⟩
    obtain ⟨attempt, hit, names⟩ := safe.2 target mem
    obtain ⟨changed, present, eq⟩ := evolves.attempts target.id attempt hit
    exact ⟨changed, present, eq.trans names⟩
  | buryingStale issuedAt attempts =>
    exact fun target mem =>
      (safe target mem).evolve evolves (spares issuedAt attempts rfl target mem)
  | _ => trivial

theorem submit_evolves (db : Db) (call : Call) : (submit pg codec db call).2 = db ∨
      ∃ command, fromEnvelope call.envelope = .ok command ∧
        Evolves command db (submit pg codec db call).2 := by
  rcases submit_cases db call with
    ⟨refusal, refused⟩ | ⟨request, committed, passes, -, step, submitted⟩
  · exact .inl (by rw [refused])
  · exact .inr ⟨request.command, passes.decoded, by rw [submitted]; exact step.evolves passes⟩

theorem decoded_sweepCall (store : Store) (moment : Moment) (issuedAt : Timestamp)
    (write : SweepWrite) (target : Target) :
    fromEnvelope (sweepCall store moment issuedAt write target).envelope =
      .ok (write.command target) := by
  simp [fromEnvelope, sweepCall, kernelEnvelope]

theorem spares_write (write : SweepWrite) (target : Target) (db : Db) (id : String) :
    Spares (write.command target) db id := by
  intro attempt leaseId lease _ _ _ _ _ version expiry renews
  cases write with
  | _ => cases renews

theorem Pass.Safe.write {after : Db} (safe : pass.Safe db) {store : Store}
    {moment : Moment} {write : SweepWrite} {result : KernelResult}
    (submitted : submit pg codec db (sweepCall store moment issuedAt write target) =
      (result, after)) : pass.Safe after := by
  obtain rfl : (submit pg codec db (sweepCall store moment issuedAt write target)).2 = after := by
    rw [submitted]
  rcases submit_evolves db (sweepCall store moment issuedAt write target) with
    kept | ⟨command, decoded, evolves⟩
  · rw [kept]
    exact safe
  · rw [decoded_sweepCall] at decoded
    cases decoded
    exact safe.evolve evolves fun _ _ _ _ _ => spares_write write target db _

theorem notHeld_of_isApplied {after : Db} (holds : LeaseInvariant db) {store : Store}
    {moment : Moment} {result : KernelResult}
    (submitted : submit pg codec db (sweepCall store moment issuedAt .expireLease lease) =
      (result, after)) (isApplied : result.isApplied = true) : NotHeld after lease.id := by
  rcases submit_cases db (sweepCall store moment issuedAt .expireLease lease) with
    ⟨refusal, refused⟩ | ⟨request, committed, passes, -, step, answered⟩
  · obtain ⟨rfl, -⟩ := Prod.ext_iff.mp (submitted.symm.trans refused)
    cases isApplied
  · obtain ⟨rfl, rfl⟩ := Prod.ext_iff.mp (submitted.symm.trans answered)
    obtain ⟨isExpiry, -, -⟩ := passes.of_sweepCall
    cases step with
    | refusedInput | paged | refusedControl => cases isApplied
    | replayed _ prior _ =>
      obtain ⟨row, stored, rfl, -, -, -, -, payload⟩ := priorForKey_eq_replay_iff.mp prior
      have mem : row ∈ db.events :=
        mem_of_mem_filter (stored ▸ mem_singleton_self row)
      exact holds.expired row mem lease.id lease.version (by rw [payload, isExpiry]; rfl)
    | landed _ _ _ _ _ _ _ lands =>
      obtain ⟨kept, made, applied⟩ := lands.applies passes
      have stores := made.stores
      rw [isExpiry] at stores
      cases stores
      simp only [NotHeld, landing_tables]
      exact notHeld_of_applyLease applied.lease

theorem unbacked_of_backed_eq_false (holds : LeaseInvariant db) {attempt : Attempt}
    (hit : db.tables.derived.attempt[id]? = some attempt)
    (notBacked : attempt.backed db.tables.derived.lease = false) : Unbacked db id := by
  refine ⟨attempt, hit, fun leaseId names => ?_⟩
  obtain ⟨lease, known⟩ := holds.backing id attempt leaseId hit names
  refine ⟨lease, known, fun held => ?_⟩
  simpa [Attempt.backed, names, known, held] using notBacked

/-- **A statement of a pass leaves the pass safe.** -/
theorem PassStep.safe {store : Store} {before after : Pass × Db}
    {moment : Moment} (step : PassStep pg codec store staleAfter before moment after)
    (holds : LeaseInvariant before.2) (safe : before.1.Safe before.2) :
    after.1.Safe after.2 := by
  cases step with
  | stamp | readLeases | leasesDone | deadDone | staleDone | finished => trivial
  | expire db moment issuedAt lease leases result after submitted =>
    simp only
    split
    next isApplied => exact notHeld_of_isApplied holds submitted isApplied
    next => trivial
  | readDead db moment issuedAt leaseId attempts leases read =>
    refine ⟨safe, fun target mem => ?_⟩
    obtain ⟨attempt, hit, selected, -⟩ := mem_targets_iff.mp (read.mem_iff.mp mem)
    rw [decide_eq_true_eq] at selected
    exact ⟨attempt, hit, selected.1⟩
  | bury db moment issuedAt leaseId attempt attempts leases result after submitted =>
    have tail : (Pass.burying issuedAt leaseId attempts leases).Safe db :=
      ⟨safe.1, fun target mem => safe.2 target (mem_cons_of_mem _ mem)⟩
    exact tail.write submitted
  | readStale db moment issuedAt attempts read =>
    intro target mem
    obtain ⟨attempt, hit, selected, -⟩ :=
      mem_targets_iff.mp (read.mem_iff.mp (mem_of_mem_take mem))
    rw [decide_eq_true_eq] at selected
    exact unbacked_of_backed_eq_false holds hit selected.2.2
  | buryStale db moment issuedAt attempt attempts result after submitted =>
    have tail : (Pass.buryingStale issuedAt attempts).Safe db :=
      fun target mem => safe target (mem_cons_of_mem _ mem)
    exact tail.write submitted

/-- No client gives a time to live to a held lease without one while a pass that has read
an attempt behind it as silent has yet to write. -/
def Careful (world : World) : WorldAction → Prop
  | .client request =>
    ∀ command, KernelCommand.fromEnvelope request.call.envelope = .ok command →
      ∀ index issuedAt attempts, world.passes index = .buryingStale issuedAt attempts →
        ∀ target ∈ attempts, Spares command world.db target.id
  | .sweep .. | .cut _ => True

abbrev CarefulStep (pg : Postgres) (codec : Codec) (staleAfter : Nat → Int) (before : World)
    (action : WorldAction) (after : World) : Prop :=
  WorldStep pg codec staleAfter before action after ∧ Careful before action

/-- **A careful step leaves every pass safe.** -/
theorem WorldStep.safe {staleAfter : Nat → Int} {before after : World} {action : WorldAction}
    (step : WorldStep pg codec staleAfter before action after) (careful : Careful before action)
    (holds : LeaseInvariant before.db) (safe : ∀ index, (before.passes index).Safe before.db) :
    ∀ index, (after.passes index).Safe after.db := by
  intro index
  cases step with
  | client request =>
    rcases serve_cases pg codec before.db request with kept | ⟨ptyInput, submitted⟩
    · simp only [kept]
      exact safe index
    · simp only [submitted]
      rcases submit_evolves before.db { request.call with ptyInput } with
        kept | ⟨command, decoded, evolves⟩
      · rw [kept]
        exact safe index
      · exact (safe index).evolve evolves (careful command decoded index)
  | sweep own store moment pass db step =>
    by_cases eq : index = own
    · subst eq
      simp only [update_self]
      exact step.safe holds (safe index)
    · simp only [update_of_ne eq]
      rcases step.db_cases with kept | ⟨issuedAt, write, target, submitted⟩
      · simp only at kept
        rw [kept]
        exact safe index
      · exact (safe index).write (Prod.ext rfl submitted.symm)
  | cut own =>
    by_cases eq : index = own
    · subst eq
      simp only [update_self]
      trivial
    · simp only [update_of_ne eq]
      exact safe index

/-! ## The race -/

def Protected (db : Db) (id : String) (now : Instant) : Prop :=
  ∃ attempt leaseId lease expiry, db.tables.derived.attempt[id]? = some attempt ∧
    attempt.worktreeLeaseId = some leaseId ∧
    db.tables.derived.lease[leaseId]? = some lease ∧ lease.state = .held ∧
    lease.expiresAt = some expiry ∧ now ≤ expiry

theorem protected_iff {now : Instant} :
    Protected db id now ↔ (db.tables.derived.attempt[id]?.any fun attempt =>
      attempt.worktreeLeaseId.any fun leaseId => db.tables.derived.lease[leaseId]?.any fun lease =>
        lease.state = .held && lease.expiresAt.any (now ≤ ·)) = true := by
  simp only [Protected, Option.any_eq_true, Bool.and_eq_true, decide_eq_true_eq]
  constructor
  · rintro ⟨attempt, leaseId, lease, expiry, hit, names, known, held, timed, left⟩
    exact ⟨attempt, hit, leaseId, names, lease, known, held, expiry, timed, left⟩
  · rintro ⟨attempt, hit, leaseId, names, lease, known, held, expiry, timed, left⟩
    exact ⟨attempt, leaseId, lease, expiry, hit, names, known, held, timed, left⟩

instance (db : Db) (id : String) (now : Instant) : Decidable (Protected db id now) :=
  decidable_of_iff' _ protected_iff

theorem Unbacked.not_protected (unbacked : Unbacked db id) (now : Instant) :
    ¬ Protected db id now := by
  rintro ⟨attempt, leaseId, lease, expiry, hit, names, known, held, timed, -⟩
  obtain ⟨eq, present, behind⟩ := unbacked
  obtain rfl : eq = attempt := some.inj (present.symm.trans hit)
  obtain ⟨other, there, untimed⟩ := behind leaseId names
  obtain rfl : other = lease := some.inj (there.symm.trans known)
  rw [untimed held] at timed
  cases timed

theorem payload_of_commits {after : Db} {store : Store} {moment : Moment} {write : SweepWrite}
    {result : KernelResult}
    (submitted : submit pg codec db (sweepCall store moment issuedAt write target) =
      (result, after)) {row : Event} (commits : after.events = db.events ++ [row]) :
    row.payload = .command (write.command target) := by
  have grows (eq : after.events = db.events) : row.payload = .command (write.command target) := by
    rw [eq, self_eq_append_right] at commits
    cases commits
  rcases submit_cases db (sweepCall store moment issuedAt write target) with
    ⟨refusal, refused⟩ | ⟨request, committed, passes, -, step, answered⟩
  · obtain ⟨-, rfl⟩ := Prod.ext_iff.mp (submitted.symm.trans refused)
    exact grows rfl
  · obtain ⟨-, rfl⟩ := Prod.ext_iff.mp (submitted.symm.trans answered)
    cases step with
    | replayed | refusedInput | paged | refusedControl => exact grows rfl
    | landed _ _ _ _ _ _ _ lands =>
      obtain ⟨kept, made⟩ := lands.made
      simp only [landing_events, append_cancel_left_eq, List.cons.injEq, and_true] at commits
      have stores := made.stores
      rw [passes.of_sweepCall.1] at stores
      rw [← commits, made.payload]
      cases write with
      | _ =>
        cases stores
        rfl

theorem PassStep.unbacked {store : Store} {before after : Pass × Db}
    {moment : Moment} (step : PassStep pg codec store staleAfter before moment after)
    (safe : before.1.Safe before.2) {row : Event}
    (commits : after.2.events = before.2.events ++ [row])
    (buries : row.payload = .command (.transitionAttempt id .unknown version receiptId)) :
    Unbacked after.2 id := by
  cases step with
  | expire _ _ _ _ _ _ _ submitted =>
    have isExpiry := payload_of_commits submitted commits
    rw [buries] at isExpiry
    cases isExpiry
  | bury _ _ _ leaseId attempt _ _ _ _ submitted =>
    have isBurial := payload_of_commits submitted commits
    rw [buries] at isBurial
    cases isBurial
    obtain ⟨⟨lease, known, notHeld⟩, behind⟩ := safe.write submitted
    obtain ⟨row, hit, names⟩ := behind attempt mem_cons_self
    refine ⟨row, hit, fun other otherNames => ?_⟩
    obtain rfl : leaseId = other := some.inj (names.symm.trans otherNames)
    exact ⟨lease, known, fun held => absurd held notHeld⟩
  | buryStale _ _ _ attempt _ _ _ submitted =>
    have isBurial := payload_of_commits submitted commits
    rw [buries] at isBurial
    cases isBurial
    exact safe.write submitted attempt mem_cons_self
  | _ =>
    rw [self_eq_append_right] at commits
    cases commits

/-- **No pass buries an attempt under a live lease.**  In every run of clients and passes in
which no client renews such a lease between a pass's read and its write, a step of a pass
that commits the transition of an attempt to `unknown` leaves no held lease with time left
behind that attempt. -/
theorem sweeps_spare {initial : Db} (init : Initialised pg codec initial)
    {staleAfter : Nat → Int} {actions : List WorldAction} {world next : World}
    (run : Run (CarefulStep pg codec staleAfter) (.initial initial) actions world)
    {index : Nat} {store : Store} {moment : Moment}
    (step : WorldStep pg codec staleAfter world (.sweep index store moment) next) {row : Event}
    (commits : next.db.events = world.db.events ++ [row]) {id : String} {version : UInt32}
    (buries : row.payload = .command (.transitionAttempt id .unknown version receiptId)) :
    ¬ Protected next.db id moment.now := by
  have safe : OfHistory pg codec initial world.db ∧
      ∀ index, (world.passes index).Safe world.db := by
    refine run.invariant_induction (fun world => OfHistory pg codec initial world.db ∧
      ∀ index, (world.passes index).Safe world.db) ⟨⟨[], rfl⟩, fun _ => trivial⟩ ?_
    rintro action - before after ⟨reached, safe⟩ ⟨taken, careful⟩
    refine ⟨taken.reached reached, taken.safe careful ?_ safe⟩
    obtain ⟨calls, eq⟩ := reached
    rw [eq]
    exact after_leaseInvariant init calls
  cases step with
  | sweep _ _ _ _ _ step => exact (step.unbacked (safe.2 index) commits buries).not_protected _

/-! ## A run with the race, and one without -/

theorem careful_client (db : Db) (request : ClientRequest) :
    Careful (.initial db) (.client request) := by
  intro command _ index issuedAt attempts standing
  cases standing

theorem run_to_stale (pg : Postgres) (codec : Codec) (staleAfter : Nat → Int) (db : Db)
    (store : Store) (moment : Moment) (none : expiredLeases db moment.now = []) :
    ∃ world, Run (CarefulStep pg codec staleAfter) (.initial db)
        (List.replicate 4 (.sweep 0 store moment)) world ∧ world.db = db ∧
      world.passes 0 =
        .buryingStale (pg.render moment.now)
          ((staleAttempts db moment.now (staleAfter 0)).take STALE_SWEEP_BATCH) := by
  refine Run.exists_cons ⟨.sweep _ 0 store moment _ _ (.stamp db moment), trivial⟩ ?_
  refine Run.exists_cons ⟨.sweep _ 0 store moment _ _
    (.readLeases db moment _ [] (by rw [none])), trivial⟩ ?_
  refine Run.exists_cons ⟨.sweep _ 0 store moment _ _ (.leasesDone db moment _), trivial⟩ ?_
  refine Run.exists_cons ⟨.sweep _ 0 store moment _ _ (.readStale db moment _ _ (.refl _)), trivial⟩ ?_
  exact ⟨_, .nil _, rfl, by simp⟩

namespace Sample

def later : Moment := { moment with now := 10, clock := 10 }

def renewal : ClientRequest :=
  asks (.renewLease "l" 1 (some "pppppppppppppppppppp")) "k6"

def sweeping : List WorldAction :=
  started.map .client ++ List.replicate 4 (.sweep 0 store later)

theorem exists_run_sweeping :
    ∃ world, Run (CarefulStep Sample.postgres Sample.codec fun _ => 5) (.initial initial) sweeping
        world ∧ world.db = served started ∧
      world.passes 0 = .buryingStale "pppppppppp" [⟨"a", 3, "p"⟩] := by
  obtain ⟨world, run, sameDb, standing⟩ := run_to_stale Sample.postgres Sample.codec (fun _ => 5)
    (served started) store later (by decide +kernel)
  have silent : staleAttempts (served started) 10 5 = [⟨"a", 3, "p"⟩] := by decide +kernel
  have clients := run_clients Sample.postgres Sample.codec (fun _ => 5) Careful initial started
    fun db request _ => careful_client db request
  refine ⟨world, clients.append run, sameDb, ?_⟩
  rw [standing, show later.now = 10 from rfl, silent]
  rfl

def buries (db : Db) : KernelResult × Db :=
  submit Sample.postgres Sample.codec db
    (sweepCall store later "pppppppppp" .attemptStale ⟨"a", 3, "p"⟩)

theorem step_buries {world : World}
    (standing : world.passes 0 = .buryingStale "pppppppppp" [⟨"a", 3, "p"⟩]) :
    WorldStep Sample.postgres Sample.codec (fun _ => 5) world (.sweep 0 store later)
      ⟨(buries world.db).2, Function.update world.passes 0 (.buryingStale "pppppppppp" [])⟩ := by
  refine .sweep world 0 store later _ _ ?_
  rw [standing]
  exact .buryStale world.db later "pppppppppp" ⟨"a", 3, "p"⟩ [] (buries world.db).1 _ rfl

theorem exists_burial (db : Db) (kept : (buries db).2.events.take db.events.length = db.events)
    (added : ((buries db).2.events.drop db.events.length).map (·.payload) =
      [.command (.transitionAttempt "a" .unknown 3 none)]) :
    ∃ row, (buries db).2.events = db.events ++ [row] ∧
      row.payload = .command (.transitionAttempt "a" .unknown 3 none) := by
  obtain ⟨row, isRow, payload⟩ := map_eq_singleton_iff.mp added
  refine ⟨row, ?_, payload⟩
  rw [← take_append_drop db.events.length (buries db).2.events, kept, isRow]

end Sample

open Sample in
/-- **Failure.**  The lease gets a time to live after the pass has read the attempt behind
it, and before the pass buries that attempt: it is buried with ten microseconds left. -/
theorem sweeps_bury_renewed :
    ∃ world next row, Run (WorldStep postgres Sample.codec fun _ => 5)
        (.initial initial) (sweeping ++ [.client renewal]) world ∧
      WorldStep postgres Sample.codec (fun _ => 5) world
        (.sweep 0 store later) next ∧
      next.db.events = world.db.events ++ [row] ∧
      row.payload = .command (.transitionAttempt "a" .unknown 3 none) ∧
      Protected next.db "a" later.now := by
  obtain ⟨world, run, sameDb, standing⟩ := exists_run_sweeping
  obtain ⟨row, commits, payload⟩ := exists_burial
    (served (started ++ [renewal])) (by decide +kernel)
    (by decide +kernel)
  have renewed : (serve postgres Sample.codec world.db renewal).2 =
      served (started ++ [renewal]) := by
    rw [sameDb, served, served, foldl_append]
    rfl
  refine ⟨_, _, row, (run.mono fun _ _ _ careful => careful.1).append
    (.cons (.client world renewal) (.nil _)), step_buries standing, ?_, payload, ?_⟩
  · simp only [renewed]
    exact commits
  · simp only [renewed]
    decide +kernel

open Sample in
theorem sweeps_spare_unrenewed :
    ∃ world next row, Run (CarefulStep postgres Sample.codec fun _ => 5)
        (.initial initial) sweeping world ∧
      WorldStep postgres Sample.codec (fun _ => 5) world
        (.sweep 0 store later) next ∧
      next.db.events = world.db.events ++ [row] ∧
      row.payload = .command (.transitionAttempt "a" .unknown 3 none) ∧
      ¬ Protected next.db "a" later.now := by
  obtain ⟨world, run, sameDb, standing⟩ := exists_run_sweeping
  obtain ⟨row, commits, payload⟩ := exists_burial (served started)
    (by decide +kernel) (by decide +kernel)
  rw [← sameDb] at commits
  have step := step_buries standing
  exact ⟨world, _, row, run, step, commits, payload,
    sweeps_spare init run step commits payload⟩

/-- **Clients and sweeps are serial.**  However their statements interleave, they leave what a
sequence of calls leaves, with versions and leases in order. -/
theorem sweeps_serial {initial : Db} {staleAfter : Nat → Int} {actions : List WorldAction}
    {world : World} (init : Initialised pg codec initial)
    (run : Run (WorldStep pg codec staleAfter) (.initial initial) actions world) :
    OfHistory pg codec initial world.db ∧ VersionInvariant world.db ∧ LeaseInvariant world.db := by
  obtain ⟨calls, eq⟩ := run.invariant_induction (fun world => OfHistory pg codec initial world.db)
    ⟨[], rfl⟩ fun _ _ _ _ holds step => step.reached holds
  refine ⟨⟨calls, eq⟩, ?_⟩
  rw [eq]
  exact ⟨after_versionInvariant init calls, after_leaseInvariant init calls⟩

open Sample in
theorem sweeps_serial_sweeping : ∃ world : World,
    world.passes 0 = .buryingStale "pppppppppp" [⟨"a", 3, "p"⟩] ∧ LeaseInvariant world.db := by
  obtain ⟨world, run, -, standing⟩ := exists_run_sweeping
  exact ⟨world, standing, (sweeps_serial init (run.mono fun _ _ _ step => step.1)).2.2⟩

end Gridwork.Kernel
