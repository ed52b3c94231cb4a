import Gridwork.Kernel.Epochs
import Gridwork.Kernel.Sweep

/-!
# The writes of a pass

A write of a pass on a row that is still at the version the pass read lands, if nothing
stands in its way (`exists_expired`, `exists_buried`).  The one thing that could is its
idempotency key: it names the trigger, the row and the version, so an event under it would
have moved the row on (`SweepKeys`), as long as clients stay out of the sweep's keys.  The
wire sees to that for a submitted command; it does not for the PTY requests
(`RespectsKeys`).
-/

namespace Gridwork.Kernel

open Domain Lib List SweepWrite Versioned TransitionGuard Option

variable {pg : Postgres} {codec : Codec} {version accepted want : UInt32}
  {target otherTarget : Target} {staleAfter : Nat → Int} {events : List Event}
  {before next world : World} {event genesis : Event}

/-! ## The keys of the sweep -/

theorem SweepWrite.toList_key (write : SweepWrite) (target : Target) :
    (write.key target).toList = SWEEP_KEYS.toList ++
      (write.name ++ ":" ++ target.id ++ ":" ++ toString target.version).toList := by
  have joined : write.key target = SWEEP_KEYS ++ write.name ++ ":" ++ target.id ++ ":" ++
      toString target.version := rfl
  simp only [joined, String.toList_append, append_assoc]

theorem SweepWrite.key_inj {write other : SweepWrite}
    (eq : write.key target = other.key otherTarget) :
    write.name = other.name ∧ target.id = otherTarget.id ∧
      target.version = otherTarget.version := by
  have colonFree (write : SweepWrite) : ':' ∉ write.name.toList := by
    cases write with
    | _ => decide
  have tail : write.name ++ ":" ++ target.id ++ ":" ++ toString target.version =
      other.name ++ ":" ++ otherTarget.id ++ ":" ++ toString otherTarget.version := by
    have lists := congrArg String.toList eq
    rw [write.toList_key, other.toList_key, append_cancel_left_eq] at lists
    exact String.toList_inj.mp lists
  obtain ⟨sameName, sameId, sameVersion⟩ := colonJoin_inj (colonFree write) (colonFree other)
    (colon_notMem_toString target.version.toNat) (colon_notMem_toString otherTarget.version.toNat)
    tail
  exact ⟨sameName, sameId, UInt32.toNat_inj.mp (Nat.repr_inj.mp sameVersion)⟩

/-- Every event under a key of the sweep is a write of the sweep, on the row and just past
the version its key names. -/
def SweepKeys (db : Db) : Prop :=
  ∀ event ∈ db.events, ∀ key, event.idempotencyKey = some key → sweepKeyed key = true →
    ∃ (write : SweepWrite) (target : Target), key = write.key target ∧
      event.aggregate = (write.family, target.id) ∧
      event.aggregateVersion.toNat = target.version.toNat + 1

theorem sweepKeyed_key (write : SweepWrite) (target : Target) :
    sweepKeyed (write.key target) = true := by
  rw [sweepKeyed, List.isPrefixOf_iff_prefix, write.toList_key]
  exact prefix_append _ _

variable {envelope : CommandEnvelope}

theorem decideTransition_ok {S : Type} [DecidableEq S] [TransitionGuard S] {state target : S}
    {receiptId : Option ReceiptId} :
    decideTransition state version target want envelope receiptId = .ok accepted ↔
      guard state target ⟨envelope.actor, receiptId⟩ = .ok () ∧
        StateMachine.canTransition state target = true ∧ version = want ∧
        want.toNat + 1 < 2 ^ 32 ∧ accepted = version := by
  have unkeyed (cursor : Cursor S) (request : TransitionRequest S)
      (none : request.idempotencyKey = none) : isEcho cursor request = false := by
    simp [isEcho, none]
  simp only [decideTransition, apply, unkeyed]
  cases guarded : guard state target ⟨envelope.actor, receiptId⟩ with
  | error violation => simp
  | ok _ =>
    cases legal : StateMachine.canTransition state target with
    | false => simp
    | true =>
      by_cases current : version = want
      · subst current
        by_cases below : version.toNat + 1 < 2 ^ 32
        · simp [checkedSucc_below below, below, eq_comm, -Nat.reducePow]
        · simp [checkedSucc_ceiling below, below, -Nat.reducePow]
      · simp [current]

theorem eq_version_of_decide {db : Db} {write : SweepWrite}
    {route : Route} (decided : decide db envelope (write.command target) route = .ok accepted) :
    accepted = target.version := by
  have ofTransition (decided : decide db envelope
      (.transitionAttempt target.id .unknown target.version none) route = .ok accepted) :
      accepted = target.version := by
    simp only [decide, bind_ok, decideTransition_ok] at decided
    obtain ⟨row, -, -, -, current, -, rfl⟩ := decided
    exact current
  cases write with
  | expireLease =>
    simp only [command, decide, decideCas, bind_ok, exists_unit, require_ok, pure_ok] at decided
    obtain ⟨row, -, current, rfl⟩ := decided
    exact current
  | attemptUnknown | attemptStale => exact ofTransition decided

theorem submit_events (db : Db) (call : Call) : (submit pg codec db call).2.events = db.events ∨
      ∃ request want row kept receipts, Passes codec call request ∧
        decide db call.envelope request.command request.route = .ok want ∧
        want.toNat + 1 < 2 ^ 32 ∧
        Made pg { db with receipts } call request want row kept ∧
        (submit pg codec db call).2.events = db.events ++ [row] := by
  rcases submit_cases db call with
    ⟨refusal, refused⟩ | ⟨request, committed, passes, -, step, submitted⟩
  · exact .inl (by rw [refused])
  · rw [submitted]
    cases step with
    | replayed | refusedInput | paged | refusedControl => exact .inl rfl
    | @landed _ receipts _ _ _ _ _ _ _ _ _ accepted lands =>
      obtain ⟨kept, made⟩ := lands.made
      exact .inr ⟨request, _, _, kept, receipts, passes, accepted, lands.below, made,
        landing_events⟩

theorem SweepKeys.submit {db : Db} (keys : SweepKeys db) {call : Call}
    (own : sweepKeyed call.envelope.idempotencyKey = true →
      ∃ store moment issuedAt write target, call = sweepCall store moment issuedAt write target) :
    SweepKeys (submit pg codec db call).2 := by
  rcases submit_events db call with
    eq | ⟨request, want, row, kept, receipts, passes, decided, below, made, added⟩
  · intro event mem
    rw [eq] at mem
    exact keys event mem
  · intro event mem key keyed reserved
    rw [added, mem_snoc] at mem
    rcases mem with prior | rfl
    · exact keys event prior key keyed reserved
    · rw [made.key, some.injEq] at keyed
      subst keyed
      obtain ⟨store, moment, issuedAt, write, target, rfl⟩ := own reserved
      obtain ⟨isWrite, typed, named⟩ := passes.of_sweepCall
      rw [isWrite] at decided
      have current := eq_version_of_decide decided
      refine ⟨write, target, rfl, made.aggregate.trans (by rw [typed, named]), ?_⟩
      obtain ⟨occurred, -, rfl⟩ := made.isRow
      rw [← current]
      exact toNat_succ below

/-- The PTY requests of clients stay out of the sweep's keys, as the wire sees to it for
every other command. -/
def RespectsKeys : WorldAction → Prop
  | .client (.submitCommand _) => True
  | .client request => sweepKeyed request.call.envelope.idempotencyKey = false
  | .sweep .. | .cut _ => True

theorem serve_cases_of_respectsKeys (pg : Postgres) (codec : Codec) (db : Db)
    {request : ClientRequest}
    (respects : RespectsKeys (.client request)) :
    (serve pg codec db request).2 = db ∨
      ∃ ptyInput, sweepKeyed request.call.envelope.idempotencyKey = false ∧
        (serve pg codec db request).2 = (submit pg codec db { request.call with ptyInput }).2 := by
  cases request with
  | submitCommand call =>
    cases reserved : sweepKeyed call.envelope.idempotencyKey with
    | true => exact .inl (by simp [serve, reserved])
    | false =>
      refine (serve_cases pg codec db (.submitCommand call)).imp_right ?_
      rintro ⟨ptyInput, eq⟩
      exact ⟨ptyInput, reserved, eq⟩
  | _ =>
    refine (serve_cases pg codec db _).imp_right ?_
    rintro ⟨ptyInput, eq⟩
    exact ⟨ptyInput, respects, eq⟩

/-- One step in which clients respect the sweep's keys. -/
abbrev RespectfulStep (pg : Postgres) (codec : Codec) (staleAfter : Nat → Int) (before : World)
    (action : WorldAction) (after : World) : Prop :=
  WorldStep pg codec staleAfter before action after ∧ RespectsKeys action

theorem WorldStep.sweepKeys {action : WorldAction}
    (step : WorldStep pg codec staleAfter before action next) (respects : RespectsKeys action)
    (keys : SweepKeys before.db) : SweepKeys next.db := by
  cases step with
  | client request =>
    rcases serve_cases_of_respectsKeys pg codec before.db respects with
      kept | ⟨ptyInput, unreserved, submitted⟩
    · simp only [kept]
      exact keys
    · simp only [submitted]
      refine keys.submit fun reserved => ?_
      rw [unreserved] at reserved
      cases reserved
  | sweep _ _ _ _ _ step =>
    rcases step.db_cases with kept | ⟨issuedAt, write, target, submitted⟩
    · simp only at kept
      rw [kept]
      exact keys
    · simp only at submitted
      rw [submitted]
      exact keys.submit fun _ => ⟨_, _, issuedAt, write, target, rfl⟩
  | cut => exact keys

/-! ## What the log of a history says -/

/-- **Every history keeps the shape of its log.** -/
theorem after_epochShape {initial : Db} (init : Initialised pg codec initial)
    (calls : List Call) : EpochShape (after pg codec initial calls).events := by
  obtain ⟨genesis, opened⟩ := init.opened
  refine after_induction (fun db => EpochShape db.events) ?_ ?_ calls
  · rw [opened.events]
    exact .sealed opened.isGenesis opened.version
  · intro db call request committed shape passes admits step
    cases step with
    | replayed | refusedInput | paged | refusedControl => exact shape
    | landed fresh _ _ _ _ _ accepted lands =>
      rw [landing_events]
      exact shape.of_lands passes admits fresh accepted lands

theorem EpochShape.active_of_mem (shape : EpochShape events)
    (mem : event ∈ events) (plain : event.aggregateType ≠ KERNEL_AGGREGATE) :
    epochOf events = .active := by
  cases shape with
  | absent => cases mem
  | sealed opens version =>
    rw [mem_singleton.mp mem] at plain
    exact absurd (congrArg Prod.fst opens.aggregate) plain
  | active opens version activates next later =>
    exact epochOf_active opens version activates next later

theorem after_named {initial : Db} (init : Initialised pg codec initial)
    (calls : List Call) :
    ∀ event ∈ (after pg codec initial calls).events, event.aggregateId.isEmpty = false := by
  obtain ⟨genesis, opened⟩ := init.opened
  refine after_induction (fun db => ∀ event ∈ db.events, event.aggregateId.isEmpty = false)
    ?_ ?_ calls
  · intro event mem
    have onKernel : genesis.aggregateId = KERNEL_SINGLETON :=
      congrArg Prod.snd opened.isGenesis.aggregate
    rw [opened.events, mem_singleton] at mem
    rw [mem, onKernel]
    decide
  · intro db call request committed holds passes admits step
    cases step with
    | replayed | refusedInput | paged | refusedControl => exact holds
    | landed _ _ _ _ _ _ _ lands =>
      intro event mem
      rw [landing_events, mem_snoc] at mem
      rcases mem with prior | rfl
      · exact holds event prior
      · obtain ⟨kept, made⟩ := lands.made
        have named : event.aggregateId = request.route.aggregateId :=
          congrArg Prod.snd made.aggregate
        rw [named]
        exact (routeOf_ok.mp passes.routed).2.2.1

/-! ## A write that lands -/

def SweepWrite.request (write : SweepWrite) (target : Target) : Request where
  command := write.command target
  route := ⟨write.family, target.id, (write.command target).address.2⟩
  refusal := none
  inputBinding := none

@[simp] theorem SweepWrite.receiptedPty_request (write : SweepWrite) (target : Target) :
    (write.request target).command.receiptedPty = false := by
  cases write <;> rfl

variable {moment : Moment} {store : Store}

theorem passes_sweepCall (issuedAt : Timestamp) (write : SweepWrite) (permit : moment.permit = true)
    (named : target.id.isEmpty = false) :
    Passes codec (sweepCall store moment issuedAt write target) (write.request target) := by
  have routed : routeOf (sweepCall store moment issuedAt write target).envelope
      (write.request target).command = .ok (write.request target).route := by
    rw [routeOf_ok]
    cases write with
    | _ => exact ⟨rfl, rfl, named, rfl⟩
  cases write with
  | _ =>
    exact ⟨permit, rfl, rfl, rfl, routed, rfl, rfl, rfl, rfl, rfl⟩

/-- A database a pass may find: that of a history, with the sweep's keys in order. -/
structure Ready (pg : Postgres) (codec : Codec) (initial db : Db) : Prop where
  reached : OfHistory pg codec initial db
  keys : SweepKeys db

theorem SweepKeys.of_opened {db : Db} (opened : Opened db genesis) : SweepKeys db := by
  intro event mem key keyed reserved
  rw [opened.events, mem_singleton] at mem
  rw [mem, opened.isGenesis.key, some.injEq] at keyed
  rw [← keyed] at reserved
  exact absurd reserved (by decide)

/-- **Clients that stay out of the sweep's keys leave a database a pass may find.** -/
theorem Ready.of_run {initial : Db} (init : Initialised pg codec initial)
    {actions : List WorldAction}
    (run : Run (RespectfulStep pg codec staleAfter) (.initial initial) actions world) :
    Ready pg codec initial world.db := by
  obtain ⟨genesis, opened⟩ := init.opened
  refine run.invariant_induction (fun world => Ready pg codec initial world.db)
    ⟨⟨[], rfl⟩, .of_opened opened⟩ ?_
  rintro action - before after ready ⟨step, respects⟩
  exact ⟨step.reached ready.reached, step.sweepKeys respects ready.keys⟩

variable {initial db : Db}

theorem Ready.write (ready : Ready pg codec initial db) (store : Store) (moment : Moment)
    (issuedAt : Timestamp) (write : SweepWrite) (target : Target) :
    Ready pg codec initial (submit pg codec db (sweepCall store moment issuedAt write target)).2 :=
  ⟨ready.reached.submit _, ready.keys.submit fun _ => ⟨_, _, _, _, _, rfl⟩⟩

theorem SweepKeys.unused {db : Db} (keys : SweepKeys db) {write : SweepWrite}
    (current : currentAggregateVersion db.events write.family target.id = target.version) :
    eventsForKey db.events target.projectId write.family target.id (write.key target) = [] := by
  have family {other : SweepWrite} (eq : write.name = other.name) :
      write.family = other.family := by
    revert eq
    cases write <;> cases other <;> decide
  simp only [eventsForKey, filter_eq_nil_iff, decide_eq_true_eq]
  rintro event mem ⟨keyed, -⟩
  obtain ⟨other, otherTarget, eq, aggregate, version⟩ :=
    keys event mem _ keyed (sweepKeyed_key write target)
  obtain ⟨sameName, sameId, sameVersion⟩ := key_inj eq
  obtain ⟨sameFamily, ownId⟩ := Prod.ext_iff.mp aggregate
  have reached := le_currentAggregateVersion mem
  rw [show event.aggregateType = write.family from sameFamily.trans (family sameName).symm,
    show event.aggregateId = target.id from ownId.trans sameId.symm, current, version,
    sameVersion] at reached
  omega

/-- The body of a write on a row at a version has room in the log. -/
def Fits (codec : Codec) (version : UInt32) (command : KernelCommand) : Prop :=
  version.toNat + 1 < 2 ^ 32 ∧ codec.inlineSize (.command command) ≤ INLINE_PAYLOAD_MAX_BYTES

/-- Nothing stands in the way of a statement of a pass: the queue and the storage answer, no
other daemon took the writer, and what the pass may write has room. -/
structure Undisturbed (codec : Codec) (store : Store) (moment : Moment) (db : Db) : Prop where
  permit : moment.permit = true
  answers : moment.storage = .answers
  locked : db.writer.epoch = store.bootEpoch
  sequenced : db.writer.nextSeq.toNat + 1 < 2 ^ 64
  leases : ∀ (id : String) (lease : Lease), db.tables.derived.lease[id]? = some lease →
    lease.state = .held → Fits codec lease.version (.expireLease id lease.version)
  attempts : ∀ (id : String) (attempt : Attempt),
    db.tables.derived.attempt[id]? = some attempt → isUncertain attempt.state = true →
    Fits codec attempt.version (.transitionAttempt id .unknown attempt.version none)

theorem targetOf_some {family id : String} : targetOf events family id version = some target ↔
      ∃ first, (aggregateEvents (family, id) events).head? = some first ∧
        target = ⟨id, version, first.projectId⟩ := by
  rw [targetOf, map_eq_some_iff]
  exact exists_congr fun first => and_congr_right fun _ => eq_comm

theorem Ready.of_listed (init : Initialised pg codec initial)
    (ready : Ready pg codec initial db) {write : SweepWrite}
    (listed : targetOf db.events write.family target.id target.version = some target) :
    target.id.isEmpty = false ∧ epochOf db.events = .active := by
  obtain ⟨calls, rfl⟩ := ready.reached
  obtain ⟨first, isFirst, -⟩ := targetOf_some.mp listed
  obtain ⟨mem, aggregate⟩ := mem_aggregateEvents.mp (mem_of_head? isFirst)
  obtain ⟨firstType, firstId⟩ := Prod.ext_iff.mp aggregate
  constructor
  · rw [← show first.aggregateId = target.id from firstId]
    exact after_named init calls first mem
  · refine (after_epochShape init calls).active_of_mem mem ?_
    rw [show first.aggregateType = write.family from firstType]
    cases write with
    | _ => decide

structure Wrote (db : Db) (row : Event) (result : KernelResult) (after : Db) (derived : Derived) :
    Prop where
  isApplied : result.isApplied = true
  events : after.events = db.events ++ [row]
  tables : after.tables.derived = derived

theorem Wrote.grows {db after : Db} {row : Event} {result : KernelResult} {derived : Derived}
    (wrote : Wrote db row result after derived) : db.events <+: after.events := by
  rw [wrote.events]
  exact prefix_append _ _

section Writes

variable (init : Initialised pg codec initial) (ready : Ready pg codec initial db)
  (undisturbed : Undisturbed codec store moment db) (issued : Instant)

include init ready undisturbed

/-- **A write on a current row lands.** -/
theorem exists_wrote (write : SweepWrite)
    (listed : targetOf db.events write.family target.id target.version = some target)
    (current : currentAggregateVersion db.events write.family target.id = target.version)
    (fits : Fits codec target.version (write.command target))
    (decided : decide db (sweepCall store moment (pg.render issued) write target).envelope
      (write.command target) (write.request target).route = .ok target.version)
    (outcome : Derived → Prop)
    (projects : ∀ row : Event, row.aggregateVersion = target.version + 1 →
      (pg.asOf moment.now).instant row.appendedAt = some moment.now →
      ∃ derived, applyDerived (pg.asOf moment.now) row (write.command target) db.tables.derived =
        .ok derived ∧ outcome derived) :
    ∃ row result after derived,
      submit pg codec db (sweepCall store moment (pg.render issued) write target) =
        (result, after) ∧ Wrote db row result after derived ∧ outcome derived := by
  set call := sweepCall store moment (pg.render issued) write target
  have log : LogInvariant db := by
    obtain ⟨calls, rfl⟩ := ready.reached
    exact after_logInvariant init calls
  obtain ⟨named, active⟩ := ready.of_listed init listed
  have passes : Passes codec call
      (write.request target) := passes_sweepCall _ write undisturbed.permit named
  have fresh : Fresh db call (write.request target) := by
    obtain ⟨first, isFirst, isTarget⟩ := targetOf_some.mp listed
    refine ⟨rfl, ready.keys.unused current, ?_, ?_, ?_⟩
    · intro other isOther
      rw [show other = first from some.inj (isOther.symm.trans isFirst)]
      exact (congrArg Target.projectId isTarget).symm
    · simp
    · cases write <;> rfl
  have room : Room codec db call (write.request target) target.version :=
    ⟨fun _ want => (by cases want), current, fits.1, fits.2, undisturbed.sequenced⟩
  have plain : storedBody pg (.command (write.request target).command) =
      some (.command (write.request target).command) := by
    cases write <;> rfl
  obtain ⟨row, inserts⟩ := exists_inserts log passes fresh plain (pg.reads_render _ issued) room
  obtain ⟨derived, applies, holds⟩ := projects row inserts.version inserts.appended
  have lands : Lands pg codec db call
      (write.request target) target.version row { db.tables with derived } := by
    refine ⟨room.agreed, fits.1, fits.2, current, inserts.inserted, undisturbed.sequenced, ?_, ?_⟩
    · rw [inserts.isEvent.applyEvent_ok]
      refine ⟨derived, db.tables.attention, applies, ?_, rfl⟩
      cases write <;> rfl
    · simp
  have unclassified : authorityDecision pg db call (write.request target) = .ok .unclassified := by
    cases write <;> rfl
  have step := Step.landed fresh unclassified (fun _ _ page => by cases page) (by simp) rfl
    (by cases write <;> rfl) decided lands
  have admits : Admits db call (write.request target) := by
    refine ⟨?_, undisturbed.locked, ?_⟩
    · simp [storageAnswers, call, sweepCall, undisturbed.answers]
    · rw [active]
      rfl
  refine ⟨row, _, _, derived, submit_of_step passes admits step, ⟨?_, landing_events, ?_⟩, holds⟩
  · cases mark : watermark (db.events ++ [row]) with
    | none =>
      rw [watermark_none] at mark
      simp at mark
    | some sequence =>
      simp [Committed.reply, applied, call, sweepCall, undisturbed.answers, landing_events, mark,
        KernelResult.isApplied]
  · rw [landing_tables]

theorem exists_expired {lease : Lease} (hit : db.tables.derived.lease[target.id]? = some lease)
    (held : lease.state = .held)
    (listed : targetOf db.events "lease" target.id lease.version = some target) :
    ∃ row result after derived,
      submit pg codec db (sweepCall store moment (pg.render issued) .expireLease target) =
        (result, after) ∧ Wrote db row result after derived ∧ ∃ changed : Lease,
      derived =
        { db.tables.derived with lease := db.tables.derived.lease.insert target.id changed } ∧
      changed.state = .expired := by
  obtain ⟨first, isFirst, isTarget⟩ := targetOf_some.mp listed
  have version : target.version = lease.version := congrArg Target.version isTarget
  have tracked : lease.version = currentAggregateVersion db.events "lease" target.id := by
    obtain ⟨calls, rfl⟩ := ready.reached
    exact (after_versionInvariant init calls).agree.lease target.id lease hit
  have fits := undisturbed.leases target.id lease hit held
  rw [← version] at listed tracked fits
  have decided : decide db (sweepCall store moment (pg.render issued) .expireLease target).envelope
      (.expireLease target.id target.version) (expireLease.request target).route =
        .ok target.version := by
    simp only [request, decide, decideCas, bind_ok, exists_unit, require_ok, pure_ok, fetch_ok]
    exact ⟨lease, hit, version.symm, version⟩
  refine exists_wrote init ready undisturbed issued .expireLease listed tracked.symm fits
    decided _ fun row next dated => ?_
  have revised : applyLease (pg.asOf moment.now) row (.expireLease target.id target.version)
      db.tables.derived.lease = .ok (db.tables.derived.lease.insert target.id
        (stamp { lease with state := .expired } row.aggregateVersion moment.now)) := by
    refine revise_ok.mpr ⟨lease, moment.now, _, hit, dated, rfl, ?_, rfl⟩
    refine require_ok.mpr ?_
    change row.aggregateVersion.toNat = lease.version.toNat + 1
    rw [next, ← version]
    exact toNat_succ fits.1
  refine ⟨_, ?_,
    stamp { lease with state := .expired } row.aggregateVersion moment.now, rfl, rfl⟩
  rw [command, applyDerived, revised]
  rfl

theorem exists_buried {write : SweepWrite} (burial : write ≠ .expireLease) {attempt : Attempt}
    (hit : db.tables.derived.attempt[target.id]? = some attempt)
    (uncertain : isUncertain attempt.state = true)
    (listed : targetOf db.events "attempt" target.id attempt.version = some target) :
    ∃ row result after derived,
      submit pg codec db (sweepCall store moment (pg.render issued) write target) =
        (result, after) ∧ Wrote db row result after derived ∧ ∃ changed : Attempt,
      derived =
        { db.tables.derived with attempt := db.tables.derived.attempt.insert target.id changed } ∧
      changed.state = .unknown := by
  obtain ⟨first, isFirst, isTarget⟩ := targetOf_some.mp listed
  have version : target.version = attempt.version := congrArg Target.version isTarget
  have tracked : attempt.version = currentAggregateVersion db.events "attempt" target.id := by
    obtain ⟨calls, rfl⟩ := ready.reached
    exact (after_versionInvariant init calls).agree.attempt target.id attempt hit
  have fits := undisturbed.attempts target.id attempt hit uncertain
  rw [← version] at listed tracked fits
  have isBurial : write.command target = .transitionAttempt target.id .unknown target.version none ∧
      write.family = "attempt" := by
    cases write with
    | expireLease => exact absurd rfl burial
    | attemptUnknown | attemptStale => exact ⟨rfl, rfl⟩
  have decided : decide db (sweepCall store moment (pg.render issued) write target).envelope
      (write.command target) (write.request target).route = .ok target.version := by
    simp only [isBurial.1, request, decide, bind_ok, fetch_ok, decideTransition_ok]
    have unguarded : AttemptState.isFlip attempt.state .unknown = false := by
      cases attempt.state <;> rfl
    refine ⟨attempt, hit, ?_, uncertain, version.symm, fits.1, version⟩
    simp [TransitionGuard.guard, unguarded]
  refine exists_wrote init ready undisturbed issued write (isBurial.2 ▸ listed)
    (isBurial.2 ▸ tracked.symm) (isBurial.1 ▸ fits) decided _ fun row next dated => ?_
  have revised : applyAttempt (pg.asOf moment.now) row
      (.transitionAttempt target.id .unknown target.version none)
      db.tables.derived.task db.tables.derived.lease db.tables.derived.attempt =
      .ok (db.tables.derived.attempt.insert target.id
        (stamp { attempt with state := .unknown } row.aggregateVersion moment.now)) := by
    refine revise_ok.mpr ⟨attempt, moment.now, _, hit, dated, rfl, ?_, rfl⟩
    simp only [Versioned.guard, assertTransition, bind_ok, exists_unit,
      require_ok, assertVersionCas]
    refine ⟨.inr uncertain, ?_⟩
    change row.aggregateVersion.toNat = attempt.version.toNat + 1
    rw [next, ← version]
    exact toNat_succ fits.1
  refine ⟨_, ?_,
    stamp { attempt with state := .unknown } row.aggregateVersion moment.now, rfl, rfl⟩
  rw [isBurial.1, applyDerived, revised]
  rfl

end Writes

end Gridwork.Kernel
