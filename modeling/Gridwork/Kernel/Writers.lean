import Mathlib.Data.List.Pairwise
import Gridwork.Kernel.Acts
import Gridwork.Lib.RowLock

/-!
# Several kernels over one database

Every process claims an epoch when it opens the store, and every transaction that appends
locks the writer row and compares that epoch before anything else.  `Work` lists these
transactions, and `Extends` says what each does to the log: it leaves it alone, or adds
rows whose sequence numbers start at the writer's next one.
-/

namespace Gridwork.Kernel

open Domain Lib List Option UInt64

variable {pg : Postgres} {codec : Codec} {before after db result : Db} {now : Instant}
  {batch : List Event} {appended : Appended} {epoch : Int}

/-! ## The transactions -/

/-- `append`: a batch on one aggregate, in a transaction of its own. -/
def append (pg : Postgres) (codec : Codec) (store : Store) (now : Instant) (db : Db)
    (expectedVersion : UInt32) (batch : List Event) : Except AppendError Appended := do
  lockWriter store db
  appendLocked pg codec db now expectedVersion batch

inductive Work where
  | append (store : Store) (now : Instant) (expectedVersion : UInt32) (batch : List Event)
  | submit (call : Call) (request : Request)
  | record (recording : Recording)
  | genesis (store : Store) (now : Instant) (publicRevision : String)

def Work.store : Work → Store
  | append store .. | genesis store .. => store
  | submit call _ => call.store
  | record recording => recording.store

def Work.run (pg : Postgres) (codec : Codec) : Work → Db → Option Db
  | append store now expectedVersion batch, db =>
    (Kernel.append pg codec store now db expectedVersion batch).toOption.map (·.db)
  | submit call request, db => (transact pg codec db call request).toOption.map (·.db)
  | record recording, db => (recordContextFact pg codec db recording).toOption.map (·.db)
  | genesis store now publicRevision, db =>
    (ensureGenesis pg codec store now publicRevision db).toOption

/-! ## Rows at the end of the log -/

/-- A transaction adds rows to the end of the log, numbered from the writer's next sequence
number on, and leaves the epoch alone. -/
def Extends (before after : Db) : Prop :=
  after.writer.epoch = before.writer.epoch ∧ ∃ rows, after.events = before.events ++ rows ∧
      rows.map (·.globalSequence.toNat) = List.range' before.writer.nextSeq.toNat rows.length ∧
      after.writer.nextSeq.toNat = before.writer.nextSeq.toNat + rows.length

theorem Extends.of_same (epoch : after.writer.epoch = before.writer.epoch)
    (events : after.events = before.events)
    (nextSeq : after.writer.nextSeq = before.writer.nextSeq) : Extends before after :=
  ⟨epoch, [], by simp [events], rfl, by simp [nextSeq]⟩

theorem Extends.of_row {row : Event} (epoch : after.writer.epoch = before.writer.epoch)
    (events : after.events = before.events ++ [row])
    (sequence : row.globalSequence = before.writer.nextSeq)
    (room : before.writer.nextSeq.toNat + 1 < 2 ^ 64)
    (nextSeq : after.writer.nextSeq = before.writer.nextSeq + 1) : Extends before after := by
  refine ⟨epoch, [row], events, by simp [sequence], ?_⟩
  rw [nextSeq, UInt64.toNat_add]
  exact Nat.mod_eq_of_lt room

theorem Extends.isPrefix (growth : Extends before after) : before.events <+: after.events := by
  obtain ⟨-, rows, events, -, -⟩ := growth
  exact events ▸ prefix_append _ _

theorem insertBatch_numbered {nextSeq : Seq} :
    ∀ {log appended rows : List Event}, insertBatch pg now nextSeq log appended batch = .ok rows →
      ∃ new, rows = appended ++ new ∧ new.length = batch.length ∧ new.map (·.globalSequence.toNat) =
          List.range' (nextSeq.toNat + appended.length) batch.length := by
  -- the induction is on what is left of the batch; the rows inserted so far give the offset
  induction batch with
  | nil =>
    intro log appended rows inserted
    cases inserted
    exact ⟨[], by simp⟩
  | cons event rest ih =>
    intro log appended rows inserted
    rw [insertBatch] at inserted
    split at inserted
    next room =>
      simp only [bind_ok, insertEvent_ok] at inserted
      obtain ⟨row, ⟨occurred, payload, -, -, rfl, -⟩, later⟩ := inserted
      obtain ⟨new, rfl, length, numbers⟩ := ih later
      refine ⟨_ :: new, append_assoc .., by simp [length], ?_⟩
      have first : (ofNat (nextSeq.toNat + appended.length)).toNat =
          nextSeq.toNat + appended.length := toNat_ofNat_of_lt' room
      rw [map_cons, numbers, length_cons, range'_succ, length_append,
        length_singleton, ← Nat.add_assoc]
      exact congrArg (· :: _) first
    next => cases inserted

/-- **Every append extends the log.** -/
theorem extends_of_appendLocked {want : UInt32}
    (appends : appendLocked pg codec db now want batch = .ok appended) :
    Extends db appended.db := by
  simp only [appendLocked, bind_ok] at appends
  obtain ⟨-, -, appends⟩ := appends
  split at appends
  next => cases appends
  next =>
    split at appends
    next =>
      simp only [appendNew, bind_ok, exists_unit, require_ok, pure_ok] at appends
      obtain ⟨-, rows, inserted, room, rfl⟩ := appends
      obtain ⟨new, isNew, length, numbers⟩ := insertBatch_numbered inserted
      obtain rfl : rows = new := isNew
      refine ⟨rfl, rows, rfl, ?_, ?_⟩
      · rw [numbers, length]
        rfl
      · rw [length]
        exact toNat_ofNat_of_lt' room
    next =>
      unfold answerRepeated at appends
      split at appends
      next =>
        split at appends
        next =>
          cases appends
          exact .of_same rfl rfl rfl
        next => cases appends
      next => cases appends

theorem extends_of_step {call : Call} {request : Request} {committed : Committed}
    (step : Step pg codec db call request committed) : Extends db committed.db := by
  cases step with
  | replayed | refusedInput | paged | refusedControl => exact .of_same rfl rfl rfl
  | landed _ _ _ _ _ _ _ lands =>
    obtain ⟨kept, made⟩ := lands.made
    exact .of_row landing_epoch landing_events made.sequence lands.sequenced landing_nextSeq

theorem extends_of_recordStep {recording : Recording} {route : Route}
    (step : RecordStep pg codec db recording route appended) :
    Extends db appended.db := by
  cases step with
  | replayed => exact .of_same rfl rfl rfl
  | landed unused lands =>
    obtain ⟨occurred, payload, -, -, rfl, -⟩ := insertEvent_ok.mp lands.inserted
    exact .of_row recordLanding_epoch recordLanding_events rfl lands.sequenced recordLanding_nextSeq

theorem extends_of_ensureGenesis {store : Store} {publicRevision : String}
    (opens : ensureGenesis pg codec store now publicRevision db = .ok result) :
    Extends db result := by
  simp only [ensureGenesis, bind_ok, exists_unit] at opens
  obtain ⟨-, -, opens⟩ := opens
  split at opens
  next =>
    cases opens
    exact .of_same rfl rfl rfl
  next =>
    simp only [bind_ok, mapError_ok, pure_ok] at opens
    obtain ⟨appended, appends, rfl⟩ := opens
    exact extends_of_appendLocked appends

/-- **Every transaction of the kernel extends the log.** -/
theorem Work.run_extends {work : Work} (commits : work.run pg codec db = some result) :
    Extends db result := by
  cases work with
  | append store now expectedVersion batch =>
    obtain ⟨appended, answered, rfl⟩ := map_eq_some_iff.mp commits
    have appends := toOption_some.mp answered
    simp only [Kernel.append, bind_ok, exists_unit] at appends
    exact extends_of_appendLocked appends.2
  | submit call request =>
    obtain ⟨committed, answered, rfl⟩ := map_eq_some_iff.mp commits
    exact extends_of_step (transact_ok.mp (toOption_some.mp answered)).2
  | record recording =>
    obtain ⟨appended, answered, rfl⟩ := map_eq_some_iff.mp commits
    obtain ⟨-, route, -, step⟩ :=
      recordContextFact_ok.mp (toOption_some.mp answered)
    exact extends_of_recordStep step
  | genesis store now publicRevision =>
    exact extends_of_ensureGenesis (toOption_some.mp commits)

/-- The sequence numbers of the log rise, and the writer's next one is past them all. -/
structure Rising (db : Db) : Prop where
  ordered : db.events.Pairwise fun prior later => prior.globalSequence < later.globalSequence
  below : ∀ event ∈ db.events, event.globalSequence.toNat < db.writer.nextSeq.toNat

theorem Rising.extend (rising : Rising before) (growth : Extends before after) : Rising after := by
  obtain ⟨-, rows, events, numbers, nextSeq⟩ := growth
  have place (row : Event) (mem : row ∈ rows) :
      before.writer.nextSeq.toNat ≤ row.globalSequence.toNat ∧
        row.globalSequence.toNat < before.writer.nextSeq.toNat + rows.length := by
    have listed := List.mem_map_of_mem (f := fun row : Event => row.globalSequence.toNat) mem
    rw [numbers, mem_range'_1] at listed
    exact listed
  constructor
  · rw [events, pairwise_append]
    refine ⟨rising.ordered, ?_, ?_⟩
    · have counting : (rows.map (·.globalSequence.toNat)).Pairwise (· < ·) := by
        rw [numbers]
        exact pairwise_lt_range'
      refine (pairwise_map.mp counting).imp ?_
      intro prior later less
      exact lt_iff_toNat_lt.mpr less
    · intro prior inLog later isNew
      exact lt_iff_toNat_lt.mpr ((rising.below prior inLog).trans_le (place later isNew).1)
  · intro event mem
    rw [events, mem_append] at mem
    rw [nextSeq]
    rcases mem with inLog | isNew
    · exact (rising.below event inLog).trans_le (Nat.le_add_right _ _)
    · exact (place event isNew).2

/-! ## Interleavings -/

/-- The epoch of the writer row, and `claim_epoch`. -/
def writerRow : RowLock.Fence Db where
  epoch db := db.writer.epoch
  claim db := { db with writer := { db.writer with epoch := db.writer.epoch + 1 } }
  epoch_claim _ := rfl

/-- A process that claimed an epoch runs a transaction of the kernel on its own store, cut
into statements in some way that alone has the transaction's effect. -/
def Runs (pg : Postgres) (codec : Codec) (epoch : Int) (body : Body Db) : Prop :=
  ∃ work : Work, work.store.bootEpoch = epoch ∧
    ∀ db : Db, db.writer.epoch = epoch → body.serial db = work.run pg codec db

theorem Runs.serial_extends {body : Body Db} (runs : Runs pg codec epoch body)
    (current : db.writer.epoch = epoch)
    (commits : body.serial db = some result) : Extends db result := by
  obtain ⟨work, -, effect⟩ := runs
  exact Work.run_extends ((effect db current).symm.trans commits)

variable {Process Session : Type} [DecidableEq Process]

theorem serialStep_rising {before after : Db × (Process → Option Int)}
    {action : RowLock.Action Db Process Session}
    (step : RowLock.SerialStep writerRow (Runs pg codec) before action after)
    (rising : Rising before.1) : Rising after.1 ∧ before.1.events <+: after.1.events := by
  cases step with
  | claim => exact ⟨⟨rising.ordered, rising.below⟩, prefix_rfl⟩
  | commit current allows alone =>
    have growth := allows.serial_extends rfl alone
    exact ⟨rising.extend growth, growth.isPrefix⟩
  | silent => exact ⟨rising, prefix_rfl⟩

/-- **A superseded writer cannot write.**  Over one database, in every interleaving of
processes that claim an epoch and run appends, submissions, context facts and genesis: no
process commits a transaction after another has claimed an epoch later than its own; what
was committed earlier stays at the head of the log; and the sequence numbers rise strictly
along it. -/
theorem writers_fenced [DecidableEq Session] {time : Instant}
    {final : RowLock.World Db Process Session} {actions : List (RowLock.Action Db Process Session)}
    (run : Run (RowLock.Step writerRow (Runs pg codec)) (.initial (Db.created epoch time)) actions
      final) :
    (∀ before session process after, actions = before ++ .commit session process :: after →
      ¬ RowLock.Superseded process before) ∧
      (∀ prior later mid,
        Run (RowLock.Step writerRow (Runs pg codec)) (.initial (Db.created epoch time)) prior
          mid →
        Run (RowLock.Step writerRow (Runs pg codec)) mid later final →
        mid.data.events <+: final.data.events) ∧
      final.data.events.Pairwise fun prior later =>
        prior.globalSequence < later.globalSequence := by
  have created : Rising (Db.created epoch time) := ⟨.nil, by simp [Db.created]⟩
  refine ⟨?_, ?_, ?_⟩
  · intro before session process after commits
    refine RowLock.fenced ?_ run commits
    intro body db result runs alone
    exact (runs.serial_extends rfl alone).1
  · intro prior later mid first second
    have rising : Rising mid.data := by
      refine (RowLock.run_refines (.initial _) first).invariant_induction (Rising ·.1) created ?_
      intro action mem before after holds step
      exact (serialStep_rising step holds).1
    have invariant := first.invariant_induction (RowLock.Invariant writerRow (Runs pg codec))
      (.initial _) fun action mem before after holds step => step.invariant holds
    refine And.right <| (RowLock.run_refines invariant second).invariant_induction
      (fun state => Rising state.1 ∧ mid.data.events <+: state.1.events)
      ⟨rising, prefix_rfl⟩ ?_
    rintro action mem before after ⟨holds, isPrefix⟩ step
    obtain ⟨kept, grows⟩ := serialStep_rising step holds
    exact ⟨kept, isPrefix.trans grows⟩
  · refine Rising.ordered ?_
    refine (RowLock.run_refines (.initial _) run).invariant_induction (Rising ·.1) created ?_
    intro action mem before after holds step
    exact (serialStep_rising step holds).1

/-- Genesis on the store that claimed epoch 1, as a transaction in one statement. -/
def Sample.opening : Body Db :=
  .single ((Work.genesis Sample.store 1 "0000000000000000000000000000000000000000").run
    Sample.postgres Sample.codec)

theorem Sample.opening_runs : Runs Sample.postgres Sample.codec 1 Sample.opening :=
  ⟨.genesis Sample.store 1 "0000000000000000000000000000000000000000", rfl,
    fun db _ => Body.serial_single _ db⟩

/-- The first process commits genesis.  A second claims the epoch while a transaction of the
first waits for the lock, and that transaction stops. -/
def Sample.takeover : List (RowLock.Action Db Nat Nat) :=
  [.claim 1, .start 0 1 Sample.opening, .lock 0, .statement 0, .commit 0 1,
    .start 1 1 Sample.opening, .claim 2, .stop 1]

open Sample in
theorem writers_fenced_takeover :
    ∃ final, Run (RowLock.Step writerRow (Runs postgres Sample.codec))
        (.initial (Db.created 0 0)) takeover final ∧
      final.data.events.length = 1 ∧ final.data.writer.epoch = 2 ∧
      ∀ before session process after, takeover = before ++ .commit session process :: after →
          ¬ RowLock.Superseded process before := by
  obtain ⟨final, run, length, epoch⟩ : ∃ final,
      Run (RowLock.Step writerRow (Runs postgres Sample.codec)) (.initial (Db.created 0 0))
        takeover final ∧ final.data.events.length = 1 ∧ final.data.writer.epoch = 2 := by
    refine Run.exists_cons (.claim rfl rfl) ?_
    refine Run.exists_cons (.start rfl rfl opening_runs) ?_
    refine Run.exists_cons (.lock rfl rfl rfl) ?_
    refine Run.exists_cons (.statement rfl) ?_
    refine Run.exists_cons (.commit rfl) ?_
    refine Run.exists_cons (.start rfl rfl opening_runs) ?_
    refine Run.exists_cons (.claim rfl rfl) ?_
    exact Run.exists_cons .stop ⟨_, .nil _, rfl, rfl⟩
  exact ⟨final, run, length, epoch, (writers_fenced run).1⟩

end Gridwork.Kernel
