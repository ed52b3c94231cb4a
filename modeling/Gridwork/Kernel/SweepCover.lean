import Gridwork.Kernel.SweepWrites

/-!
# What one pass leaves behind

A pass that nothing disturbs lands every write it makes.  So it expires every lease whose
time was up when it started and buries the attempts behind them, and then every silent
attempt with no timed lease behind it.

What it does not reach is a blocked attempt whose lease had already left `held`: the lease
arm reads held leases only, and the stale arm leaves blocked attempts alone.
`sweep_covers` says that nothing else escapes.
-/

namespace Gridwork.Kernel

open Domain Lib List Option Attempt Std.TreeMap Rows

variable {pg : Postgres} {codec : Codec} {target : Target} {id : String} {events : List Event}
  {pending rest : List Target} {states : Nat → Pass × Db} {issued now : Instant} {last : Nat}

/-! ## Rows and their events -/

section Rooted

variable {Row : Type} [Versioned Row] [Numbered Row]

def Rooted (events : List Event) (rows : Rows Row) : Prop :=
  ∀ (id : String) (row : Row), rows[id]? = some row →
    ∃ first, (aggregateEvents (Numbered.family Row, id) events).head? = some first

theorem Rooted.snoc {event : Event} {rows result : Rows Row}
    (rooted : Rooted events rows) (touches : Touches event rows result) :
    Rooted (events ++ [event]) result := by
  intro id row hit
  have kept (known : rows[id]? = some row) :
      ∃ first, (aggregateEvents (Numbered.family Row, id) (events ++ [event])).head? =
        some first := by
    obtain ⟨first, isFirst⟩ := rooted id row known
    exact ⟨first, head?_aggregateEvents_snoc event isFirst⟩
  unfold Touches at touches
  by_cases family : event.aggregateType = Numbered.family Row
  · rw [if_pos family] at touches
    have moved := touches id row hit
    by_cases own : id = event.aggregateId
    · rw [aggregateEvents_snoc, if_pos (Prod.ext family own.symm)]
      cases aggregateEvents (Numbered.family Row, id) events with
      | nil => exact ⟨event, rfl⟩
      | cons first rest => exact ⟨first, rfl⟩
    · rw [if_neg own] at moved
      exact kept moved
  · rw [if_neg family] at touches
    exact kept (touches ▸ hit)

end Rooted

/-- **Every lease and every attempt of a history has a first event.** -/
theorem after_rooted {initial : Db} (init : Initialised pg codec initial)
    (calls : List Call) :
    let db := after pg codec initial calls
    Rooted db.events db.tables.derived.lease ∧ Rooted db.events db.tables.derived.attempt := by
  obtain ⟨genesis, opened⟩ := init.opened
  refine after_induction (fun db => Rooted db.events db.tables.derived.lease ∧
    Rooted db.events db.tables.derived.attempt) ?_ ?_ calls
  · rw [opened.tables]
    constructor
    · intro id lease hit
      simp [Projections.empty, Derived.empty] at hit
    · intro id attempt hit
      simp [Projections.empty, Derived.empty] at hit
  · intro db call request committed holds passes admits step
    cases step with
    | replayed | refusedInput | paged | refusedControl => exact holds
    | landed _ _ _ _ _ _ _ lands =>
      obtain ⟨kept, made, each⟩ := lands.applies passes
      have addressed := made.addressed passes
      obtain ⟨envelope, target⟩ := addressed.target
      rw [landing_events, landing_tables]
      exact ⟨holds.1.snoc (touches_applyLease addressed target each.lease),
        holds.2.snoc (touches_applyAttempt addressed target each.attempt)⟩

/-! ## What a pass has yet to write -/

theorem targetOf_of_prefix {later : List Event} {family : String} {version : UInt32}
    (grows : events <+: later) (listed : targetOf events family id version = some target) :
    targetOf later family id version = some target := by
  obtain ⟨first, isFirst, isTarget⟩ := targetOf_some.mp listed
  obtain ⟨more, rfl⟩ := grows
  refine targetOf_some.mpr ⟨first, ?_, isTarget⟩
  simp only [aggregateEvents] at isFirst ⊢
  rw [filter_append, head?_append, isFirst]
  rfl

section Pending

variable {Row : Type} {family : String} {version : Row → UInt32} {selects chosen : Row → Bool}
  {rows : Rows Row}

/-- Rows a pass has read and not yet written, each still as it was read. -/
structure Pending (events : List Event) (family : String) (version : Row → UInt32)
    (selects : Row → Bool) (rows : Rows Row) (pending : List Target) : Prop where
  apart : (pending.map (·.id)).Nodup
  listed : ∀ target ∈ pending, ∃ row, rows[target.id]? = some row ∧ selects row = true ∧
    targetOf events family target.id (version row) = some target

theorem nodup_targets : ((targets events family version rows selects).map (·.id)).Nodup := by
  rw [List.Nodup, pairwise_map, targets, pairwise_filterMap]
  refine distinct_keys_toList.imp ?_
  rintro ⟨id, row⟩ ⟨otherId, otherRow⟩ distinct target isTarget other isOther
  simp only [ite_none_right_eq_some] at isTarget isOther
  obtain ⟨_, -, rfl⟩ := targetOf_some.mp isTarget.2
  obtain ⟨_, -, rfl⟩ := targetOf_some.mp isOther.2
  simpa using distinct

theorem Pending.of_subset (apart : (pending.map (·.id)).Nodup)
    (read : pending ⊆ targets events family version rows chosen)
    (selected : ∀ row, chosen row = true → selects row = true) :
    Pending events family version selects rows pending where
  apart := apart
  listed target mem := by
    obtain ⟨row, hit, isChosen, listed⟩ := mem_targets_iff.mp (read mem)
    exact ⟨row, hit, selected row isChosen, listed⟩

theorem Pending.tail {later : List Event} (grows : events <+: later)
    (changed : Row) (holds : Pending events family version selects rows (target :: pending)) :
    Pending later family version selects (rows.insert target.id changed) pending where
  apart := (nodup_cons.mp holds.apart).2
  listed other mem := by
    obtain ⟨hit, present, selected, listed⟩ := holds.listed other (mem_cons_of_mem _ mem)
    refine ⟨hit, ?_, selected, targetOf_of_prefix grows listed⟩
    have ne : target.id ≠ other.id := by
      intro eq
      exact (nodup_cons.mp holds.apart).1 (List.mem_map.mpr ⟨other, mem, eq.symm⟩)
    rw [getElem?_insert_eq, if_neg ne]
    exact present

end Pending

/-! ## One pass -/

/-- A pass that nothing disturbs, statement by statement; the clock has moved on by its
second statement. -/
structure Passage (pg : Postgres) (codec : Codec) (store : Store) (staleAfter : Int) (base : Db)
    (states : Nat → Pass × Db) (moment : Nat → Moment) : Prop where
  starts : states 0 = (.start, base)
  steps : ∀ index, PassStep pg codec store staleAfter (states index) (moment index)
    (states (index + 1))
  undisturbed : ∀ index, Undisturbed codec store (moment index) (states index).2
  later : ∀ index, (moment 0).now < (moment (index + 1)).now

variable {index : Nat}

theorem Passage.next {store : Store} {staleAfter : Int} {base : Db}
    {moment : Nat → Moment} (passage : Passage pg codec store staleAfter base states moment)
    {before : Pass × Db} (standing : states index = before) :
    ∃ after, states (index + 1) = after ∧
      PassStep pg codec store staleAfter before (moment index) after :=
  ⟨_, rfl, standing ▸ passage.steps index⟩

structure Buries (pending : List Target) (before after : Db) : Prop where
  log : before.events <+: after.events
  leases : after.tables.derived.lease = before.tables.derived.lease
  buried : ∀ target ∈ pending, ∃ attempt,
    after.tables.derived.attempt[target.id]? = some attempt ∧ attempt.state = .unknown
  others : ∀ id, id ∉ pending.map (·.id) →
    after.tables.derived.attempt[id]? = before.tables.derived.attempt[id]?

variable {before after mid : Db} {attempt : Attempt}

theorem Buries.of_uncertain (buries : Buries pending before after)
    (hit : after.tables.derived.attempt[id]? = some attempt)
    (uncertain : isUncertain attempt.state = true) :
    before.tables.derived.attempt[id]? = some attempt ∧ id ∉ pending.map (·.id) := by
  have spared : id ∉ pending.map (·.id) := by
    intro mem
    obtain ⟨target, inside, rfl⟩ := List.mem_map.mp mem
    obtain ⟨buried, present, unknown⟩ := buries.buried target inside
    obtain rfl : buried = attempt := some.inj (present.symm.trans hit)
    rw [unknown] at uncertain
    cases uncertain
  exact ⟨(buries.others id spared).symm.trans hit, spared⟩

section Loops

variable {store : Store} {staleAfter : Int} {moment : Nat → Moment} {initial base : Db} {db : Db}

/-- **A loop that buries a list of attempts gets through it.**  Both arms have one. -/
theorem Passage.bury_each (passage : Passage pg codec store staleAfter base states moment)
    (init : Initialised pg codec initial) (write : SweepWrite)
    (burial : write ≠ .expireLease) (shape : List Target → Pass)
    (writes : ∀ index target rest db, states index = (shape (target :: rest), db) →
      states (index + 1) = (shape rest, (submit pg codec db
          (sweepCall store (moment index) (pg.render issued) write target)).2))
    (pending : List Target) (standing : states index = (shape pending, db))
    (ready : Ready pg codec initial db)
    (current : Pending db.events "attempt" version (isUncertain ·.state)
      db.tables.derived.attempt pending) :
    ∃ next after, states next = (shape [], after) ∧ Ready pg codec initial after ∧
      Buries pending db after := by
  induction pending generalizing index db with
  | nil =>
    exact ⟨index, db, standing, ready, prefix_rfl, rfl, fun _ mem => (by cases mem),
      fun _ _ => rfl⟩
  | cons target rest ih =>
    have undisturbed := passage.undisturbed index
    rw [standing] at undisturbed
    obtain ⟨attempt, hit, uncertain, listed⟩ := current.listed target mem_cons_self
    obtain ⟨row, result, mid, derived, submitted, wrote, changed, rfl, unknown⟩ :=
      exists_buried init ready undisturbed issued burial hit uncertain listed
    have next := writes index target rest db standing
    have readyNext := ready.write store (moment index) (pg.render issued) write target
    rw [submitted] at next readyNext
    have left : Pending mid.events "attempt" version (isUncertain ·.state)
        mid.tables.derived.attempt rest := by
      rw [wrote.tables]
      exact current.tail wrote.grows changed
    obtain ⟨final, after, ends, readyAfter, buries⟩ := ih next readyNext left
    have headSpared : target.id ∉ rest.map (·.id) := (nodup_cons.mp current.apart).1
    refine ⟨final, after, ends, readyAfter, wrote.grows.trans buries.log, ?_, ?_, ?_⟩
    · rw [buries.leases, wrote.tables]
    · intro other mem
      rcases mem_cons.mp mem with rfl | inRest
      · refine ⟨changed, ?_, unknown⟩
        rw [buries.others _ headSpared, wrote.tables, getElem?_insert_eq, if_pos rfl]
      · exact buries.buried other inRest
    · intro id spared
      simp only [map_cons, mem_cons, not_or] at spared
      rw [buries.others id spared.2, wrote.tables, getElem?_insert_eq, if_neg (Ne.symm spared.1)]

/-- What expiring a list of leases, and burying what is behind them, does. -/
structure Expires (pending : List Target) (before after : Db) : Prop where
  others : ∀ id, id ∉ pending.map (·.id) →
    after.tables.derived.lease[id]? = before.tables.derived.lease[id]?
  attempts : ∀ (id : String) (attempt : Attempt),
    after.tables.derived.attempt[id]? = some attempt → isUncertain attempt.state = true →
    before.tables.derived.attempt[id]? = some attempt ∧
      ∀ leaseId ∈ attempt.worktreeLeaseId, leaseId ∉ pending.map (·.id)

theorem Expires.cons {after : Db} (first : Expires [target] before mid)
    (rest : Expires pending mid after) :
    Expires (target :: pending) before after where
  others id spared := by
    rw [map_cons, mem_cons, not_or] at spared
    rw [rest.others id spared.2, first.others id fun mem => spared.1 (mem_singleton.mp mem)]
  attempts id attempt hit uncertain := by
    obtain ⟨there, elsewhere⟩ := rest.attempts id attempt hit uncertain
    obtain ⟨before, notFirst⟩ := first.attempts id attempt there uncertain
    refine ⟨before, fun leaseId names => ?_⟩
    rw [map_cons, mem_cons, not_or]
    exact ⟨fun eq => notFirst leaseId names (mem_singleton.mpr eq), elsewhere leaseId names⟩

theorem exists_mem_targets {Row : Type} [Versioned Row] [Numbered Row]
    {rows : Rows Row} (rooted : Rooted events rows) (version : Row → UInt32)
    (selects : Row → Bool) {row : Row} (hit : rows[id]? = some row)
    (selected : selects row = true) :
    ∃ target ∈ targets events (Numbered.family Row) version rows selects, target.id = id := by
  obtain ⟨first, isFirst⟩ := rooted id row hit
  refine ⟨⟨id, version row, first.projectId⟩, mem_targets_iff.mpr ⟨row, hit, selected, ?_⟩, rfl⟩
  exact targetOf_some.mpr ⟨first, isFirst, rfl⟩

section

variable (passage : Passage pg codec store staleAfter base states moment)
include passage

/-- **The lease arm gets through one lease.**  It expires the lease and buries every uncertain
attempt behind it. -/
theorem Passage.expire_one (init : Initialised pg codec initial)
    (standing : states index = (.expiring (pg.render issued) (target :: rest), db))
    (ready : Ready pg codec initial db)
    (current : Pending db.events "lease" Lease.version (·.state = .held)
      db.tables.derived.lease (target :: rest)) :
    ∃ next after, states next = (.expiring (pg.render issued) rest, after) ∧
      Ready pg codec initial after ∧ Expires [target] db after ∧
      Pending after.events "lease" Lease.version (·.state = .held) after.tables.derived.lease
        rest := by
  have undisturbed := passage.undisturbed index
  rw [standing] at undisturbed
  obtain ⟨lease, hit, held, listed⟩ := current.listed target mem_cons_self
  obtain ⟨row, result, mid, derived, submitted, wrote, changed, rfl, expired⟩ :=
    exists_expired init ready undisturbed issued hit (of_decide_eq_true held) listed
  have readyMiddle := ready.write store (moment index) (pg.render issued) .expireLease target
  rw [submitted] at readyMiddle
  -- the expiry
  obtain ⟨_, afterExpiry, expiry⟩ := passage.next standing
  cases expiry with
  | expire _ _ _ _ _ _ _ answered =>
  rw [submitted] at answered
  cases answered
  rw [if_pos wrote.isApplied] at afterExpiry
  -- the attempts behind the lease
  obtain ⟨_, afterRead, reading⟩ := passage.next afterExpiry
  cases reading with
  | readDead _ _ _ _ dead _ read =>
  have currentDead : Pending mid.events "attempt" version (isUncertain ·.state)
      mid.tables.derived.attempt dead := by
    refine .of_subset ?_ (fun target => read.mem_iff.mp) ?_
    · exact ((read.map (·.id)).nodup_iff).mpr nodup_targets
    · intro attempt chosen
      exact (of_decide_eq_true chosen).2
  obtain ⟨last, after, afterBurial, readyAfter, buries⟩ :=
    passage.bury_each init .attemptUnknown (by decide)
      (fun attempts => .burying (pg.render issued) target.id attempts rest)
      (fun index attempt attempts db here => by
        obtain ⟨_, following, step⟩ := passage.next here
        cases step with
        | bury _ _ _ _ _ _ _ _ _ answered => rw [following, answered])
      dead afterRead readyMiddle currentDead
  obtain ⟨_, afterLoop, ending⟩ := passage.next afterBurial
  cases ending with
  | deadDone =>
  have leases : after.tables.derived.lease = db.tables.derived.lease.insert target.id changed := by
    rw [buries.leases, wrote.tables]
  refine ⟨last + 1, after, afterLoop, readyAfter, ⟨?_, ?_⟩, ?_⟩
  · intro id spared
    have ne : target.id ≠ id := fun eq => spared (mem_singleton.mpr eq.symm)
    rw [leases, getElem?_insert_eq, if_neg ne]
  · intro id attempt present uncertain
    obtain ⟨there, spared⟩ := buries.of_uncertain present uncertain
    refine ⟨by rw [wrote.tables] at there; exact there, fun leaseId names behind => ?_⟩
    obtain rfl : leaseId = target.id := mem_singleton.mp behind
    obtain ⟨calls, isHistory⟩ := readyMiddle.reached
    have rooted := (after_rooted init calls).2
    rw [← isHistory] at rooted
    obtain ⟨buried, mem, eq⟩ := exists_mem_targets rooted version
      (fun attempt => attempt.worktreeLeaseId = some target.id ∧ isUncertain attempt.state) there
      (decide_eq_true ⟨names, uncertain⟩)
    exact spared (List.mem_map.mpr ⟨buried, read.mem_iff.mpr mem, eq⟩)
  · rw [leases]
    exact current.tail (wrote.grows.trans buries.log) changed

/-- **The lease arm gets through its leases.** -/
theorem Passage.expire_each (init : Initialised pg codec initial) (pending : List Target)
    (standing : states index = (.expiring (pg.render issued) pending, db))
    (ready : Ready pg codec initial db)
    (current : Pending db.events "lease" Lease.version (·.state = .held)
      db.tables.derived.lease pending) :
    ∃ next after, states next = (.silent (pg.render issued), after) ∧
      Ready pg codec initial after ∧ Expires pending db after := by
  induction pending generalizing index db with
  | nil =>
    obtain ⟨_, ends, step⟩ := passage.next standing
    cases step with
    | leasesDone =>
      exact ⟨index + 1, db, ends, ready, fun _ _ => rfl,
        fun _ _ hit _ => ⟨hit, fun _ _ mem => (by cases mem)⟩⟩
  | cons target rest ih =>
    obtain ⟨next, mid, there, readyMiddle, expiresFirst, left⟩ :=
      passage.expire_one init standing ready current
    obtain ⟨last, after, ends, readyAfter, expires⟩ := ih there readyMiddle left
    exact ⟨last, after, ends, readyAfter, expiresFirst.cons expires⟩

end

end Loops

/-! ## What escapes -/

/-- The attempts the stale arm may act on: in one of its states, and with no timed lease
behind them. -/
def staleRows (db : Db) : List Target :=
  targets db.events "attempt" Attempt.version db.tables.derived.attempt fun attempt =>
    isStale attempt.state ∧ attempt.backed db.tables.derived.lease = false

def Dead (db : Db) (now : Instant) (attempt : Attempt) : Prop :=
  ∃ leaseId lease, attempt.worktreeLeaseId = some leaseId ∧
    db.tables.derived.lease[leaseId]? = some lease ∧
    (lease.state = .expired ∨ lease.elapsed now = true)

/-- No blocked attempt has a dead lease that is not held any more. -/
def BlockedHeld (db : Db) (now : Instant) : Prop :=
  ∀ (id : String) (attempt : Attempt) (leaseId : String) (lease : Lease),
    db.tables.derived.attempt[id]? = some attempt → attempt.state = .blocked →
    attempt.worktreeLeaseId = some leaseId → db.tables.derived.lease[leaseId]? = some lease →
    lease.state = .expired ∨ lease.elapsed now = true → lease.state = .held

theorem Lease.elapsed_mono {lease : Lease} {later : Instant} (order : now ≤ later)
    (elapsed : lease.elapsed now = true) : lease.elapsed later = true := by
  simp only [Lease.elapsed, Option.any_eq_true, decide_eq_true_eq] at elapsed ⊢
  obtain ⟨expiry, timed, past⟩ := elapsed
  exact ⟨expiry, timed, lt_of_lt_of_le past order⟩

section Covers

variable {store : Store} {staleAfter : Int} {moment : Nat → Moment} {initial : Db}

theorem Expires.backed_eq (expires : Expires pending before after)
    (spared : ∀ leaseId ∈ attempt.worktreeLeaseId, leaseId ∉ pending.map (·.id)) :
    attempt.backed after.tables.derived.lease = attempt.backed before.tables.derived.lease := by
  unfold backed
  cases names : attempt.worktreeLeaseId with
  | none => rfl
  | some leaseId =>
    simp only [any_some]
    rw [expires.others leaseId (spared leaseId names)]

theorem Expires.length_le (expires : Expires pending before after)
    (rooted : Rooted before.events before.tables.derived.attempt) (now : Instant)
    (staleAfter : Int) :
    (staleAttempts after now staleAfter).length ≤ (staleRows before).length := by
  have included : (staleAttempts after now staleAfter).map (·.id) ⊆
      (staleRows before).map (·.id) := by
    intro id mem
    obtain ⟨target, inside, rfl⟩ := List.mem_map.mp mem
    obtain ⟨attempt, hit, selected, -⟩ := mem_targets_iff.mp inside
    obtain ⟨stale, -, unbacked⟩ := of_decide_eq_true selected
    have uncertain : isUncertain attempt.state = true := (Bool.and_eq_true_iff.mp stale).1
    obtain ⟨known, spared⟩ := expires.attempts target.id attempt hit uncertain
    rw [expires.backed_eq spared] at unbacked
    exact List.mem_map.mpr (exists_mem_targets rooted version _ known
      (decide_eq_true ⟨stale, unbacked⟩))
  have shorter := (subperm_of_subset nodup_targets included).length_le
  rw [length_map, length_map] at shorter
  exact shorter

/-- **One undisturbed pass leaves no dead attempt behind.**  Take any run of clients and passes
in which the PTY requests stay out of the sweep's keys, and then one pass that nothing
disturbs, started when every attempt has been silent for `staleAfter`, with fewer stale
rows than the batch bound, and with no blocked attempt whose dead lease is not held.  The
pass ends, and then no attempt with an edge to `unknown` has a worktree lease that is
expired or was past its time when the pass started. -/
theorem sweep_covers (init : Initialised pg codec initial) {staleAfters : Nat → Int}
    {actions : List WorldAction} {world : World}
    (run : Run (RespectfulStep pg codec staleAfters) (.initial initial) actions world)
    (passage : Passage pg codec store staleAfter world.db states moment)
    (silent : ∀ (id : String) (attempt : Attempt),
      world.db.tables.derived.attempt[id]? = some attempt →
      attempt.updatedAt ≤ (moment 0).now - staleAfter)
    (few : (staleRows world.db).length < STALE_SWEEP_BATCH)
    (blocked : BlockedHeld world.db (moment 0).now) :
    ∃ last after, states last = (.done, after) ∧
      ∀ (id : String) (attempt : Attempt), after.tables.derived.attempt[id]? = some attempt →
        isUncertain attempt.state = true → ¬ Dead after (moment 0).now attempt := by
  have ready := Ready.of_run init run
  have rooted : Rooted world.db.events world.db.tables.derived.lease ∧
      Rooted world.db.events world.db.tables.derived.attempt := by
    obtain ⟨calls, isHistory⟩ := ready.reached
    rw [isHistory]
    exact after_rooted init calls
  -- the lease arm
  obtain ⟨_, afterStamp, stamp⟩ := passage.next passage.starts
  cases stamp with
  | stamp =>
  obtain ⟨_, afterRead, reading⟩ := passage.next afterStamp
  cases reading with
  | readLeases _ _ _ leases read =>
  have current : Pending world.db.events "lease" Lease.version (·.state = .held)
      world.db.tables.derived.lease leases := by
    refine .of_subset ?_ (fun target => read.mem_iff.mp) ?_
    · exact ((read.map (·.id)).nodup_iff).mpr nodup_targets
    · intro lease chosen
      exact decide_eq_true (of_decide_eq_true chosen).1
  obtain ⟨index, mid, afterLeases, readyMiddle, expires⟩ :=
    passage.expire_each init leases afterRead ready current
  have rootedMiddle : Rooted mid.events mid.tables.derived.attempt := by
    obtain ⟨calls, isHistory⟩ := readyMiddle.reached
    rw [isHistory]
    exact (after_rooted init calls).2
  have moved : (moment 0).now < (moment index).now := by
    cases index with
    | zero =>
      rw [passage.starts] at afterLeases
      cases afterLeases
    | succ prior => exact passage.later prior
  -- the stale arm
  obtain ⟨_, afterStale, readingStale⟩ := passage.next afterLeases
  cases readingStale with
  | readStale _ _ _ attempts isRead =>
  have whole : attempts.take STALE_SWEEP_BATCH = attempts := take_of_length_le
    (isRead.length_eq.trans_le
      ((expires.length_le rooted.2 (moment index).now staleAfter).trans few.le))
  have currentStale : Pending mid.events "attempt" Attempt.version (isUncertain ·.state)
      mid.tables.derived.attempt (attempts.take STALE_SWEEP_BATCH) := by
    rw [whole]
    refine .of_subset ?_ (fun target => isRead.mem_iff.mp) ?_
    · exact ((isRead.map (·.id)).nodup_iff).mpr nodup_targets
    · intro attempt chosen
      exact (Bool.and_eq_true_iff.mp (of_decide_eq_true chosen).1).1
  obtain ⟨last, after, afterBurial, -, buries⟩ :=
    passage.bury_each init .attemptStale (by decide)
      (fun attempts => .buryingStale (pg.render (moment 0).now) attempts)
      (fun index attempt attempts db here => by
        obtain ⟨_, following, step⟩ := passage.next here
        cases step with
        | buryStale _ _ _ _ _ _ _ answered => rw [following, answered])
      _ afterStale readyMiddle currentStale
  obtain ⟨_, ends, ending⟩ := passage.next afterBurial
  cases ending with
  | staleDone =>
  refine ⟨last + 1, after, ends, ?_⟩
  rintro id attempt hit uncertain ⟨leaseId, lease, names, present, dead⟩
  -- the attempt is as it was, and so is its lease
  obtain ⟨there, notStale⟩ := buries.of_uncertain hit uncertain
  obtain ⟨known, spared⟩ := expires.attempts id attempt there uncertain
  have spared := spared leaseId names
  rw [buries.leases] at present
  have before : world.db.tables.derived.lease[leaseId]? = some lease :=
    (expires.others leaseId spared).symm.trans present
  by_cases held : lease.state = .held
  · -- then the lease arm took the lease
    have elapsed : lease.elapsed (moment 1).now = true := by
      rcases dead with expired | elapsed
      · rw [held] at expired
        cases expired
      · exact Lease.elapsed_mono (passage.later 0).le elapsed
    obtain ⟨target, mem, eq⟩ := exists_mem_targets rooted.1 Lease.version
      (fun lease => lease.state = .held ∧ lease.elapsed (moment 1).now) before
      (decide_eq_true ⟨held, elapsed⟩)
    exact spared (List.mem_map.mpr ⟨target, read.mem_iff.mpr mem, eq⟩)
  · -- then the attempt is not blocked, and the stale arm took it
    have stale : isStale attempt.state = true := by
      rw [isStale, uncertain, Bool.true_and, bne_iff_ne]
      intro isBlocked
      exact held (blocked id attempt leaseId lease known isBlocked names before dead)
    have unbacked : attempt.backed mid.tables.derived.lease = false := by
      simp [Attempt.backed, names, present, held]
    have overdue : attempt.updatedAt < (moment index).now - staleAfter :=
      lt_of_le_of_lt (silent id attempt known) (Int.sub_lt_sub_right moved staleAfter)
    obtain ⟨target, mem, eq⟩ := exists_mem_targets rootedMiddle Attempt.version
      (fun attempt => isStale attempt.state ∧ attempt.updatedAt < (moment index).now - staleAfter ∧
          attempt.backed mid.tables.derived.lease = false) there
      (decide_eq_true ⟨stale, overdue, unbacked⟩)
    refine notStale (List.mem_map.mpr ⟨target, ?_, eq⟩)
    rw [whole]
    exact isRead.mem_iff.mpr mem

end Covers

/-! ## Passes to run -/

section Walk

variable (pg : Postgres) (codec : Codec) (store : Store) (staleAfter : Int)

/-- The next statement of a pass that reads its rows in the order of their ids. -/
def advance (moment : Moment) : Pass × Db → Pass × Db
  | (.start, db) => (.stamped (pg.render moment.now), db)
  | (.stamped issuedAt, db) => (.expiring issuedAt (expiredLeases db moment.now), db)
  | (.expiring issuedAt (lease :: leases), db) =>
    let (result, after) :=
      submit pg codec db (sweepCall store moment issuedAt .expireLease lease)
    (if result.isApplied then .expired issuedAt lease.id leases else .expiring issuedAt leases,
      after)
  | (.expiring issuedAt [], db) => (.silent issuedAt, db)
  | (.expired issuedAt leaseId leases, db) =>
    (.burying issuedAt leaseId (deadAttempts db leaseId) leases, db)
  | (.burying issuedAt leaseId (attempt :: attempts) leases, db) =>
    (.burying issuedAt leaseId attempts leases,
      (submit pg codec db (sweepCall store moment issuedAt .attemptUnknown attempt)).2)
  | (.burying issuedAt _ [] leases, db) => (.expiring issuedAt leases, db)
  | (.silent issuedAt, db) =>
    (.buryingStale issuedAt ((staleAttempts db moment.now staleAfter).take STALE_SWEEP_BATCH), db)
  | (.buryingStale issuedAt (attempt :: attempts), db) =>
    (.buryingStale issuedAt attempts,
      (submit pg codec db (sweepCall store moment issuedAt .attemptStale attempt)).2)
  | (.buryingStale _ [], db) => (.done, db)
  | (.done, db) => (.done, db)

theorem passStep_advance (moment : Moment) (state : Pass × Db) :
    PassStep pg codec store staleAfter state moment
      (advance pg codec store staleAfter moment state) := by
  obtain ⟨pass, db⟩ := state
  cases pass with
  | start => exact .stamp db moment
  | stamped issuedAt => exact .readLeases db moment issuedAt _ (.refl _)
  | expiring issuedAt leases =>
    cases leases with
    | nil => exact .leasesDone db moment issuedAt
    | cons lease leases => exact .expire db moment issuedAt lease leases _ _ rfl
  | expired issuedAt leaseId leases => exact .readDead db moment issuedAt leaseId _ leases (.refl _)
  | burying issuedAt leaseId attempts leases =>
    cases attempts with
    | nil => exact .deadDone db moment issuedAt leaseId leases
    | cons attempt attempts =>
      exact .bury db moment issuedAt leaseId attempt attempts leases _ _ rfl
  | silent issuedAt => exact .readStale db moment issuedAt _ (.refl _)
  | buryingStale issuedAt attempts =>
    cases attempts with
    | nil => exact .staleDone db moment issuedAt
    | cons attempt attempts => exact .buryStale db moment issuedAt attempt attempts _ _ rfl
  | done => exact .finished db moment

def walk (db : Db) (moment : Nat → Moment) : Nat → Pass × Db
  | 0 => (.start, db)
  | index + 1 => advance pg codec store staleAfter (moment index) (walk db moment index)

variable {pg codec store staleAfter}

theorem walk_of_done {db after : Db} {moment : Nat → Moment}
    (ends : walk pg codec store staleAfter db moment last = (.done, after)) (later : last ≤ index) :
    walk pg codec store staleAfter db moment index = (.done, after) := by
  induction index, later using Nat.le_induction with
  | base => exact ends
  | succ index _ ih => rw [walk, ih, advance]

theorem passage_walk {db after : Db} {moment : Nat → Moment}
    (ends : walk pg codec store staleAfter db moment last = (.done, after))
    (undisturbed : ∀ index time, index ≤ last → Undisturbed codec store (moment time)
      (walk pg codec store staleAfter db moment index).2)
    (later : ∀ index, (moment 0).now < (moment (index + 1)).now) :
    Passage pg codec store staleAfter db (walk pg codec store staleAfter db moment) moment where
  starts := rfl
  steps index := passStep_advance pg codec store staleAfter (moment index) _
  undisturbed index := by
    rcases Nat.le_total index last with early | late
    · exact undisturbed index index early
    · have final := undisturbed last index le_rfl
      rw [ends] at final
      rw [walk_of_done ends late]
      exact final
  later := later

end Walk

namespace Sample

def ticking (index : Nat) : Moment :=
  { moment with now := if index = 0 then 10 else 11, clock := 11 }

def sweeps (db : Db) : Nat → Pass × Db :=
  walk Sample.postgres Sample.codec store 5 db ticking

def roomy (db : Db) : Bool :=
  db.writer.epoch = 1 ∧ db.writer.nextSeq.toNat < 1000 ∧
    (∀ entry ∈ db.tables.derived.lease.toList, entry.2.version.toNat < 1000) ∧
    ∀ entry ∈ db.tables.derived.attempt.toList, entry.2.version.toNat < 1000

variable {db : Db}

theorem undisturbed (isRoomy : roomy db = true) (index : Nat) :
    Undisturbed Sample.codec store (ticking index) db := by
  obtain ⟨epoch, sequence, leases, attempts⟩ := of_decide_eq_true isRoomy
  have fits {version : UInt32} (small : version.toNat < 1000) (command : KernelCommand) :
      Fits Sample.codec version command := by
    refine ⟨by omega, ?_⟩
    change 1 ≤ INLINE_PAYLOAD_MAX_BYTES
    decide
  refine ⟨rfl, rfl, epoch, by omega, ?_, ?_⟩
  · intro id lease hit _
    exact fits (leases (id, lease) (mem_toList_iff_getElem?_eq_some.mpr hit)) _
  · intro id attempt hit _
    exact fits (attempts (id, attempt) (mem_toList_iff_getElem?_eq_some.mpr hit)) _

/-- The pass meets the conditions of `sweep_covers` on passes, and is done after a number of
statements. -/
structure Meets (db : Db) (last : Nat) : Prop where
  passage : Passage Sample.postgres Sample.codec store 5 db (sweeps db) ticking
  silent : ∀ (id : String) (attempt : Attempt), db.tables.derived.attempt[id]? = some attempt →
    attempt.updatedAt ≤ (ticking 0).now - 5
  few : (staleRows db).length < STALE_SWEEP_BATCH
  ends : (sweeps db last).1 = .done

theorem meets
    (holds : (sweeps db last).1 = .done ∧ (∀ index ≤ last, roomy (sweeps db index).2 = true) ∧
      (∀ entry ∈ db.tables.derived.attempt.toList, entry.2.updatedAt ≤ 5) ∧
      (staleRows db).length < STALE_SWEEP_BATCH) : Meets db last where
  passage := passage_walk (Prod.ext holds.1 rfl)
    (fun index time early => undisturbed (holds.2.1 index early) time)
    fun index => by simp [ticking]
  silent id attempt hit :=
    holds.2.2.1 (id, attempt) (mem_toList_iff_getElem?_eq_some.mpr hit)
  few := holds.2.2.2
  ends := holds.1

/-- The attempt has an edge to `unknown`, and its lease is dead. -/
def Missed (db : Db) : Prop :=
  ∃ attempt, db.tables.derived.attempt["a"]? = some attempt ∧ isUncertain attempt.state = true ∧
    Dead db (ticking 0).now attempt

theorem missed (holds : (db.tables.derived.attempt["a"]?.any fun attempt =>
      isUncertain attempt.state && attempt.worktreeLeaseId.any fun leaseId =>
        db.tables.derived.lease[leaseId]?.any fun lease =>
          lease.state = .expired ∨ lease.elapsed 10 = true) = true) : Missed db := by
  simp only [Option.any_eq_true, Bool.and_eq_true, decide_eq_true_eq] at holds
  obtain ⟨attempt, hit, uncertain, leaseId, names, lease, present, dead⟩ := holds
  exact ⟨attempt, hit, uncertain, leaseId, lease, names, present, dead⟩

theorem blockedHeld (now : Instant)
    (none : ∀ entry ∈ db.tables.derived.attempt.toList, entry.2.state ≠ .blocked) :
    BlockedHeld db now := by
  intro id attempt leaseId lease hit isBlocked
  exact absurd isBlocked (none (id, attempt) (mem_toList_iff_getElem?_eq_some.mpr hit))

/-- The attempt is running, then blocked, and a client expires its lease. -/
def parked : List ClientRequest :=
  started ++ [asks (.transitionAttempt "a" .running 3 none) "k6",
    .submitCommand (call (.transitionAttempt "a" .blocked 4 (some "r")) "k7"
      { kind := LIVENESS_PRODUCER_KIND, id := none }),
    asks (.expireLease "l" 1) "k8"]

/-- The lease gets a time to live that is over when the pass starts. -/
def lapsed : List ClientRequest :=
  started ++ [asks (.renewLease "l" 1 (some "ppppp")) "k6"]

end Sample

open Sample in
/-- **Failure.**  A blocked attempt whose lease a client has expired: the whole pass goes by,
and the attempt is still blocked behind its dead lease. -/
theorem sweep_misses_blocked :
    let db := served parked
    Run (RespectfulStep postgres Sample.codec fun _ => 5) (.initial Sample.initial)
        (parked.map .client) (.initial db) ∧
      Meets db 5 ∧ Missed (sweeps db 5).2 := by
  refine ⟨run_clients postgres Sample.codec _ (fun _ => RespectsKeys) _ _ ?_,
    meets (by decide +kernel), missed (by decide +kernel)⟩
  intro db request mem
  fin_cases mem <;> trivial

open Sample in
theorem sweep_covers_lapsed :
    let db := served lapsed
    Run (RespectfulStep postgres Sample.codec fun _ => 5) (.initial Sample.initial)
        (lapsed.map .client) (.initial db) ∧
      Meets db 9 ∧ Missed db ∧
      ∃ last after, sweeps db last = (.done, after) ∧
        ∀ (id : String) (attempt : Attempt), after.tables.derived.attempt[id]? = some attempt →
          isUncertain attempt.state = true → ¬ Dead after 10 attempt := by
  intro db
  have run : Run (RespectfulStep postgres Sample.codec fun _ => 5)
      (.initial Sample.initial) (lapsed.map .client) (.initial db) := by
    refine run_clients postgres Sample.codec _ (fun _ => RespectsKeys) _ _ ?_
    intro db request mem
    fin_cases mem <;> trivial
  have meets : Meets db 9 := Sample.meets (by decide +kernel)
  have missed : Missed db := Sample.missed (by decide +kernel)
  have unblocked : BlockedHeld db 10 := blockedHeld 10 (by decide +kernel)
  clear_value db
  exact ⟨run, meets, missed,
    sweep_covers init run meets.passage meets.silent meets.few unblocked⟩

end Gridwork.Kernel
