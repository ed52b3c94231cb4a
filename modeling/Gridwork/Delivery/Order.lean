import Gridwork.Delivery.Once

/-!
# The order of a lifetime's controls

An attempt claims its row only if no earlier control of the lifetime is in the way: none that
is unsettled and has a live claim or a fresh event.  A row that is older and has no live claim
is taken for abandoned.  It is not: a client's retry claims and delivers it as long as it is
unsettled, behind the controls that have passed it.  An attempt whose own claim has run out
may still hand its control over, and then it is late in the same way.
-/

namespace Gridwork.Delivery

open Domain Lib Pty List Kernel

variable {pg : Postgres} {codec : Codec} {action : Action} {index : Nat} {row prior : PtyDelivery}
  {id : PtySessionId} {generation : PtySessionGeneration} {permits : Permits EventId Nat}
  {deliveryId : EventId}

/-! ## The property -/

def Destination.toLifetime (id : PtySessionId) (generation : PtySessionGeneration) :
    Destination → Bool
  | session _ target presented => target = id ∧ presented = generation
  | start => false

def World.Before (world : World) (prior later : Enqueued) : Prop :=
  ∃ first ∈ world.db.deliveries, ∃ second ∈ world.db.deliveries,
    first.eventId = prior.deliveryId ∧ second.eventId = later.deliveryId ∧
      first.eventSeq < second.eventSeq

/-- The controls of each lifetime were enqueued in the order of their commits. -/
def World.InOrder (world : World) : Prop :=
  ∀ id generation, (world.enqueued.filter fun control =>
    control.destination.toLifetime id generation).Pairwise world.Before

/-- Whoever makes the order check finds every earlier unsettled delivery claimed or fresh, and
whoever hands a session control over still has the claim. -/
def Careful (pg : Postgres) (world : World) : Action → Prop
  | .attempt index => ∀ attempt, world.attempts index = some attempt →
      match attempt.stage, attempt.destination with
      | .ordering _ now, _ => ∀ row prior event,
          deliveryFor world.db attempt.projectId attempt.idempotencyKey = some row →
            world.Precedes row prior event → (world.states prior.eventId).live now = true ∨
                World.appendedWithin pg now event = true
      | .permitted token _, .session .. =>
        ∃ claimedUntil, world.states attempt.deliveryId = .claimed token claimedUntil
      | _, _ => True
  | _ => True

def CarefulStep (pg : Postgres) (codec : Codec) (before : World) (action : Action)
    (after : World) : Prop :=
  before.Step pg codec action after ∧ Careful pg before action

/-! ## What a step does to the log, the queues and the attempts -/

namespace World.Step

variable {world after : World} (step : World.Step pg codec world action after)

include step

theorem files : Files world.db after.db := by
  cases step with
  | act act => exact Kernel.perform_files world.db act
  | request connection request => exact Kernel.serve_files world.db request
  | @moves index attempt stage => cases stage <;> exact .eq rfl rfl rfl
  | @forget index attempt token result => cases result <;> exact .eq rfl rfl rfl
  | _ =>
    exact .eq rfl rfl rfl

theorem settled (before : (world.states deliveryId).Settled) :
    (after.states deliveryId).Settled := by
  rcases step.states_run deliveryId with eq | ⟨statement, eq⟩
  · rwa [eq]
  · rw [eq]
    exact statement.run_settled before

theorem enqueued_cases : after.enqueued = world.enqueued ∨
    ∃ index attempt token owner, action = .attempt index ∧
      world.attempts index = some attempt ∧ attempt.stage = .permitted token owner ∧
      after.enqueued = world.enqueued ++ [⟨owner, attempt.deliveryId, attempt.destination⟩] := by
  cases step with
  | @moves index attempt stage => cases stage <;> exact .inl rfl
  | @forget index attempt token result => cases result <;> exact .inl rfl
  | @enqueue index attempt token owner hub hit permitted =>
    exact .inr ⟨index, attempt, token, owner, rfl, hit, permitted, rfl⟩
  | _ => exact .inl rfl

end World.Step

/-- The attempt has passed the order check and has not handed its control over. -/
def Stage.Launched : Stage → Prop
  | claiming .. | claimed _ | located .. | routed .. | permitted .. => True
  | _ => False

variable {world after : World}

theorem Moves.launched {attempt : Attempt} {before after : Stage}
    (moves : Moves pg world index attempt before (some after)) (launched : after.Launched) :
    before.Launched ∨ ∃ token now row, before = .ordering token now ∧
      deliveryFor world.db attempt.projectId attempt.idempotencyKey = some row ∧
      ¬ world.EarlierPending pg row now := by
  generalize isAfter : some after = answer at moves
  cases moves with
  | busy | missing | answered | blocked => cases isAfter
  | mints | begins | deserted | late | unlocated | unrouted | unmanaged | closed | slow | unqueued
  | replied | slowStart =>
    cases isAfter
    exact launched.elim
  | ordered hit first => exact .inr ⟨_, _, _, rfl, hit, first⟩
  | locates | routes | manages | reserves => exact .inl trivial
  | reroutes _ before =>
    rcases before with rfl | ⟨rfl, -⟩
    · exact .inl trivial
    · exact .inl trivial

theorem World.Step.launched {after : World}
    (step : World.Step pg codec world action after) {attempt : Attempt}
    (hit : after.attempts index = some attempt) (launched : attempt.stage.Launched) :
    ∃ before, world.attempts index = some before ∧ before.deliveryId = attempt.deliveryId ∧
      (before.stage.Launched ∨ ∃ token now row, action = .attempt index ∧
        before.stage = .ordering token now ∧
        deliveryFor world.db before.projectId before.idempotencyKey = some row ∧
        ¬ world.EarlierPending pg row now) := by
  -- An attempt under another index, or one the step leaves alone.
  have kept (isOther : world.attempts index = some attempt) :
      ∃ before, world.attempts index = some before ∧ before.deliveryId = attempt.deliveryId ∧
        (before.stage.Launched ∨ ∃ token now row, action = .attempt index ∧
          before.stage = .ordering token now ∧
          deliveryFor world.db before.projectId before.idempotencyKey = some row ∧
          ¬ world.EarlierPending pg row now) :=
    ⟨attempt, isOther, rfl, .inl launched⟩
  have ended {target : Nat}
      (isFound : Function.update world.attempts target none index = some attempt) :
      world.attempts index = some attempt := by
    rcases update_eq_some isFound with ⟨-, no⟩ | ⟨-, isOther⟩
    · cases no
    · exact isOther
  cases step with
  | tick | act | publish | register | disconnect | acknowledge | ackMoves | settle | take
  | reconcile | orphan | quarantine => exact kept hit
  | crash => cases hit
  | expire | release | abandon | lose => exact kept (ended hit)
  | @moves target moving stage isMoving move =>
    cases stage with
    | none => exact kept (ended hit)
    | some stage =>
      rcases update_eq_some hit with ⟨rfl, eq⟩ | ⟨-, isOther⟩
      · cases eq
        refine ⟨moving, isMoving, rfl, ?_⟩
        rcases move.launched launched with before | ⟨token, now, row, isStage, isRow, first⟩
        · exact .inl before
        · exact .inr ⟨token, now, row, rfl, isStage, isRow, first⟩
      · exact kept isOther
  | request connection request =>
    rcases update_eq_some hit with ⟨-, isNew⟩ | ⟨-, isOther⟩
    · rw [World.attemptFor_stage isNew] at launched
      exact launched.elim
    · exact kept isOther
  | lock isMoving opening isRow unlocked reads =>
    rcases update_eq_some hit with ⟨rfl, eq⟩ | ⟨-, isOther⟩
    · cases eq
      rcases reads with ⟨-, rfl⟩ | ⟨-, -, rfl⟩
      · exact launched.elim
      · exact launched.elim
    · exact kept isOther
  | claim isMoving claiming =>
    rcases update_eq_some hit with ⟨rfl, eq⟩ | ⟨-, isOther⟩
    · cases eq
      refine ⟨_, isMoving, rfl, .inl ?_⟩
      rw [claiming]
      trivial
    · exact kept isOther
  | enqueue =>
    rcases update_eq_some hit with ⟨-, eq⟩ | ⟨-, isOther⟩
    · cases eq
      exact launched.elim
    · exact kept isOther
  | @forget target moving token result =>
    cases result with
    | ok => exact kept (ended hit)
    | error refusal =>
      rcases update_eq_some hit with ⟨-, eq⟩ | ⟨-, isOther⟩
      · cases eq
        exact launched.elim
      · exact kept isOther

/-! ## The invariant -/

def World.Cleared (world : World) (deliveryId : EventId) : Prop :=
  ∀ row prior event, row ∈ world.db.deliveries → row.eventId = deliveryId →
    ¬ world.Precedes row prior event

theorem mem_of_files {db after : Db} (filed : Filed db) (files : Files db after)
    (listed : row ∈ db.deliveries)
    (mem : prior ∈ after.deliveries) (sequence : prior.eventSeq < row.eventSeq) :
    prior ∈ db.deliveries := by
  cases files with
  | none _ _ _ deliveries _ => exact deliveries ▸ mem
  | one _ _ deliveries _ _ isNext _ =>
    rcases mem_snoc.mp (deliveries ▸ mem) with before | last
    · exact before
    · rw [last, isNext, UInt64.lt_iff_toNat_lt] at sequence
      exact absurd sequence (Nat.lt_asymm (filed.below row listed))

/-- **What is cleared stays cleared.** -/
theorem World.Cleared.step {after : World}
    (cleared : world.Cleared deliveryId) (filed : Filed world.db)
    (files : Files world.db after.db)
    (settled : ∀ other, (world.states other).Settled → (after.states other).Settled)
    (listed : row ∈ world.db.deliveries) (isRow : row.eventId = deliveryId) :
    after.Cleared deliveryId := by
  have filedAfter := filed.files files
  have grows := files.grows
  have sameEvent {event : Event} {delivery : PtyDelivery} (mem : event ∈ after.db.events)
      (known : delivery ∈ world.db.deliveries) (eventId : event.eventId = delivery.eventId) :
      event ∈ world.db.events := by
    obtain ⟨logged, isLogged, isIts⟩ := filed.logged delivery known
    rw [filedAfter.event_eq mem (grows.events.subset isLogged) (eventId.trans isIts.eventId)]
    exact isLogged
  rintro hit prior event mem isFound ⟨earlierListed, isEvent, eventId, unsettled, before,
    current, isCurrent, currentId, aggregate⟩
  obtain rfl : row = hit := filedAfter.eq_of_eventId (grows.deliveries.subset listed) mem
    (isRow.trans isFound.symm)
  have known := mem_of_files filed files listed earlierListed before
  exact cleared row prior event listed isRow ⟨known, sameEvent isEvent known eventId, eventId,
    fun wasSettled => unsettled (settled _ wasSettled), before, current,
    sameEvent isCurrent listed currentId, currentId, aggregate⟩

structure Enqueued.OnFile (db : Db) (control : Enqueued) (event : Event) (row : PtyDelivery) :
    Prop where
  logged : event ∈ db.events
  listed : row ∈ db.deliveries
  isRow : RowOf event row
  eventId : row.eventId = control.deliveryId
  lifetime : ∀ channel id generation, control.destination = .session channel id generation →
    event.aggregate = ("pty_session", Kernel.ptySessionLifetimeId id generation)

/-- Whatever was handed over, or is about to be, is cleared. -/
structure Ordered (world : World) : Prop where
  inOrder : world.InOrder
  onFile : ∀ control ∈ world.enqueued, ∃ event row, control.OnFile world.db event row
  cleared : ∀ control ∈ world.enqueued, world.Cleared control.deliveryId
  launched : ∀ index attempt, world.attempts index = some attempt → attempt.stage.Launched →
    world.Cleared attempt.deliveryId

theorem Ordered.initial (db : Db) (clock : Instant) : Ordered (.initial db clock) where
  inOrder _ _ := List.Pairwise.nil
  onFile _ mem := by cases mem
  cleared _ mem := by cases mem
  launched _ _ hit := by cases hit

variable {control : Enqueued}

theorem Enqueued.OnFile.grows {db after : Db} {event : Event}
    (onFile : control.OnFile db event row) (grows : Kernel.Grows db after) :
    control.OnFile after event row :=
  { onFile with
    logged := grows.events.subset onFile.logged
    listed := grows.deliveries.subset onFile.listed }

theorem World.Before.grows {after : World} {prior later : Enqueued}
    (before : world.Before prior later) (grows : Kernel.Grows world.db after.db) :
    after.Before prior later := by
  obtain ⟨first, isFirst, second, isSecond, order⟩ := before
  exact ⟨first, grows.deliveries.subset isFirst, second, grows.deliveries.subset isSecond, order⟩

theorem Destination.of_toLifetime {destination : Destination}
    (reaches : destination.toLifetime id generation = true) :
    ∃ channel, destination = .session channel id generation := by
  cases destination with
  | session channel target presented =>
    obtain ⟨rfl, rfl⟩ := of_decide_eq_true reaches
    exact ⟨channel, rfl⟩
  | start => cases reaches

section Steps

theorem Ordered.before_of_permitted (ordered : Ordered world) (sound : permits.Sound)
    (accounts : Accounts world permits) {attempt : Attempt} {token : String}
    {owner : ConnectionId} (hit : world.attempts index = some attempt)
    (permitted : attempt.stage = .permitted token owner)
    (careful : Careful pg world (.attempt index))
    (mem : control ∈ world.enqueued)
    (reaches : control.destination.toLifetime id generation = true)
    (reachesToo : attempt.destination.toLifetime id generation = true) :
    world.Before control ⟨owner, attempt.deliveryId, attempt.destination⟩ := by
  obtain ⟨channel, isSession⟩ := Destination.of_toLifetime reaches
  obtain ⟨attemptChannel, attemptSession⟩ := Destination.of_toLifetime reachesToo
  obtain ⟨first, row, onFile⟩ := ordered.onFile control mem
  obtain ⟨bounded, ⟨second, attemptRow, isAttempt⟩, holds⟩ := accounts.attempts index attempt hit
  refine ⟨row, onFile.listed, attemptRow, isAttempt.listed, onFile.eventId, isAttempt.eventId, ?_⟩
  have ne : row ≠ attemptRow := by
    rintro rfl
    rw [permitted] at holds
    refine sound.notMem (by rw [holds]; simp) ?_
    rw [← accounts.spent, ← isAttempt.eventId, onFile.eventId]
    exact mem_map_of_mem mem
  refine (accounts.filed.lt_or_lt onFile.listed isAttempt.listed ne).resolve_right
    fun late => ?_
  -- The row is still claimed, so it was not settled when the other control was launched.
  have claimed := careful attempt hit
  rw [permitted, attemptSession] at claimed
  obtain ⟨claimedUntil, isClaimed⟩ := claimed
  refine ordered.cleared control mem row attemptRow second onFile.listed onFile.eventId
    ⟨isAttempt.listed, isAttempt.logged, isAttempt.isRow.eventId.symm, ?_, late, first,
      onFile.logged, onFile.isRow.eventId.symm, ?_⟩
  · rw [isAttempt.eventId, isClaimed]
    exact fun settled => settled
  · rw [isAttempt.lifetime _ _ _ attemptSession, onFile.lifetime _ _ _ isSession]

/-- **A careful step keeps the order.** -/
theorem Ordered.step (ordered : Ordered world) (sound : permits.Sound)
    (accounts : Accounts world permits) (careful : Careful pg world action)
    (step : World.Step pg codec world action after) : Ordered after := by
  have files := step.files
  have grows := files.grows
  have stays {deliveryId : EventId} {row : PtyDelivery} (cleared : world.Cleared deliveryId)
      (listed : row ∈ world.db.deliveries) (isRow : row.eventId = deliveryId) :
      after.Cleared deliveryId :=
    cleared.step accounts.filed files (fun _ => step.settled) listed isRow
  have known (control : Enqueued) (mem : control ∈ world.enqueued) :
      (∃ event row, control.OnFile after.db event row) ∧ after.Cleared control.deliveryId := by
    obtain ⟨event, row, onFile⟩ := ordered.onFile control mem
    exact ⟨⟨event, row, onFile.grows grows⟩,
      stays (ordered.cleared control mem) onFile.listed onFile.eventId⟩
  have inOrder (id : PtySessionId) (generation : PtySessionGeneration) :
      (world.enqueued.filter fun control =>
        control.destination.toLifetime id generation).Pairwise after.Before :=
    (ordered.inOrder id generation).imp fun before => before.grows grows
  have launched (index : Nat) (attempt : Attempt) (hit : after.attempts index = some attempt)
      (isLaunched : attempt.stage.Launched) : after.Cleared attempt.deliveryId := by
    obtain ⟨before, isBefore, eq,
      launchedBefore | ⟨token, now, row, rfl, ordering, isRow, first⟩⟩ :=
      step.launched hit isLaunched
    · obtain ⟨event, row, onFile⟩ := (accounts.attempts index before isBefore).onFile
      exact eq ▸ stays (ordered.launched index before isBefore launchedBefore) onFile.listed
        onFile.eventId
    · -- Nothing is in the way, and nothing has fallen out of the check.
      have listed : row ∈ world.db.deliveries := mem_of_find?_eq_some isRow
      have isIts := accounts.eventId_eq isBefore isRow
      have all := careful before isBefore
      rw [ordering] at all
      refine eq ▸ stays (fun hit prior event mem isFound precedes => ?_) listed isIts
      obtain rfl : row = hit :=
        accounts.filed.eq_of_eventId listed mem (isIts.trans isFound.symm)
      exact first ⟨prior, event, precedes, all row prior event isRow precedes⟩
  rcases step.enqueued_cases with eq | ⟨index, attempt, token, owner, rfl, hit, permitted, added⟩
  · refine ⟨?_, ?_, ?_, launched⟩
    · intro id generation
      rw [eq]
      exact inOrder id generation
    · intro control mem
      exact (known control (eq ▸ mem)).1
    · intro control mem
      exact (known control (eq ▸ mem)).2
  · obtain ⟨event, row, onFile⟩ := (accounts.attempts index attempt hit).onFile
    have cleared : world.Cleared attempt.deliveryId :=
      ordered.launched index attempt hit (by rw [permitted]; trivial)
    refine ⟨?_, ?_, ?_, launched⟩
    · intro id generation
      rw [added, filter_append, pairwise_append]
      refine ⟨inOrder id generation, List.Pairwise.filter _ (pairwise_singleton _ _), ?_⟩
      intro control mem last isLast
      obtain ⟨isEnqueued, reaches⟩ := mem_filter.mp mem
      obtain ⟨isMine, reachesToo⟩ := mem_filter.mp isLast
      cases mem_singleton.mp isMine
      exact World.Before.grows (ordered.before_of_permitted sound accounts hit permitted careful
        isEnqueued reaches reachesToo) grows
    · intro control mem
      rcases mem_snoc.mp (added ▸ mem) with prior | rfl
      · exact (known control prior).1
      · exact ⟨event, row, grows.events.subset onFile.logged, grows.deliveries.subset onFile.listed,
          onFile.isRow, onFile.eventId, onFile.lifetime⟩
    · intro control mem
      rcases mem_snoc.mp (added ▸ mem) with prior | rfl
      · exact (known control prior).2
      · exact stays cleared onFile.listed onFile.eventId

end Steps

/-- **Controls arrive in commit order.**  In every run whose steps are careful, at every time
the controls of a lifetime that were enqueued are in the order of their commits. -/
theorem controls_in_order {db : Db} {clock : Instant} {actions : List Action} {world : World}
    (init : Kernel.Initialised pg codec db)
    (run : Run (CarefulStep pg codec) (.initial db clock) actions world) : world.InOrder := by
  obtain ⟨genesis, opened⟩ := init.opened
  have invariant : Ordered world ∧
      ∃ permits : Permits EventId Nat, permits.Sound ∧ Accounts world permits := by
    refine run.invariant_induction (fun world => Ordered world ∧
        ∃ permits : Permits EventId Nat, permits.Sound ∧ Accounts world permits)
      ⟨.initial db clock, .initial, .initial, .initial (.of_opened opened) clock⟩ ?_
    rintro action - before after ⟨ordered, permits, sound, accounts⟩ ⟨step, careful⟩
    obtain ⟨next, moves, kept⟩ := accounts.step step
    exact ⟨ordered.step sound accounts careful step, next, sound.step moves, kept⟩
  exact invariant.1.inOrder

/-! ## An abandoned resize comes back -/

theorem CalmStep.careful {before after : World}
    (step : CalmStep pg codec before action after) : CarefulStep pg codec before action after := by
  refine ⟨step.1, ?_⟩
  cases action with
  | attempt index =>
    intro attempt hit
    have calm := step.2 attempt hit
    cases isStage : attempt.stage with
    | ordering =>
      rw [isStage] at calm
      exact calm.elim
    | permitted token owner =>
      rw [isStage] at calm
      cases attempt.destination with
      | session => exact calm
      | start => trivial
    | _ => trivial
  | _ => trivial

open Kernel.Sample in
theorem controls_in_order_resizes :
    Run (CarefulStep postgres Kernel.Sample.codec) (.initial initial 1)
        (Sample.booting ++ (Sample.delivering ++ List.replicate 9 (.attempt 1))) Sample.both ∧
      Sample.both.enqueued.map (·.deliveryId) = [Sample.first, Sample.second] ∧
      Sample.both.InOrder := by
  have careful (before : World) (action : Action) (after : World)
      (step : CalmStep postgres Kernel.Sample.codec before action after) :
      CarefulStep postgres Kernel.Sample.codec before action after := step.careful
  have checks {world : World} {index : Nat} {attempt : Attempt} {row : PtyDelivery} (token : String)
      (isRow : deliveryFor world.db attempt.projectId attempt.idempotencyKey = some row)
      (none : ∀ prior event, ¬ world.Precedes row prior event) :
      CarefulStep postgres Kernel.Sample.codec
        ((world.locked index attempt.deliveryId).goto index attempt
          (some (.ordering token world.clock))) (.attempt index)
        ((world.locked index attempt.deliveryId).goto index attempt
          (some (.claiming token world.clock))) := by
    refine ⟨step_ordered isRow fun ⟨prior, event, precedes, _⟩ => none prior event precedes, ?_⟩
    intro moving isMoving
    rw [World.goto_attempts] at isMoving
    cases isMoving
    intro hit prior event isFound precedes
    cases isRow.symm.trans isFound
    exact absurd precedes (none prior event)
  have run := (Sample.run_ready.mono careful).append
    ((Sample.run_delivered careful checks).append (Sample.run_both careful checks))
  exact ⟨run, rfl, controls_in_order init run⟩

namespace Sample

/-- Both clients are gone, and a little more than the time of a claim passes. -/
def stale : World := { (ready.finish 0).finish 1 with clock := 65000002 }

def retried : World :=
  stale.request Kernel.Sample.postgres Kernel.Sample.codec 9 (resize "k2" 65000002)

def overtaken : World := retried.handedOver 2 (attempt "k2" second) (token "n") 7

def returned : World :=
  overtaken.request Kernel.Sample.postgres Kernel.Sample.codec 9 (resize "k1" 65000002)

def swapped : World := returned.handedOver 3 (attempt "k1" first) (token "m") 7

theorem retried_holds : Holds retried.db ∧ retried.attempts 2 = some (attempt "k2" second) := by
  decide +kernel

theorem returned_holds : Holds returned.db ∧ returned.attempts 3 = some (attempt "k1" first) := by
  decide +kernel

theorem retried_passes : ¬ retried.EarlierPending Kernel.Sample.postgres row retried.clock := by
  rintro ⟨prior, event, precedes, live | fresh⟩
  · have isPending : retried.states prior.eventId = .pending := ready_states prior.eventId
    rw [isPending] at live
    cases live
  · have old := retried_holds.1.2.2.2 event precedes.2.1
    rw [World.appendedWithin, old] at fresh
    exact absurd fresh (by decide +kernel)

theorem run_overtaken : Run (World.Step Kernel.Sample.postgres Kernel.Sample.codec) retried
      (List.replicate 9 (.attempt 2)) overtaken := by
  obtain ⟨row, hit, isSecond, -⟩ := exists_row retried_holds.1.2.2.1
  exact run_undisturbed retried 2 (attempt "k2" second) hit isSecond (ready_states second)
    (fun _ _ _ step => step.1)
    (fun _ => step_ordered hit retried_passes) retried_holds.2 rfl (hub_inactive second) rfl rfl
    hub_routes.1 hub_routes.2

theorem run_swapped : Run (World.Step Kernel.Sample.postgres Kernel.Sample.codec) returned
      (List.replicate 9 (.attempt 3)) swapped := by
  obtain ⟨row, hit, isFirst, number⟩ := exists_row returned_holds.1.2.1
  have passes : ¬ returned.EarlierPending Kernel.Sample.postgres row returned.clock := by
    rintro ⟨prior, event, precedes, -⟩
    rcases of_precedes returned_holds.1 precedes with ⟨-, late⟩ | late
    · rw [number] at late
      exact absurd late (by decide)
    · rw [number] at late
      exact absurd late (by decide)
  have isPending : returned.states first = .pending := by decide +kernel
  have inactive : returned.hub.deliveryPending first = false := by decide +kernel
  have unlocked : returned.locks first = none := by decide +kernel
  exact run_undisturbed returned 3 (attempt "k1" first) hit isFirst isPending
    (fun _ _ _ step => step.1)
    (fun _ => step_ordered hit passes) returned_holds.2 rfl inactive unlocked rfl
    hub_routes.1 hub_routes.2

end Sample

open Kernel.Sample in
/-- **A resize may be overtaken.**  The first resize loses its client before it is claimed, and
when its event is no longer fresh the second one is delivered; a retry then delivers the first. -/
theorem resize_overtakes :
    Run (World.Step postgres Kernel.Sample.codec) (.initial initial 1)
        (Sample.booting ++ [.lose 0, .lose 1, .tick 65000002,
          .request 9 (Sample.resize "k2" 65000002)] ++ List.replicate 9 (.attempt 2) ++
          [.request 9 (Sample.resize "k1" 65000002)] ++ List.replicate 9 (.attempt 3))
        Sample.swapped ∧
      ¬ Sample.swapped.InOrder := by
  have lost : Run (World.Step postgres Kernel.Sample.codec) Sample.ready
      [.lose 0, .lose 1, .tick 65000002, .request 9 (Sample.resize "k2" 65000002)]
      Sample.retried :=
    .cons (.lose _ _) (.cons (.lose _ _) (.cons (.tick _ (by decide +kernel))
      (.cons (.request _ _ rfl rfl) (.nil _))))
  have again : Run (World.Step postgres Kernel.Sample.codec) Sample.overtaken
      [.request 9 (Sample.resize "k1" 65000002)] Sample.returned :=
    .cons (.request _ _ rfl rfl) (.nil _)
  refine ⟨((((Sample.run_ready.mono fun _ _ _ step => step.1).append lost).append
    Sample.run_overtaken).append again).append Sample.run_swapped, fun inOrder => ?_⟩
  have queue : Sample.swapped.enqueued.filter (fun control =>
      control.destination.toLifetime "s" "0:1") =
      [⟨7, Sample.second, .session .control "s" "0:1"⟩,
        ⟨7, Sample.first, .session .control "s" "0:1"⟩] := rfl
  have before := inOrder "s" "0:1"
  rw [queue] at before
  obtain ⟨prior, isEarlier, later, isLater, isSecond, isFirst, order⟩ :=
    (pairwise_cons.mp before).1 _ (mem_singleton_self _)
  have sameFile : Sample.swapped.db = Sample.returned.db :=
    Sample.returned.handedOver_db 3 (Sample.attempt "k1" Sample.first) (Sample.token "m") 7
  rw [sameFile] at isEarlier isLater
  have numbers := Sample.returned_holds.1.1
  have listed (row : PtyDelivery) (mem : row ∈ Sample.returned.db.deliveries) :
      (row.eventId, row.eventSeq) ∈ [(Sample.first, 4), (Sample.second, 5)] :=
    numbers ▸ mem_map_of_mem (f := fun row : PtyDelivery => (row.eventId, row.eventSeq)) mem
  have late := listed prior isEarlier
  have early := listed later isLater
  rw [isSecond] at late
  rw [isFirst] at early
  have five : prior.eventSeq = 5 := by simpa [Sample.first, Sample.second] using late
  have four : later.eventSeq = 4 := by simpa [Sample.first, Sample.second] using early
  rw [five, four] at order
  exact absurd order (by decide)

end Gridwork.Delivery
