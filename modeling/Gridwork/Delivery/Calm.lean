import Gridwork.Delivery.World

/-!
# A delivery that nothing disturbs

An attempt that finds its row pending, its session live and the queue open takes nine steps
from its command's commit to the host, and an acknowledgement takes four to settle the row.
Both are stated for every world (`run_undisturbed`, `run_settled`), apart from the one step
that needs luck, the order check, which the caller supplies.
-/

namespace Gridwork.Delivery

open Domain Lib Pty List Function World PtyHub Prod Kernel

/-! ## What is left of a step -/

variable {deliveryId : EventId} {pg : Postgres} {owner : ConnectionId} {channel : Channel}
  {id : PtySessionId} {generation : PtySessionGeneration} {epoch : WriterEpoch}

namespace World

theorem goto_attempts (world : World) (index : Nat) (attempt : Attempt) (stage : Stage) :
    (world.goto index attempt (some stage)).attempts index = some { attempt with stage } :=
  update_self ..

theorem goto_goto (world : World) (index : Nat) (attempt : Attempt) (first second : Stage) :
    (world.goto index attempt (some first)).goto index { attempt with stage := first }
      (some second) = world.goto index attempt (some second) := by
  simp [goto]

def locked (world : World) (index : Nat) (deliveryId : EventId) : World :=
  { world with locks := Function.update world.locks deliveryId (some index) }

/-- An attempt has claimed its row, under a token that it has from the hub. -/
def claimedBy (world : World) (index : Nat) (deliveryId : EventId) (token : String) : World :=
  ((world.locked index deliveryId).write deliveryId (.claim token world.clock)).unlock index

theorem claimedBy_states {world : World} {index : Nat} {token : String}
    (isPending : world.states deliveryId = .pending) :
    (world.claimedBy index deliveryId token).states deliveryId =
      .claimed token (world.clock + deliveryLease) := by
  have written := write_states (world.locked index deliveryId) deliveryId deliveryId
    (.claim token world.clock)
  rw [if_pos rfl] at written
  refine written.trans ?_
  simp only [locked, isPending]
  rfl

theorem claimedBy_locks {world : World} {index : Nat} {token : String} :
    (world.claimedBy index deliveryId token).locks deliveryId = none :=
  if_pos (update_self ..)

/-- An attempt has claimed its row and sent its control to the host. -/
def handedOver (world : World) (index : Nat) (attempt : Attempt) (token : String)
    (owner : ConnectionId) : World :=
  ((world.claimedBy index attempt.deliveryId token).goto index attempt
    (some (.permitted token owner))).send index { attempt with stage := .permitted token owner }
      token owner (world.hub.pended owner token attempt.deliveryId)

theorem handedOver_db (world : World) (index : Nat) (attempt : Attempt) (token : String)
    (owner : ConnectionId) : (world.handedOver index attempt token owner).db = world.db := rfl

/-- A host's acknowledgement has settled the row and reached the attempt. -/
def settledBy (world : World) (index : Nat) (owner : ConnectionId) (deliveryId : EventId)
    (token : String) (result : PtyDeliveryResult) : World :=
  { (world.write deliveryId (.settle token world.clock result)).ackTo index
      ⟨owner, deliveryId, result, .settled token⟩ none with
    hub := world.hub.forget deliveryId
    slots := Function.update world.slots (world.senders deliveryId) (.filled (ackResult result)) }

theorem ackTo_acks (world : World) (index : Nat) (ack : Ack) (stage : AckStage) :
    (world.ackTo index ack (some stage)).acks index = some { ack with stage } :=
  update_self ..

theorem ackTo_ackTo (world : World) (index : Nat) (ack : Ack) (first : AckStage)
    (second : Option AckStage) :
    (world.ackTo index ack (some first)).ackTo index { ack with stage := first } second =
      world.ackTo index ack second := by
  simp [ackTo]

end World

/-! ## Runs without a race -/

/-- A stage that needs no luck: not that of the order check, and at the queue the claim is still
there. -/
def Stage.Calm (settlement : Settlement) : Stage → Prop
  | ordering .. => False
  | permitted token _ => ∃ claimedUntil, settlement = .claimed token claimedUntil
  | _ => True

/-- The attempt that moves, if one does, is at a calm stage. -/
def World.Calm (world : World) : Action → Prop
  | .attempt index => ∀ attempt, world.attempts index = some attempt →
      attempt.stage.Calm (world.states attempt.deliveryId)
  | _ => True

/-- A step that races with no other. -/
def CalmStep (pg : Postgres) (codec : Codec) (before : World) (action : Action) (after : World) :
    Prop :=
  before.Step pg codec action after ∧ before.Calm action

section Undisturbed

variable {codec : Codec} {world : World} {index ackIndex : Nat} {attempt : Attempt}
  {row : PtyDelivery}

theorem CalmStep.of_attempt {after : World} {stage : Stage}
    (hit : world.attempts index = some { attempt with stage })
    (calm : stage.Calm (world.states attempt.deliveryId))
    (step : world.Step pg codec (.attempt index) after) :
    CalmStep pg codec world (.attempt index) after := by
  refine ⟨step, fun other isOther => ?_⟩
  rw [hit] at isOther
  cases isOther
  exact calm

theorem step_ordered {token : String}
    (isRow : deliveryFor world.db attempt.projectId attempt.idempotencyKey = some row)
    (first : ¬ world.EarlierPending pg row world.clock) :
    World.Step pg codec ((world.locked index attempt.deliveryId).goto index attempt
        (some (.ordering token world.clock))) (.attempt index)
      ((world.locked index attempt.deliveryId).goto index attempt
        (some (.claiming token world.clock))) := by
  have ordering := goto_attempts (world.locked index attempt.deliveryId) index attempt
    (.ordering token world.clock)
  have checks : World.Step pg codec _ (.attempt index) _ := .moves ordering (.ordered isRow first)
  rwa [goto_goto] at checks

section Delivering

variable (isRow : deliveryFor world.db attempt.projectId attempt.idempotencyKey = some row)
  (isIts : row.eventId = attempt.deliveryId)
  (isPending : world.states attempt.deliveryId = .pending)

include isRow isIts isPending

theorem run_ordering (hit : world.attempts index = some { attempt with stage := .submitted })
    (isEpoch : world.hub.writerEpoch = epoch)
    (inactive : world.hub.deliveryPending attempt.deliveryId = false)
    (unlocked : world.locks attempt.deliveryId = none) (nonce : String) :
    Run (CalmStep pg codec) world [.attempt index, .attempt index, .attempt index]
      ((world.locked index attempt.deliveryId).goto index attempt
        (some (.ordering s!"{epoch}:{attempt.connection}:{nonce}" world.clock))) := by
  subst isEpoch
  have minted := goto_attempts world index attempt
    (.minted s!"{world.hub.writerEpoch}:{attempt.connection}:{nonce}")
  have opened := goto_attempts world index attempt
    (.opening s!"{world.hub.writerEpoch}:{attempt.connection}:{nonce}" world.clock)
  refine .cons (.of_attempt hit trivial (.moves hit (.mints nonce inactive))) ?_
  refine .cons (.of_attempt minted trivial (.moves minted .begins)) ?_
  rw [goto_goto]
  have locks : World.Step pg codec _ (.attempt index) _ :=
    .lock opened rfl isRow (isIts ▸ unlocked) (.inl ⟨isIts ▸ isPending, rfl⟩)
  rw [goto_goto, isIts] at locks
  exact .cons (.of_attempt opened trivial locks) (.nil _)

theorem run_handover {token : String}
    (toSession : attempt.destination = .session channel id generation)
    (live : world.hub.liveOwner id generation = .ok owner)
    (negotiated : world.hub.checkSessionRoute channel id owner = .ok ())
    (inactive : world.hub.deliveryPending attempt.deliveryId = false) :
    Run (CalmStep pg codec) ((world.locked index attempt.deliveryId).goto index attempt
        (some (.claiming token world.clock)))
      [.attempt index, .attempt index, .attempt index, .attempt index, .attempt index]
      (world.handedOver index attempt token owner) := by
  have claiming := goto_attempts (world.locked index attempt.deliveryId) index attempt
    (.claiming token world.clock)
  have claims : World.Step pg codec _ (.attempt index) _ := .claim claiming rfl isRow
  rw [isIts] at claims
  have moved (stage : Stage) :=
    goto_attempts (world.claimedBy index attempt.deliveryId token) index attempt stage
  have claimed : ((((world.locked index attempt.deliveryId).goto index attempt
      (some (.claiming token world.clock))).write attempt.deliveryId
        (.claim token world.clock)).unlock index).goto index
          { attempt with stage := .claiming token world.clock } (some (.claimed token)) =
      (world.claimedBy index attempt.deliveryId token).goto index attempt (some (.claimed token)) :=
    goto_goto (world.claimedBy index attempt.deliveryId token) index attempt
      (.claiming token world.clock) (.claimed token)
  refine .cons (.of_attempt claiming trivial claims) ?_
  rw [claimed]
  refine .cons (.of_attempt (moved _) trivial (.moves (moved _) (.locates toSession live))) ?_
  rw [goto_goto]
  refine .cons (.of_attempt (moved _) trivial (.moves (moved _) (.routes toSession negotiated))) ?_
  rw [goto_goto]
  refine .cons (.of_attempt (moved _) trivial (.moves (moved _) .reserves)) ?_
  rw [goto_goto]
  refine .cons (.of_attempt (moved _) ⟨_, claimedBy_states isPending⟩
    (.enqueue (moved _) rfl ?_ ?_)) (.nil _)
  · simp only [toSession, Destination.Current]
  · simp only [toSession, Destination.enqueue]
    exact enqueueSession_of_liveOwner channel token live inactive

variable (world index attempt) in
/-- **A delivery that nothing disturbs reaches the host.** -/
theorem run_undisturbed {step : World → Action → World → Prop} {nonce : String}
    (calm : ∀ before action after, CalmStep pg codec before action after → step before action after)
    (checks : ∀ token, step ((world.locked index attempt.deliveryId).goto index attempt
      (some (.ordering token world.clock))) (.attempt index)
      ((world.locked index attempt.deliveryId).goto index attempt
      (some (.claiming token world.clock))))
    (hit : world.attempts index = some { attempt with stage := .submitted })
    (isEpoch : world.hub.writerEpoch = epoch)
    (inactive : world.hub.deliveryPending attempt.deliveryId = false)
    (unlocked : world.locks attempt.deliveryId = none)
    (toSession : attempt.destination = .session channel id generation)
    (live : world.hub.liveOwner id generation = .ok owner)
    (negotiated : world.hub.checkSessionRoute channel id owner = .ok ()) :
    Run step world (List.replicate 9 (.attempt index))
      (world.handedOver index attempt s!"{epoch}:{attempt.connection}:{nonce}" owner) :=
  ((run_ordering isRow isIts isPending hit isEpoch inactive unlocked nonce).mono calm).append
    (.cons (checks _)
      ((run_handover isRow isIts isPending toSession live negotiated inactive).mono calm))

end Delivering

/-- **An acknowledgement settles its delivery.** -/
theorem run_settled {token : String} {claimedUntil : Instant}
    {result : PtyDeliveryResult} (serving : world.serving = true)
    (idle : world.acks ackIndex = none) (fits : ackFits result)
    (isPending : world.hub.controls.pending.lookup deliveryId = some ⟨owner, token⟩)
    (unlocked : world.locks deliveryId = none)
    (isClaimed : world.states deliveryId = .claimed token claimedUntil) :
    Run (CalmStep pg codec) world
      [.acknowledge ackIndex owner deliveryId result, .ack ackIndex, .ack ackIndex, .ack ackIndex]
      (world.settledBy ackIndex owner deliveryId token result) := by
  have handled (stage : AckStage) :=
    ackTo_acks world ackIndex ⟨owner, deliveryId, result, .received⟩ stage
  have settled := ackTo_acks (world.write deliveryId (.settle token world.clock result)) ackIndex
      ⟨owner, deliveryId, result, .received⟩ (.settled token)
  refine .cons ⟨.acknowledge _ _ _ serving idle fits, trivial⟩ ?_
  refine .cons ⟨.ackMoves (handled _) (.claims (deliveryAckClaim_eq_ok isPending)), trivial⟩ ?_
  rw [ackTo_ackTo]
  refine .cons ⟨.settle (handled _) rfl unlocked ?_, trivial⟩ ?_
  · simp [ackTo, isClaimed, Statement.update]
  · have written := ackTo_ackTo (world.write deliveryId (.settle token world.clock result)) ackIndex
        ⟨owner, deliveryId, result, .received⟩ (.claimed token)
        (some (.settled token))
    have taken : World.Step pg codec ((world.write deliveryId
        (.settle token world.clock result)).ackTo ackIndex ⟨owner, deliveryId, result, .received⟩
          (some (.settled token))) (.ack ackIndex) _ :=
      .take settled rfl (takeDeliveryAck_of_pending isPending)
    rw [ackTo_ackTo, ← written] at taken
    exact .cons ⟨taken, trivial⟩ (.nil _)

end Undisturbed

/-! ## Two resizes of one session -/

namespace Sample

open Kernel.Sample

def opening : Kernel.Call := call (.openPtySession "s:0:1" "0:1" none none) "k0" operator

def resize (key : IdempotencyKey) (now : Instant) : ClientRequest :=
  .resizePtySession
    { call (.resizePtySession "s" "0:1" 80 24) key operator with moment := { moment with now } }

def ledger : Db :=
  Kernel.perform postgres codec (Kernel.perform postgres codec Kernel.Sample.initial
    (.submit activate)) (.submit opening)

def screen : PtyFrame := ⟨[blank.style], [[.cells 0 [" "]]], none⟩

def hub : PtyHub :=
  ((PtyHub.new 0).perform (.publishSnapshot 7 "s" none screen)).registerConnection 7
    ⟨true, true, false⟩

def booted : World := { (World.initial Kernel.Sample.initial 1).quarantine with db := ledger, hub }

/-- Two resizes of one session are committed and not yet sent. -/
def ready : World :=
  (booted.request postgres codec 9 (resize "k1" 1)).request postgres codec 9 (resize "k2" 1)

def booting : List Action :=
  [.quarantine, .act (.submit activate), .act (.submit opening),
    .publish (.publishSnapshot 7 "s" none screen), .register 7 ⟨true, true, false⟩,
    .request 9 (resize "k1" 1), .request 9 (resize "k2" 1)]

theorem run_ready : Run (CalmStep postgres codec) (.initial Kernel.Sample.initial 1) booting
    ready := by
  refine .cons ⟨.quarantine rfl, trivial⟩ ?_
  refine .cons ⟨.act _ _, trivial⟩ ?_
  refine .cons ⟨.act _ _, trivial⟩ ?_
  refine .cons ⟨.publish _ _ (fun _ no => by cases no), trivial⟩ ?_
  refine .cons ⟨.register _ _ _, trivial⟩ ?_
  refine .cons ⟨.request _ _ rfl rfl, trivial⟩ ?_
  exact .cons ⟨.request _ _ rfl rfl, trivial⟩ (.nil _)

theorem hub_routes : hub.liveOwner "s" "0:1" = .ok 7 ∧
    hub.checkSessionRoute .control "s" 7 = .ok () := by
  decide +kernel

theorem hub_pending : hub.controls.pending = ∅ := by
  rw [hub, registerConnection_pending, perform_controls]
  · rfl
  · exact fun _ no => by cases no

theorem hub_inactive (deliveryId : EventId) : hub.deliveryPending deliveryId = false := by
  rw [deliveryPending, hub_pending]
  rfl

def first : EventId := "pty_session:s:0:1:2"

def second : EventId := "pty_session:s:0:1:3"

def attempt (key : IdempotencyKey) (deliveryId : EventId) : Attempt where
  projectId := "p"
  idempotencyKey := key
  deliveryId := deliveryId
  connection := 9
  destination := .session .control "s" "0:1"
  stage := .submitted

theorem ready_attempts : ready.attempts 0 = some (attempt "k1" first) ∧
    ready.attempts 1 = some (attempt "k2" second) := by
  decide +kernel

theorem ready_states (deliveryId : EventId) : ready.states deliveryId = .pending := by
  have none : Kernel.Sample.initial.deliveries = [] := rfl
  have quarantined : ready.states deliveryId =
      if deliveryId ∈ Kernel.Sample.initial.deliveries.map (·.eventId) then
        (Statement.quarantine 1).run .pending else .pending := rfl
  rw [quarantined, none]
  rfl

def numbered (db : Db) (key : IdempotencyKey) : Option (EventId × Seq) :=
  (deliveryFor db "p" key).map fun row => (row.eventId, row.eventSeq)

def Holds (db : Db) : Prop :=
  db.deliveries.map (fun row => (row.eventId, row.eventSeq)) = [(first, 4), (second, 5)] ∧
    numbered db "k1" = some (first, 4) ∧ numbered db "k2" = some (second, 5) ∧
    ∀ event ∈ db.events, event.appendedAt = "p"
  deriving Decidable

theorem ready_holds : Holds ready.db := by decide +kernel

theorem exists_row {db : Db} {key : IdempotencyKey} {seq : Seq}
    (isNumbered : numbered db key = some (deliveryId, seq)) :
    ∃ row, deliveryFor db "p" key = some row ∧ row.eventId = deliveryId ∧ row.eventSeq = seq := by
  obtain ⟨row, hit, eq⟩ := Option.map_eq_some_iff.mp isNumbered
  exact ⟨row, hit, congrArg fst eq, congrArg snd eq⟩

theorem of_precedes {world : World} (holds : Holds world.db) {row prior : PtyDelivery}
    {event : Kernel.Event} (precedes : world.Precedes row prior event) :
    (prior.eventId = first ∧ 4 < row.eventSeq) ∨ 5 < row.eventSeq := by
  have listed : (prior.eventId, prior.eventSeq) ∈ [(first, 4), (second, 5)] :=
    holds.1 ▸ mem_map_of_mem (f := fun row : PtyDelivery => (row.eventId, row.eventSeq)) precedes.1
  have before := precedes.2.2.2.2.1
  rcases mem_cons.mp listed with isFirst | listed
  · obtain ⟨isFirst, number⟩ := mk.inj isFirst
    exact .inl ⟨isFirst, number ▸ before⟩
  · obtain ⟨-, number⟩ := mk.inj (mem_singleton.mp listed)
    exact .inr (number ▸ before)

def token (nonce : String) : String := s!"{hub.writerEpoch}:{(9 : ConnectionId)}:{nonce}"

def delivered : World :=
  (ready.handedOver 0 (attempt "k1" first) (token "n") 7).settledBy 0 7 first (token "n") .applied

def both : World := delivered.handedOver 1 (attempt "k2" second) (token "m") 7

def delivering : List Action :=
  List.replicate 9 (.attempt 0) ++ [.acknowledge 0 7 first .applied, .ack 0, .ack 0, .ack 0]

section Runs

variable {step : World → Action → World → Prop}
  (calm : ∀ before action after, CalmStep postgres codec before action after →
    step before action after)
  (checks : ∀ {world : World} {index : Nat} {attempt : Attempt} {row : PtyDelivery}
    (token : String),
    deliveryFor world.db attempt.projectId attempt.idempotencyKey = some row →
      (∀ prior event, ¬ world.Precedes row prior event) →
        step ((world.locked index attempt.deliveryId).goto index attempt
            (some (.ordering token world.clock))) (.attempt index)
          ((world.locked index attempt.deliveryId).goto index attempt
            (some (.claiming token world.clock))))

include calm checks

theorem run_delivered : Run step ready delivering delivered := by
  obtain ⟨row, hit, isFirst, number⟩ := exists_row ready_holds.2.1
  have none (prior : PtyDelivery) (event : Kernel.Event) : ¬ ready.Precedes row prior event := by
    intro precedes
    rcases of_precedes ready_holds precedes with ⟨-, late⟩ | late
    · rw [number] at late
      exact absurd late (by decide)
    · rw [number] at late
      exact absurd late (by decide)
  have handed : Run step ready (List.replicate 9 (.attempt 0))
      (ready.handedOver 0 (attempt "k1" first) (token "n") 7) :=
    run_undisturbed ready 0 (attempt "k1" first) hit isFirst (ready_states _) calm
      (fun token => checks token hit none)
      ready_attempts.1 rfl (hub_inactive first) rfl rfl hub_routes.1 hub_routes.2
  refine handed.append (Run.mono ?_ calm)
  have isPending : (hub.pended 7 (token "n") first).controls.pending.lookup first =
      some ⟨7, token "n"⟩ := by
    rw [pended_lookup, if_pos rfl]
  have isClaimed : (ready.claimedBy 0 first (token "n")).states first =
      .claimed (token "n") (1 + deliveryLease) :=
    claimedBy_states (ready_states first)
  have unlocked : (ready.claimedBy 0 first (token "n")).locks first = .none :=
    claimedBy_locks
  have fits : ackFits .applied := trivial
  exact run_settled rfl rfl fits isPending unlocked isClaimed

theorem run_both : Run step delivered (List.replicate 9 (.attempt 1)) both := by
  obtain ⟨row, hit, isSecond, number⟩ := exists_row ready_holds.2.2.1
  have none (prior : PtyDelivery) (event : Kernel.Event) :
      ¬ delivered.Precedes row prior event := by
    intro precedes
    have holds : Holds delivered.db := ready_holds
    rcases of_precedes holds precedes with ⟨isFirst, -⟩ | late
    · have unsettled := precedes.2.2.2.1
      rw [isFirst] at unsettled
      exact unsettled (by decide +kernel)
    · rw [number] at late
      exact absurd late (by decide)
  have isPending : delivered.states second = .pending := by decide +kernel
  have inactive : delivered.hub.deliveryPending second = false := by decide +kernel
  exact run_undisturbed delivered 1 (attempt "k2" second) hit isSecond isPending calm
    (fun token => checks token hit none)
    ready_attempts.2 rfl inactive rfl rfl hub_routes.1 hub_routes.2

end Runs

end Sample

end Gridwork.Delivery
