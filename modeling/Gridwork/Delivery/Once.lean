import Gridwork.Delivery.Calm
import Gridwork.Lib.Permit

/-!
# A control is delivered at most once

The right to enqueue a control is a permit.  It lies with the row while the row is pending,
goes to the attempt that claims it, comes back with a release, and is spent in the section
that hands the control over.  `Sound` says where each permit is: an attempt that may still
enqueue holds it, and a pending row has it.

The one way back is the release after a refusal, and a refusal is of two kinds.  Before the
control was handed over the attempt still holds its permit.  After it the refusal is the
host's own, the acknowledgement has settled the row before the attempt hears of it, and the
release finds nothing to do.
-/

namespace Gridwork.Delivery

open Domain Lib Pty Function Option World Statement Permits PtyHub Kernel

variable {pg : Postgres} {codec : Codec}

/-! ## What a stage relies on -/

/-- What an attempt relies on, of the lock and the settlement of its row, the place of its
permit, and the channel it waits for. -/
def Stage.Holds (index : Nat) (lock : Option Nat) (settlement : Settlement) (place : Place Nat)
    (slot : Slot (Except PtyRefusal Unit)) : Stage → Prop
  | submitted | minted _ | opening .. | doubtful _ => True
  | expiring _ => lock = some index
  | ordering .. | claiming .. => lock = some index ∧ settlement = .pending
  | claimed _ | located .. | routed .. | permitted .. => place = .held index
  | sent _ => ∀ result, slot = .filled result → settlement.Final
  | acknowledged .. => settlement.Final
  | refused .. => place = .held index ∨ settlement.Final

namespace Stage.Holds

variable {stage : Stage} {index : Nat} {lock : Option Nat} {settlement : Settlement}
  {place : Place Nat} {slot : Slot (Except PtyRefusal Unit)}

theorem run (holds : stage.Holds index lock settlement place slot) (elsewhere : lock ≠ some index)
    (statement : Statement) : stage.Holds index lock (statement.run settlement) place slot := by
  have stays (final : settlement.Final) : (statement.run settlement).Final := by
    rw [statement.run_final final]
    exact final
  cases stage with
  | submitted | minted | opening | doubtful => trivial
  | expiring => exact absurd holds elsewhere
  | ordering | claiming => exact absurd holds.1 elsewhere
  | claimed | located | routed | permitted => exact holds
  | sent => exact fun result filled => stays (holds result filled)
  | acknowledged => exact stays holds
  | refused => exact holds.imp_right stays

variable {other : Nat}

theorem unlocked (holds : stage.Holds index lock settlement place slot)
    (ne : index ≠ other) :
    stage.Holds index (if lock = some other then none else lock) settlement place slot := by
  have stays (mine : lock = some index) :
      (if lock = some other then none else lock) = some index := by
    rw [mine, if_neg (fun eq => ne (some.inj eq))]
  cases stage with
  | submitted | minted | opening | doubtful => trivial
  | expiring => exact stays holds
  | ordering | claiming => exact ⟨stays holds.1, holds.2⟩
  | _ => exact holds

theorem locked (holds : stage.Holds index none settlement place slot) :
    stage.Holds index (some other) settlement place slot := by
  cases stage with
  | submitted | minted | opening | doubtful => trivial
  | expiring => cases holds
  | ordering | claiming => cases holds.1
  | _ => exact holds

theorem moved {next : Place Nat} (holds : stage.Holds index lock settlement place slot)
    (elsewhere : place ≠ .held index) : stage.Holds index lock settlement next slot := by
  cases stage with
  | submitted | minted | opening | doubtful => trivial
  | expiring | ordering | claiming | sent | acknowledged => exact holds
  | claimed | located | routed | permitted => exact absurd holds elsewhere
  | refused => exact .inr (holds.resolve_left elsewhere)

theorem slotted {next : Slot (Except PtyRefusal Unit)}
    (holds : stage.Holds index lock settlement place slot)
    (final : ∀ result, next = .filled result → slot = .filled result ∨ settlement.Final) :
    stage.Holds index lock settlement place next := by
  cases stage with
  | sent => exact fun result filled => (final result filled).elim (holds result) id
  | _ => exact holds

end Stage.Holds

/-- **An attempt's own moves keep what it relies on.** -/
theorem Moves.holds {world : World} {index : Nat} {attempt : Attempt} {before after : Stage}
    {place : Place Nat} (moves : Moves pg world index attempt before (some after))
    (holds : before.Holds index (world.locks attempt.deliveryId)
      (world.states attempt.deliveryId) place (world.slots index)) :
    after.Holds index (world.locks attempt.deliveryId) (world.states attempt.deliveryId) place
      (world.slots index) := by
  generalize isAfter : some after = answer at moves
  cases moves with
  | busy | missing | answered | blocked => cases isAfter
  | mints | begins | deserted | late =>
    cases isAfter
    trivial
  | ordered | locates | routes | manages | reserves =>
    cases isAfter
    exact holds
  | unlocated | unrouted | unmanaged | closed | slow | unqueued =>
    cases isAfter
    exact .inl holds
  | slowStart _ before =>
    cases isAfter
    rcases before with rfl | ⟨owner, rfl⟩
    · exact .inl holds
    · exact .inl holds
  | reroutes _ before =>
    cases isAfter
    rcases before with rfl | ⟨rfl, -⟩
    · exact holds
    · exact holds
  | replied filled =>
    cases isAfter
    exact holds _ filled

variable {ack : Ack}

theorem AckMoves.ne_settled {world : World} {before : AckStage}
    {after : Option AckStage} (moves : AckMoves world ack before after) (token : String) :
    after ≠ some (.settled token) := by
  cases moves with
  | _ => exact fun no => by cases no

/-! ## Where the permits are -/

structure OnFile (db : Db) (attempt : Attempt) (event : Event) (row : PtyDelivery) : Prop where
  logged : event ∈ db.events
  listed : row ∈ db.deliveries
  isRow : Kernel.RowOf event row
  projectId : row.projectId = attempt.projectId
  key : row.idempotencyKey = attempt.idempotencyKey
  eventId : row.eventId = attempt.deliveryId
  lifetime : ∀ channel id generation, attempt.destination = .session channel id generation →
    event.aggregate = ("pty_session", Kernel.ptySessionLifetimeId id generation)

variable {row : PtyDelivery} {event : Event}

theorem OnFile.grows {db after : Db} {attempt : Attempt}
    (onFile : OnFile db attempt event row) (grows : Kernel.Grows db after) :
    OnFile after attempt event row :=
  { onFile with
    logged := grows.events.subset onFile.logged
    listed := grows.deliveries.subset onFile.listed }

variable {db : Db}

theorem onFile_of_attemptFor {connection : ConnectionId} {request : ClientRequest}
    {attempt : Attempt} (filed : Filed db)
    (isAttempt : attemptFor connection request (serve pg codec db request).1 = some attempt) :
    ∃ event row, OnFile (serve pg codec db request).2 attempt event row := by
  unfold attemptFor at isAttempt
  split at isAttempt
  next commandId event rest mark command control applied decoded =>
    obtain ⟨destination, isDestination, rfl⟩ := map_eq_some_iff.mp isAttempt
    obtain ⟨logged, row, eq, delivers⟩ := Kernel.serve_delivers filed control
      (Prod.ext applied rfl : serve pg codec db request = (_, (serve pg codec db request).2))
        decoded
    obtain ⟨rfl, -⟩ := List.cons.inj eq
    refine ⟨event, row, delivers.logged, delivers.listed, delivers.isRow, delivers.projectId,
      delivers.key, delivers.isRow.eventId, ?_⟩
    rintro channel id generation rfl
    obtain ⟨family, target⟩ :=
      Destination.aggregate_of_eq_session isDestination request.call.envelope
    exact Prod.ext (delivers.family.trans family) (some.inj (delivers.target.symm.trans target))
  next => cases isAttempt

/-- An attempt by its index, with what it relies on. -/
structure Attempt.Sound (world : World) (permits : Permits EventId Nat) (index : Nat)
    (attempt : Attempt) : Prop where
  bounded : index < world.next
  onFile : ∃ event row, OnFile world.db attempt event row
  holds : attempt.stage.Holds index (world.locks attempt.deliveryId)
    (world.states attempt.deliveryId) (permits.place attempt.deliveryId) (world.slots index)

/-- The permits of a world: spent for what was enqueued, free for pending rows, and with the
attempts that rely on them. -/
structure Accounts (world : World) (permits : Permits EventId Nat) : Prop where
  spent : world.enqueued.map (·.deliveryId) = permits.spent
  free : ∀ deliveryId, world.states deliveryId = .pending → permits.place deliveryId = .free
  filed : Filed world.db
  attempts : ∀ index attempt, world.attempts index = some attempt →
    attempt.Sound world permits index
  acks : ∀ index ack token, world.acks index = some ack → ack.stage = .settled token →
    (world.states ack.deliveryId).Final
  /-- The sender behind a pending delivery is one of its own attempts. -/
  senders : ∀ deliveryId pending, world.hub.controls.pending.lookup deliveryId = some pending →
    world.senders deliveryId < world.next ∧
      ∀ attempt, world.attempts (world.senders deliveryId) = some attempt →
        attempt.deliveryId = deliveryId
  /-- Attempts begin with requests, and requests with the first connection. -/
  stopped : world.serving = false → ∀ index, world.attempts index = none

variable {clock : Instant} {action : Action}

namespace Accounts

variable {world : World} {permits : Permits EventId Nat}

theorem initial (filed : Filed db) (clock : Instant) :
    Accounts (.initial db clock) .initial where
  spent := rfl
  free _ _ := rfl
  filed := filed
  attempts _ _ hit := by cases hit
  acks _ _ _ hit := by cases hit
  senders _ _ hit := by cases hit
  stopped _ _ := rfl

section Attempts

variable (accounts : Accounts world permits) {index : Nat} {attempt : Attempt}
  (hit : world.attempts index = some attempt)

include accounts hit

theorem serving : world.serving = true := by
  rw [← Bool.not_eq_false]
  intro stopped
  rw [accounts.stopped stopped index] at hit
  cases hit

theorem eventId_eq
    (isRow : deliveryFor world.db attempt.projectId attempt.idempotencyKey = some row) :
    row.eventId = attempt.deliveryId := by
  obtain ⟨event, filedRow, onFile⟩ := (accounts.attempts index attempt hit).onFile
  have eq := accounts.filed.deliveryFor_eq onFile.listed
  rw [onFile.projectId, onFile.key, isRow] at eq
  rw [some.inj eq]
  exact onFile.eventId

theorem sender_eq {deliveryId : EventId} {pending : PendingDelivery}
    (isPending : world.hub.controls.pending.lookup deliveryId = some pending)
    (mine : world.senders deliveryId = index) : attempt.deliveryId = deliveryId :=
  (accounts.senders deliveryId pending isPending).2 attempt (mine ▸ hit)

end Attempts

/-! ## What the parts of a step do -/

section Parts

variable (accounts : Accounts world permits)

include accounts

theorem outside {hub : PtyHub} {orphans : List (EventId × String)} (files : Files world.db db)
    (pending : ∀ deliveryId delivery, hub.controls.pending.lookup deliveryId = some delivery →
      world.hub.controls.pending.lookup deliveryId = some delivery) :
    Accounts { world with clock, db, hub, orphans } permits := by
  refine { accounts with filed := accounts.filed.files files, attempts := ?_, senders := ?_ }
  · intro index attempt hit
    obtain ⟨bounded, ⟨event, row, onFile⟩, holds⟩ := accounts.attempts index attempt hit
    exact ⟨bounded, ⟨event, row, onFile.grows files.grows⟩, holds⟩
  · intro deliveryId delivery isPending
    exact accounts.senders deliveryId delivery (pending deliveryId delivery isPending)

theorem reply {slots : Nat → Slot (Except PtyRefusal Unit)}
    (final : ∀ index attempt result, world.attempts index = some attempt →
      slots index = .filled result →
        world.slots index = .filled result ∨ (world.states attempt.deliveryId).Final) :
    Accounts { world with slots } permits := by
  refine { accounts with attempts := ?_ }
  intro index attempt hit
  obtain ⟨bounded, onFile, holds⟩ := accounts.attempts index attempt hit
  exact ⟨bounded, onFile, holds.slotted fun result => final index attempt result hit⟩

theorem ackTo {index : Nat} {stage : Option AckStage}
    (settled : ∀ token, stage = some (.settled token) → (world.states ack.deliveryId).Final) :
    Accounts (world.ackTo index ack stage) permits := by
  refine { accounts with attempts := ?_, acks := ?_ }
  · intro other attempt hit
    obtain ⟨bounded, onFile, holds⟩ := accounts.attempts other attempt hit
    exact ⟨bounded, onFile, holds⟩
  · intro other moved token isMoved isSettled
    rcases update_eq_some isMoved with ⟨-, eq⟩ | ⟨-, isOther⟩
    · obtain ⟨next, isStage, rfl⟩ := map_eq_some_iff.mp eq
      exact settled token (isStage.trans (congrArg some isSettled))
    · exact accounts.acks other moved token isOther isSettled

theorem removed (index : Nat) :
    Accounts { world with attempts := Function.update world.attempts index none } permits := by
  refine { accounts with attempts := ?_, senders := ?_, stopped := ?_ }
  · intro other moved isMoved
    rcases update_eq_some isMoved with ⟨-, no⟩ | ⟨-, isOther⟩
    · cases no
    · obtain ⟨bounded, onFile, holds⟩ := accounts.attempts other moved isOther
      exact ⟨bounded, onFile, holds⟩
  · intro deliveryId pending isPending
    obtain ⟨below, sender⟩ := accounts.senders deliveryId pending isPending
    refine ⟨below, fun moved isMoved => ?_⟩
    rcases update_eq_some isMoved with ⟨-, no⟩ | ⟨-, isOther⟩
    · cases no
    · exact sender moved isOther
  · intro stopped other
    dsimp only
    rw [update_apply]
    split
    · rfl
    · exact accounts.stopped stopped other

theorem finish (index : Nat) : Accounts (world.finish index) permits := by
  refine { accounts.removed index with attempts := ?_ }
  intro other moved isMoved
  rcases update_eq_some isMoved with ⟨-, no⟩ | ⟨ne, isOther⟩
  · cases no
  · obtain ⟨bounded, onFile, holds⟩ := accounts.attempts other moved isOther
    exact ⟨bounded, onFile, holds.unlocked ne⟩

variable {deliveryId : EventId}

theorem write {statement : Statement} (unlocked : world.locks deliveryId = none)
    (free : statement.run (world.states deliveryId) = .pending → permits.place deliveryId = .free) :
    Accounts (world.write deliveryId statement) permits := by
  refine { accounts with free := ?_, attempts := ?_, acks := ?_ }
  · intro other isPending
    rw [write_states] at isPending
    split at isPending
    next eq =>
      subst eq
      exact free isPending
    next => exact accounts.free other isPending
  · intro index attempt hit
    obtain ⟨bounded, onFile, holds⟩ := accounts.attempts index attempt hit
    refine ⟨bounded, onFile, ?_⟩
    rw [write_states]
    split
    next eq =>
      have elsewhere : world.locks attempt.deliveryId ≠ some index := by simp [eq, unlocked]
      exact holds.run elsewhere statement
    next => exact holds
  · intro index ack token hit settled
    have final := accounts.acks index ack token hit settled
    rw [write_states]
    split
    next =>
      rw [statement.run_final final]
      exact final
    next => exact final

theorem lock (unlocked : world.locks deliveryId = none) (index : Nat) :
    Accounts { world with locks := Function.update world.locks deliveryId (some index) }
      permits := by
  refine { accounts with attempts := ?_ }
  intro other attempt hit
  obtain ⟨bounded, onFile, holds⟩ := accounts.attempts other attempt hit
  refine ⟨bounded, onFile, ?_⟩
  dsimp only
  by_cases eq : attempt.deliveryId = deliveryId
  · subst eq
    rw [unlocked] at holds
    rw [update_self]
    exact holds.locked
  · rw [update_of_ne eq]
    exact holds

theorem move {place : Place Nat} (free : world.states deliveryId = .pending → place = .free)
    (elsewhere : ∀ index attempt, world.attempts index = some attempt →
      permits.place deliveryId ≠ .held index) :
    Accounts world (permits.move deliveryId place) := by
  refine { accounts with free := ?_, attempts := ?_ }
  · intro other isPending
    by_cases eq : other = deliveryId
    · subst eq
      exact move_self.trans (free isPending)
    · rw [move_of_ne eq]
      exact accounts.free other isPending
  · intro index attempt hit
    obtain ⟨bounded, onFile, holds⟩ := accounts.attempts index attempt hit
    refine ⟨bounded, onFile, ?_⟩
    by_cases eq : attempt.deliveryId = deliveryId
    · exact holds.moved (eq ▸ elsewhere index attempt hit)
    · rw [move_of_ne eq]
      exact holds

end Parts

theorem resume (world : World) {index : Nat} {attempt : Attempt}
    (accounts : Accounts { world with attempts := Function.update world.attempts index none }
      permits) (bounded : index < world.next) (serving : world.serving = true)
    (onFile : OnFile world.db attempt event row)
    (holds : attempt.stage.Holds index (world.locks attempt.deliveryId)
      (world.states attempt.deliveryId) (permits.place attempt.deliveryId) (world.slots index))
    (sender : ∀ deliveryId pending, world.hub.controls.pending.lookup deliveryId = some pending →
        world.senders deliveryId = index → attempt.deliveryId = deliveryId) :
    Accounts { world with attempts := Function.update world.attempts index (some attempt) }
      permits := by
  have others {other : Nat} {moved : Attempt} (ne : other ≠ index)
      (isOther : world.attempts other = some moved) :
      Function.update world.attempts index none other = some moved := by
    rw [update_of_ne ne]
    exact isOther
  refine { accounts with attempts := ?_, senders := ?_, stopped := ?_ }
  · intro other moved isMoved
    rcases update_eq_some isMoved with ⟨rfl, eq⟩ | ⟨ne, isOther⟩
    · cases eq
      exact ⟨bounded, ⟨event, row, onFile⟩, holds⟩
    · obtain ⟨below, isFiled, keeps⟩ := accounts.attempts other moved (others ne isOther)
      exact ⟨below, isFiled, keeps⟩
  · intro deliveryId pending isPending
    obtain ⟨below, isSender⟩ := accounts.senders deliveryId pending isPending
    refine ⟨below, fun moved isMoved => ?_⟩
    rcases update_eq_some isMoved with ⟨isMine, eq⟩ | ⟨ne, isOther⟩
    · cases eq
      exact sender deliveryId pending isPending isMine
    · exact isSender moved (others ne isOther)
  · intro stopped
    exact absurd serving (Bool.eq_false_iff.mp stopped)

theorem goto (accounts : Accounts world permits) {index : Nat} {attempt : Attempt} {stage : Stage}
    (hit : world.attempts index = some attempt)
    (holds : stage.Holds index (world.locks attempt.deliveryId)
      (world.states attempt.deliveryId) (permits.place attempt.deliveryId) (world.slots index)) :
    Accounts (world.goto index attempt (some stage)) permits := by
  obtain ⟨bounded, ⟨event, row, onFile⟩, -⟩ := accounts.attempts index attempt hit
  exact resume world (accounts.removed index) bounded (accounts.serving hit) { onFile with } holds
    fun _ _ isPending => accounts.sender_eq hit isPending

/-! ## Steps on a claim -/

section Claims

variable (accounts : Accounts world permits) {index : Nat} {attempt : Attempt} {token : String}
  {now : Instant} (hit : world.attempts index = some attempt)

include accounts hit

theorem expire (expiring : attempt.stage = .expiring now) :
    Accounts ((world.write attempt.deliveryId (.expire now)).finish index) permits := by
  have locked := (accounts.attempts index attempt hit).holds
  rw [expiring] at locked
  refine (accounts.finish index).write (if_pos locked) fun isPending => ?_
  rcases pending_of_run isPending with already | ⟨_, _, isRelease, _⟩
  · exact accounts.free _ already
  · cases isRelease

theorem claim (claiming : attempt.stage = .claiming token now) :
    permits.Step (permits.move attempt.deliveryId (.held index)) ∧
      Accounts (((world.write attempt.deliveryId (.claim token now)).unlock index).goto index
        attempt (some (.claimed token))) (permits.move attempt.deliveryId (.held index)) := by
  obtain ⟨bounded, ⟨event, row, onFile⟩, holds⟩ := accounts.attempts index attempt hit
  rw [claiming] at holds
  obtain ⟨locked, isPending⟩ := holds
  have isFree := accounts.free _ isPending
  refine ⟨.take index isFree, ?_⟩
  have written : Accounts ((world.finish index).write attempt.deliveryId (.claim token now))
      permits := (accounts.finish index).write (if_pos locked) fun _ => isFree
  have isClaimed : (Statement.claim token now).run (world.states attempt.deliveryId) ≠
      .pending := by
    rw [isPending]
    exact fun stillPending => by cases stillPending
  have moved : Accounts ((world.finish index).write attempt.deliveryId (.claim token now))
      (permits.move attempt.deliveryId (.held index)) := by
    refine written.move (fun stillPending => absurd ?_ isClaimed) fun _ _ _ => by simp [isFree]
    rw [write_states, if_pos rfl] at stillPending
    exact stillPending
  exact resume ((world.write attempt.deliveryId (.claim token now)).unlock index) moved bounded
    (accounts.serving hit) { onFile with } move_self
    fun deliveryId pending isPending => accounts.sender_eq hit isPending

theorem release {refusal : PtyRefusal} (refused : attempt.stage = .refused token refusal)
    (unlocked : world.locks attempt.deliveryId = none) :
    ∃ next, permits.Step next ∧
      Accounts ((world.write attempt.deliveryId (.release token)).finish index) next := by
  have holds := (accounts.attempts index attempt hit).holds
  rw [refused] at holds
  have finished := accounts.finish index
  have stillUnlocked : (world.finish index).locks attempt.deliveryId = none := by
    simp [World.finish, World.unlock, unlocked]
  rcases holds with isHeld | final
  · refine ⟨_, .back isHeld, Accounts.write (finished.move (fun _ => rfl) ?_) stillUnlocked
      fun _ => move_self⟩
    intro other moved isMoved isHeldToo
    obtain rfl : index = other := Place.held.inj (isHeld.symm.trans isHeldToo)
    rcases update_eq_some isMoved with ⟨-, no⟩ | ⟨ne, -⟩
    · cases no
    · exact ne rfl
  · refine ⟨permits, .stay permits, finished.write stillUnlocked fun isPending => ?_⟩
    exact accounts.free _ ((run_final (.release token) final).symm.trans isPending)

theorem send {owner : ConnectionId} {hub : PtyHub}
    (permitted : attempt.stage = .permitted token owner)
    (enqueues : attempt.destination.enqueue world.hub owner token attempt.deliveryId = .ok hub) :
    permits.Step (permits.spend attempt.deliveryId) ∧
      Accounts (world.send index attempt token owner hub) (permits.spend attempt.deliveryId) := by
  have mine := accounts.attempts index attempt hit
  have isHeld := mine.holds
  rw [permitted] at isHeld
  obtain ⟨-, pended⟩ := pend_ok.mp (Destination.enqueue_eq_ok enqueues)
  refine ⟨.spend isHeld, { accounts with
    spent := ?_, free := ?_, attempts := ?_, senders := ?_, stopped := ?_ }⟩
  · simp [World.send, spend, accounts.spent]
  · intro deliveryId isPending
    have isFree := accounts.free deliveryId isPending
    have ne : deliveryId ≠ attempt.deliveryId := by
      rintro rfl
      cases isHeld.symm.trans isFree
    exact (spend_of_ne ne).trans isFree
  · intro other moved isMoved
    rcases update_eq_some isMoved with ⟨rfl, eq⟩ | ⟨ne, isOther⟩
    · cases eq
      obtain ⟨event, row, onFile⟩ := mine.onFile
      have empty : (world.send other attempt token owner hub).slots other = .empty :=
        update_self ..
      exact ⟨mine.bounded, ⟨event, row, { onFile with }⟩,
        fun result filled => by cases empty.symm.trans filled⟩
    · obtain ⟨bounded, onFile, holds⟩ := accounts.attempts other moved isOther
      have slot : (world.send index attempt token owner hub).slots other = world.slots other :=
        update_of_ne ne ..
      refine ⟨bounded, onFile, ?_⟩
      rw [slot]
      by_cases eq : moved.deliveryId = attempt.deliveryId
      · refine holds.moved fun isHeldToo => ne ?_
        exact Place.held.inj (isHeldToo.symm.trans (eq ▸ isHeld))
      · rw [spend_of_ne eq]
        exact holds
  · intro deliveryId pending isPending
    change hub.controls.pending.lookup deliveryId = some pending at isPending
    rw [pended] at isPending
    by_cases eq : deliveryId = attempt.deliveryId
    · subst eq
      have sender : (world.send index attempt token owner hub).senders attempt.deliveryId = index :=
        update_self ..
      rw [sender]
      refine ⟨mine.bounded, fun moved isMoved => ?_⟩
      rcases update_eq_some isMoved with ⟨-, isMine⟩ | ⟨ne, -⟩
      · cases isMine
        rfl
      · exact absurd rfl ne
    · have sender : (world.send index attempt token owner hub).senders deliveryId =
          world.senders deliveryId := update_of_ne eq ..
      rw [sender]
      rw [pended_lookup, if_neg eq] at isPending
      obtain ⟨below, isSender⟩ := accounts.senders deliveryId pending isPending
      refine ⟨below, fun moved isMoved => ?_⟩
      rcases update_eq_some isMoved with ⟨isMine, isMoved⟩ | ⟨-, isOther⟩
      · cases isMoved
        exact accounts.sender_eq hit isPending isMine
      · exact isSender moved isOther
  · intro stopped
    exact absurd (accounts.serving hit) (Bool.eq_false_iff.mp stopped)

end Claims

/-! ## Steps on the hub, and those of the process -/

section Process

variable (accounts : Accounts world permits)

include accounts

theorem forget (deliveryId : EventId) : Accounts (world.forget deliveryId) permits := by
  have replied : Accounts { world with slots := (world.forget deliveryId).slots } permits := by
    refine accounts.reply fun index attempt result _ filled => .inl ?_
    simp only [World.forget] at filled
    split at filled
    next =>
      by_cases eq : index = world.senders deliveryId
      · rw [eq, update_self] at filled
        cases filled
      · rw [update_of_ne eq] at filled
        exact filled
    next => exact filled
  exact replied.outside (.eq rfl rfl rfl) fun _ _ => pending_of_forget

theorem take {index : Nat} {token : String}
    {hub : PtyHub} (hit : world.acks index = some ack) (settled : ack.stage = .settled token)
    (takes : world.hub.takeDeliveryAck ack.connection ack.deliveryId token = .ok hub) :
    Accounts { world.ackTo index ack none with
      hub
      slots := Function.update world.slots (world.senders ack.deliveryId)
        (.filled (ackResult ack.result)) } permits := by
  obtain ⟨isPending, rfl⟩ := takeDeliveryAck_eq_ok takes
  have final := accounts.acks index ack token hit settled
  have acked : Accounts (world.ackTo index ack none) permits :=
    accounts.ackTo fun _ no => by cases no
  have replied : Accounts { world.ackTo index ack none with
      slots := Function.update world.slots (world.senders ack.deliveryId)
        (.filled (ackResult ack.result)) } permits := by
    refine acked.reply fun other attempt result isAttempt filled => ?_
    by_cases eq : other = world.senders ack.deliveryId
    · subst eq
      right
      rw [accounts.sender_eq isAttempt isPending rfl]
      exact final
    · rw [update_of_ne eq] at filled
      exact .inl filled
  exact replied.outside (.eq rfl rfl rfl) fun _ _ => pending_of_forget

theorem disconnect (connection : ConnectionId) :
    Accounts (world.disconnect connection) permits := by
  have replied : Accounts { world with slots := (world.disconnect connection).slots } permits := by
    refine accounts.reply fun index attempt result _ filled => .inl ?_
    simp only [World.disconnect] at filled
    split at filled
    next => cases filled
    next => exact filled
  exact replied.outside (.eq rfl rfl rfl) fun _ _ => pending_of_disconnect

theorem reserve : Accounts { world with
      attempts := Function.update world.attempts world.next none
      next := world.next + 1 } permits := by
  refine { accounts with attempts := ?_, senders := ?_, stopped := ?_ }
  · intro other attempt hit
    rcases update_eq_some hit with ⟨-, no⟩ | ⟨-, isOther⟩
    · cases no
    · obtain ⟨bounded, onFile, holds⟩ := accounts.attempts other attempt isOther
      exact ⟨Nat.lt_succ_of_lt bounded, onFile, holds⟩
  · intro deliveryId pending isPending
    obtain ⟨below, sender⟩ := accounts.senders deliveryId pending isPending
    refine ⟨Nat.lt_succ_of_lt below, fun attempt hit => ?_⟩
    rcases update_eq_some hit with ⟨-, no⟩ | ⟨-, isOther⟩
    · cases no
    · exact sender attempt isOther
  · intro stopped other
    by_cases eq : other = world.next
    · exact eq ▸ update_self ..
    · exact (update_of_ne eq ..).trans (accounts.stopped stopped other)

theorem request (connection : ConnectionId)
    (request : ClientRequest) (serving : world.serving = true) :
    Accounts (world.request pg codec connection request) permits := by
  have files : Files world.db (serve pg codec world.db request).2 := serve_files world.db request
  have served : Accounts { world with db := (serve pg codec world.db request).2 } permits :=
    accounts.outside files fun _ _ => id
  simp only [World.request]
  cases isAttempt : attemptFor connection request (serve pg codec world.db request).1 with
  | none => exact served.reserve
  | some attempt =>
    obtain ⟨event, row, onFile⟩ := onFile_of_attemptFor accounts.filed isAttempt
    refine resume { world with db := (serve pg codec world.db request).2, next := world.next + 1 }
      served.reserve (Nat.lt_succ_self _) serving onFile ?_ ?_
    · rw [attemptFor_stage isAttempt]
      trivial
    · intro deliveryId pending isPending isNext
      exact absurd isNext (accounts.senders deliveryId pending isPending).1.ne

theorem crash : Accounts world.crash permits where
  spent := accounts.spent
  free := accounts.free
  filed := accounts.filed.files (.eq rfl rfl rfl)
  attempts _ _ hit := by cases hit
  acks _ _ _ hit := by cases hit
  senders _ _ hit := by cases hit
  stopped _ _ := rfl

theorem quarantine (stopped : world.serving = false) : Accounts world.quarantine permits := by
  refine { accounts with free := ?_, attempts := ?_, acks := ?_, stopped := ?_ }
  · intro deliveryId isPending
    simp only [World.quarantine] at isPending
    split at isPending
    next =>
      rcases pending_of_run isPending with already | ⟨_, _, isRelease, _⟩
      · exact accounts.free deliveryId already
      · cases isRelease
    next => exact accounts.free deliveryId isPending
  · intro index attempt hit
    cases (accounts.stopped stopped index).symm.trans hit
  · intro index ack token hit settled
    have final := accounts.acks index ack token hit settled
    simp only [World.quarantine]
    split
    next =>
      rw [run_final _ final]
      exact final
    next => exact final
  · intro no
    cases no

end Process

/-! ## Every step -/

/-- **Every step of the delivery path is a step of the permits.** -/
theorem step {after : World} (accounts : Accounts world permits)
    (step : World.Step pg codec world action after) :
    ∃ next, permits.Step next ∧ Accounts after next := by
  have stays {after : World} (still : Accounts after permits) :
      ∃ next, permits.Step next ∧ Accounts after next := ⟨permits, .stay permits, still⟩
  have ofWrite {deliveryId : EventId} {statement : Statement}
      (unlocked : world.locks deliveryId = none)
      (keeps : ∀ token, statement ≠ .release token) :
      Accounts (world.write deliveryId statement) permits := by
    refine accounts.write unlocked fun isPending => ?_
    rcases pending_of_run isPending with already | ⟨token, _, isRelease, _⟩
    · exact accounts.free deliveryId already
    · exact absurd isRelease (keeps token)
  cases step with
  | tick clock later => exact stays (accounts.outside (.eq rfl rfl rfl) fun _ _ => id)
  | act act => exact stays (accounts.outside (Kernel.perform_files world.db act) fun _ _ => id)
  | request connection request serving timed =>
    exact stays (accounts.request connection request serving)
  | publish action keeps =>
    refine stays (accounts.outside (.eq rfl rfl rfl) fun deliveryId pending isPending => ?_)
    rwa [perform_controls world.hub action keeps] at isPending
  | register connection route =>
    refine stays (accounts.outside (.eq rfl rfl rfl) fun deliveryId pending isPending => ?_)
    rwa [registerConnection_pending] at isPending
  | disconnect connection => exact stays (accounts.disconnect connection)
  | @moves index attempt stage hit move =>
    cases stage with
    | none => exact stays (accounts.finish index)
    | some stage =>
      exact stays (accounts.goto hit (move.holds (accounts.attempts index attempt hit).holds))
  | @lock index attempt token now row stage hit opening isRow unlocked reads =>
    rw [accounts.eventId_eq hit isRow] at unlocked reads ⊢
    refine stays ((accounts.lock unlocked index).goto hit ?_)
    have locked : Function.update world.locks attempt.deliveryId (some index)
        attempt.deliveryId = some index := update_self ..
    rcases reads with ⟨isPending, rfl⟩ | ⟨-, -, rfl⟩
    · exact ⟨locked, isPending⟩
    · exact locked
  | expire hit expiring isRow =>
    rw [accounts.eventId_eq hit isRow]
    exact stays (accounts.expire hit expiring)
  | claim hit claiming isRow =>
    rw [accounts.eventId_eq hit isRow]
    exact ⟨_, accounts.claim hit claiming⟩
  | enqueue hit permitted current enqueues => exact ⟨_, accounts.send hit permitted enqueues⟩
  | @forget index attempt token result hit isAcknowledged =>
    have final := (accounts.attempts index attempt hit).holds
    rw [isAcknowledged] at final
    have forgotten := accounts.forget attempt.deliveryId
    cases result with
    | ok => exact stays (forgotten.finish index)
    | error refusal => exact stays (forgotten.goto hit (.inr final))
  | release hit refused isRow unlocked =>
    rw [accounts.eventId_eq hit isRow] at unlocked ⊢
    exact accounts.release hit refused unlocked
  | @abandon index attempt token hit doubtful unlocked =>
    exact stays ((ofWrite unlocked (by simp)).finish index)
  | lose index => exact stays (accounts.finish index)
  | acknowledge connection deliveryId result serving idle fits =>
    exact stays (accounts.ackTo fun _ no => by cases no)
  | ackMoves hit move =>
    exact stays (accounts.ackTo fun token isSettled => absurd isSettled (move.ne_settled token))
  | settle hit claimed unlocked matched =>
    refine stays ((ofWrite unlocked (by simp)).ackTo fun _ _ => ?_)
    rw [write_states, if_pos rfl]
    exact settle_final matched
  | take hit settled takes => exact stays (accounts.take hit settled takes)
  | reconcile hit unknown applied unlocked =>
    exact stays ((ofWrite unlocked (by simp)).ackTo fun _ no => by cases no)
  | orphan listed unlocked =>
    exact stays ((ofWrite unlocked (by simp)).outside (.eq rfl rfl rfl) fun _ _ => id)
  | crash => exact stays accounts.crash
  | quarantine stopped => exact stays (accounts.quarantine stopped)

end Accounts

/-! ## Runs -/

theorem World.Step.states_run {world after : World} (step : World.Step pg codec world action after)
    (deliveryId : EventId) :
    after.states deliveryId = world.states deliveryId ∨ ∃ statement : Statement,
        after.states deliveryId = statement.run (world.states deliveryId) := by
  have written (target : EventId) (statement : Statement) :
      (world.write target statement).states deliveryId = world.states deliveryId ∨
        ∃ executed : Statement, (world.write target statement).states deliveryId =
          executed.run (world.states deliveryId) := by
    rw [write_states]
    split
    · exact .inr ⟨statement, rfl⟩
    · exact .inl rfl
  cases step with
  | tick | act | request | publish | register | disconnect | lock | enqueue | lose | acknowledge
  | ackMoves | take | crash => exact .inl rfl
  | @moves index attempt stage => cases stage <;> exact .inl rfl
  | @forget index attempt token result => cases result <;> exact .inl rfl
  | expire | claim | release | abandon | settle | reconcile | orphan => exact written _ _
  | quarantine =>
    simp only [World.quarantine]
    split
    · exact .inr ⟨_, rfl⟩
    · exact .inl rfl

variable {world later : World} {actions : List Action}

theorem run_states_final (run : Run (World.Step pg codec) world actions later)
    {deliveryId : EventId} (final : (world.states deliveryId).Final) :
    later.states deliveryId = world.states deliveryId := by
  refine run.invariant_induction
    (fun reached => reached.states deliveryId = world.states deliveryId) rfl ?_
  intro action _ before after eq step
  rcases step.states_run deliveryId with unchanged | ⟨statement, changed⟩
  · rw [unchanged, eq]
  · rw [changed, eq, statement.run_final final]

theorem run_accounts (init : Kernel.Initialised pg codec db)
    (run : Run (World.Step pg codec) (.initial db clock) actions world) :
    ∃ permits : Permits EventId Nat, permits.Sound ∧ Accounts world permits := by
  obtain ⟨genesis, opened⟩ := init.opened
  refine run.invariant_induction
    (fun world => ∃ permits : Permits EventId Nat, permits.Sound ∧ Accounts world permits)
    ⟨.initial, .initial, .initial (.of_opened opened) clock⟩ ?_
  rintro action - before after ⟨permits, sound, accounts⟩ step
  obtain ⟨next, moves, kept⟩ := accounts.step step
  exact ⟨next, sound.step moves, kept⟩

/-- **PTY delivery is at most once.**  From the database's genesis on, over restarts and
whatever happens in between, no control is enqueued twice, and a row that is delivered or
failed stays as it is. -/
theorem deliveries_at_most_once {clock : Instant} {more : List Action}
    (init : Kernel.Initialised pg codec db)
    (run : Run (World.Step pg codec) (.initial db clock) actions world)
    (goesOn : Run (World.Step pg codec) world more later) :
    (later.enqueued.map (·.deliveryId)).Nodup ∧ ∀ deliveryId, (world.states deliveryId).Final →
        later.states deliveryId = world.states deliveryId := by
  obtain ⟨permits, sound, accounts⟩ := run_accounts init (run.append goesOn)
  refine ⟨?_, fun deliveryId final => run_states_final goesOn final⟩
  rw [accounts.spent]
  exact sound.apart

open Kernel.Sample in
/-- The first resize is delivered, from an empty database on. -/
theorem Sample.run_of_start : Run (World.Step postgres Kernel.Sample.codec)
    (.initial initial 1) (booting ++ delivering) delivered :=
  (run_ready.mono fun _ _ _ step => step.1).append (run_delivered (fun _ _ _ step => step.1)
    fun _ isRow none => step_ordered isRow fun ⟨prior, event, precedes, _⟩ =>
      none prior event precedes)

open Kernel.Sample in
theorem deliveries_at_most_once_resizes :
    Run (World.Step postgres Kernel.Sample.codec)
        (.initial initial 1) (Sample.booting ++ Sample.delivering)
        Sample.delivered ∧
      Sample.delivered.states Sample.first = .delivered 1 ∧
      Run (World.Step postgres Kernel.Sample.codec) Sample.delivered
        (List.replicate 9 (.attempt 1)) Sample.both ∧
      Sample.both.enqueued.map (·.deliveryId) = [Sample.first, Sample.second] ∧
      (Sample.both.enqueued.map (·.deliveryId)).Nodup ∧
      Sample.both.states Sample.first = .delivered 1 := by
  have isDelivered : Sample.delivered.states Sample.first = .delivered 1 := by decide +kernel
  have goesOn : Run (World.Step postgres Kernel.Sample.codec) Sample.delivered _ Sample.both :=
    Sample.run_both (fun _ _ _ step => step.1) fun _ isRow none =>
      step_ordered isRow fun ⟨prior, event, precedes, _⟩ =>
      none prior event precedes
  obtain ⟨apart, stays⟩ := deliveries_at_most_once init Sample.run_of_start goesOn
  exact ⟨Sample.run_of_start, isDelivered, goesOn, rfl, apart,
    (stays Sample.first (by rw [isDelivered]; trivial)).trans isDelivered⟩

/-- **The books of the delivery path balance.**  Over restarts and whatever happens in between,
the rows are in commit order, every row is of one event of the log and every receipted event
has one row, and what a pending row asks for was not handed to a host. -/
theorem deliveries_accounted {clock : Instant} (init : Kernel.Initialised pg codec db)
    (run : Run (World.Step pg codec) (.initial db clock) actions world) :
    (world.db.deliveries.map (·.eventSeq.toNat)).Pairwise (· < ·) ∧
      (∀ row ∈ world.db.deliveries, ∃! event, event ∈ world.db.events ∧ RowOf event row) ∧
      (∀ event ∈ world.db.events, event.receipted →
        ∃! row, row ∈ world.db.deliveries ∧ RowOf event row) ∧
      ∀ deliveryId, world.states deliveryId = .pending →
        deliveryId ∉ world.enqueued.map (·.deliveryId) := by
  obtain ⟨permits, sound, accounts⟩ := run_accounts init run
  have filed := accounts.filed
  refine ⟨List.pairwise_map.mpr (filed.apart.imp fun apart => apart.sequence), ?_, ?_, ?_⟩
  · intro row listed
    obtain ⟨event, logged, isRow⟩ := filed.logged row listed
    refine ⟨event, ⟨logged, isRow⟩, fun other ⟨isOther, itsRow⟩ => ?_⟩
    exact filed.event_eq isOther logged (itsRow.eventId.symm.trans isRow.eventId)
  · intro event logged receipted
    obtain ⟨row, listed, isRow⟩ := filed.registered event logged receipted
    refine ⟨row, ⟨listed, isRow⟩, fun other ⟨isOther, itsRow⟩ => ?_⟩
    exact filed.eq_of_eventId isOther listed (itsRow.eventId.trans isRow.eventId.symm)
  · intro deliveryId pending
    rw [accounts.spent]
    exact sound.notMem (by simp [accounts.free deliveryId pending])

open Kernel.Sample in
theorem deliveries_accounted_delivered :
    Sample.delivered.enqueued.map (·.deliveryId) = [Sample.first] ∧
      Sample.delivered.states Sample.second = .pending ∧
      Sample.second ∉ Sample.delivered.enqueued.map (·.deliveryId) := by
  have pending : Sample.delivered.states Sample.second = .pending := by decide +kernel
  obtain ⟨-, -, -, unspent⟩ := deliveries_accounted init Sample.run_of_start
  exact ⟨rfl, pending, unspent Sample.second pending⟩

end Gridwork.Delivery
