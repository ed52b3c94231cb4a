import Gridwork.Kernel.Retry
import Gridwork.Kernel.Sweep

/-!
# The deliveries on file

A receipted control and its delivery row land in one transaction.  `Files` says what an act
can do to the two: it adds events that have no delivery, or one event together with its
delivery.  From it follows `Filed`: keys, event ids and sequence numbers of the deliveries are
those of their events, no two rows share one, and later rows have later sequence numbers.
-/

namespace Gridwork.Kernel

open Domain Lib List KernelCommand Prod

variable {pg : Postgres} {codec : Codec} {after db : Db} {command kept : KernelCommand}
  {call : Call} {row other : PtyDelivery} {commandId : CommandId} {mark seq : Seq}

/-! ## What an act files -/

def Event.receipted (event : Event) : Prop :=
  ∃ command : KernelCommand, event.payload = .command command ∧ command.receiptedPty = true

structure RowOf (event : Event) (row : PtyDelivery) : Prop where
  projectId : row.projectId = event.projectId
  key : event.idempotencyKey = some row.idempotencyKey
  eventId : row.eventId = event.eventId

inductive Files (db : Db) : Db → Prop where
  | none {after : Db} {rows : List Event} (events : after.events = db.events ++ rows)
      (apart : db.events.Pairwise indexesApart → after.events.Pairwise indexesApart)
      (plain : ∀ event ∈ rows, ¬ event.receipted) (deliveries : after.deliveries = db.deliveries)
      (nextSeq : db.writer.nextSeq.toNat ≤ after.writer.nextSeq.toNat) : Files db after
  | one {after : Db} {event : Event} {row : PtyDelivery}
      (events : after.events = db.events ++ [event])
      (apart : db.events.Pairwise indexesApart → after.events.Pairwise indexesApart)
      (deliveries : after.deliveries = db.deliveries ++ [row])
      (free : deliveryIndexesFree db.deliveries row) (isRow : RowOf event row)
      (sequence : row.eventSeq = db.writer.nextSeq)
      (nextSeq : after.writer.nextSeq.toNat = db.writer.nextSeq.toNat + 1) : Files db after

variable {events log others : List Event} {event genesis : Event}

theorem Files.eq (events : after.events = db.events)
    (deliveries : after.deliveries = db.deliveries)
    (nextSeq : after.writer.nextSeq = db.writer.nextSeq) : Files db after :=
  .none (events.trans (append_nil _).symm) (fun apart => events ▸ apart)
    (fun _ mem => by cases mem) deliveries
    (Nat.le_of_eq (congrArg UInt64.toNat nextSeq.symm))

theorem apart_of_free (free : eventIndexesFree log event)
    (apart : log.Pairwise indexesApart) : (log ++ [event]).Pairwise indexesApart := by
  rw [pairwise_append]
  refine ⟨apart, pairwise_singleton _ _, fun other logged last isLast => ?_⟩
  rw [mem_singleton] at isLast
  exact isLast ▸ free other logged

theorem toNat_nextSeq (room : seq.toNat + 1 < 2 ^ 64) : (seq + 1).toNat = seq.toNat + 1 := by
  rw [UInt64.toNat_add]
  exact Nat.mod_eq_of_lt room

theorem Stores.receiptedPty (stores : Stores pg command kept) :
    kept.receiptedPty = command.receiptedPty := by
  cases stores with
  | _ => rfl

theorem Step.files {request : Request} {committed : Committed}
    (step : Step pg codec db call request committed) : Files db committed.db := by
  cases step with
  | replayed | refusedInput | paged | refusedControl => exact .eq rfl rfl rfl
  | @landed _ receipts _ row tables _ _ _ _ _ _ _ lands =>
    obtain ⟨kept, made⟩ := lands.made
    have apart (before : db.events.Pairwise indexesApart) :
        (landing pg codec { db with receipts } call request row tables).events.Pairwise
          indexesApart := by
      rw [landing_events]
      exact apart_of_free made.free before
    cases control : request.command.receiptedPty with
    | true =>
      refine .one landing_events apart ?_ (lands.delivered control)
        ⟨made.projectId.symm, made.key, rfl⟩ made.sequence ?_
      · rw [landing_deliveries, if_pos control]
      · rw [landing_nextSeq]
        exact toNat_nextSeq lands.sequenced
    | false =>
      refine .none landing_events apart ?_ ?_ ?_
      · rintro event mem ⟨command, payload, receipted⟩
        rw [mem_singleton] at mem
        subst mem
        rw [made.payload] at payload
        cases payload
        rw [made.stores.receiptedPty, control] at receipted
        cases receipted
      · rw [landing_deliveries, control]
        simp
      · rw [landing_nextSeq, toNat_nextSeq lands.sequenced]
        exact Nat.le_succ _

theorem submit_files (db : Db) (call : Call) : Files db (submit pg codec db call).2 := by
  rcases submit_cases db call with ⟨refusal, eq⟩ | ⟨request, committed, -, -, step, eq⟩
  · rw [eq]
    exact .eq rfl rfl rfl
  · rw [eq]
    exact step.files

theorem record_files {recording : Recording} {appended : Appended}
    (records : recordContextFact pg codec db recording = .ok appended) : Files db appended.db := by
  obtain ⟨-, route, -, step⟩ := recordContextFact_ok.mp records
  cases step with
  | replayed => exact .eq rfl rfl rfl
  | landed _ lands =>
    obtain ⟨occurred, payload, -, stored, rfl, free⟩ := insertEvent_ok.mp lands.inserted
    refine .none recordLanding_events ?_ ?_ checkpointIfDue_frame.2.2.2.1 ?_
    · intro apart
      rw [recordLanding_events]
      exact apart_of_free free apart
    · rintro event mem ⟨command, isCommand, -⟩
      rw [mem_singleton] at mem
      subst mem
      cases stored
      cases isCommand
    · rw [recordLanding_nextSeq, toNat_nextSeq lands.sequenced]
      exact Nat.le_succ _

/-- **What an act files.** -/
theorem perform_files (db : Db) (act : Act) : Files db (perform pg codec db act) := by
  cases act with
  | submit call => exact submit_files db call
  | record recording =>
    simp only [perform]
    split
    next appended records => exact record_files records
    next => exact .eq rfl rfl rfl

theorem Files.grows (files : Files db after) : Grows db after := by
  cases files with
  | none events _ _ deliveries _ =>
    exact ⟨events ▸ prefix_append _ _, deliveries ▸ prefix_rfl⟩
  | one events _ deliveries _ _ _ _ =>
    exact ⟨events ▸ prefix_append _ _, deliveries ▸ prefix_append _ _⟩

/-! ## What is on file -/

structure RowsApart (earlier later : PtyDelivery) : Prop where
  key : (earlier.projectId, earlier.idempotencyKey) ≠ (later.projectId, later.idempotencyKey)
  eventId : earlier.eventId ≠ later.eventId
  sequence : earlier.eventSeq.toNat < later.eventSeq.toNat

/-- The deliveries are apart, and every receipted event has its own. -/
structure Filed (db : Db) : Prop where
  events : db.events.Pairwise indexesApart
  apart : db.deliveries.Pairwise RowsApart
  below : ∀ row ∈ db.deliveries, row.eventSeq.toNat < db.writer.nextSeq.toNat
  logged : ∀ row ∈ db.deliveries, ∃ event ∈ db.events, RowOf event row
  registered : ∀ event ∈ db.events, event.receipted → ∃ row ∈ db.deliveries, RowOf event row

theorem Filed.of_opened (opened : Opened db genesis) : Filed db where
  events := by
    rw [opened.events]
    exact pairwise_singleton _ _
  apart := by
    rw [opened.deliveries]
    exact List.Pairwise.nil
  below row mem := by
    rw [opened.deliveries] at mem
    cases mem
  logged row mem := by
    rw [opened.deliveries] at mem
    cases mem
  registered event mem := by
    rw [opened.events, mem_singleton] at mem
    subst mem
    rintro ⟨command, isCommand, -⟩
    obtain ⟨revision, isGenesis⟩ := opened.isGenesis.payload
    rw [isGenesis] at isCommand
    cases isCommand

/-- **What is on file stays in order.** -/
theorem Filed.files (filed : Filed db) (files : Files db after) : Filed after := by
  have grows := files.grows
  have kept (event : Event) (mem : event ∈ db.events) (receipted : event.receipted) :
      ∃ row ∈ after.deliveries, RowOf event row := by
    obtain ⟨row, isListed, isRow⟩ := filed.registered event mem receipted
    exact ⟨row, grows.deliveries.subset isListed, isRow⟩
  have hit (row : PtyDelivery) (mem : row ∈ db.deliveries) :
      ∃ event ∈ after.events, RowOf event row := by
    obtain ⟨event, isLogged, isRow⟩ := filed.logged row mem
    exact ⟨event, grows.events.subset isLogged, isRow⟩
  cases files with
  | none events apart plain deliveries nextSeq =>
    refine ⟨apart filed.events, deliveries ▸ filed.apart, ?_, ?_, ?_⟩
    · intro row mem
      exact Nat.lt_of_lt_of_le (filed.below row (deliveries ▸ mem)) nextSeq
    · intro row mem
      exact hit row (deliveries ▸ mem)
    · intro event mem receipted
      rcases mem_append.mp (events ▸ mem) with earlier | added
      · exact kept event earlier receipted
      · exact absurd receipted (plain event added)
  | @one event row events apart deliveries free isRow sequence nextSeq =>
    refine ⟨apart filed.events, ?_, ?_, ?_, ?_⟩
    · rw [deliveries, pairwise_append]
      refine ⟨filed.apart, pairwise_singleton _ _, fun other listed last isLast => ?_⟩
      rw [mem_singleton] at isLast
      subst isLast
      obtain ⟨key, -, eventId⟩ := free other listed
      exact ⟨key, eventId, sequence ▸ filed.below other listed⟩
    · intro other mem
      rw [nextSeq]
      rcases mem_snoc.mp (deliveries ▸ mem) with earlier | last
      · exact Nat.lt_succ_of_lt (filed.below other earlier)
      · rw [last, sequence]
        exact Nat.lt_succ_self _
    · intro other mem
      rcases mem_snoc.mp (deliveries ▸ mem) with earlier | last
      · exact hit other earlier
      · exact ⟨event, by simp [events], last ▸ isRow⟩
    · intro other mem receipted
      rcases mem_snoc.mp (events ▸ mem) with earlier | last
      · exact kept other earlier receipted
      · exact ⟨row, by simp [deliveries], last ▸ isRow⟩

section Filed

variable (filed : Filed db)

include filed

theorem Filed.eq_of_key (mem : row ∈ db.deliveries) (otherMember : other ∈ db.deliveries)
    (projectId : row.projectId = other.projectId)
    (key : row.idempotencyKey = other.idempotencyKey) : row = other := by
  by_contra ne
  have symmetric : Std.Symm fun first second : PtyDelivery =>
      (first.projectId, first.idempotencyKey) ≠ (second.projectId, second.idempotencyKey) :=
    ⟨fun _ _ apart => apart.symm⟩
  exact (filed.apart.imp RowsApart.key).forall mem otherMember ne (Prod.ext projectId key)

theorem Filed.eq_of_eventId (mem : row ∈ db.deliveries) (otherMember : other ∈ db.deliveries)
    (eventId : row.eventId = other.eventId) : row = other := by
  by_contra ne
  have symmetric : Std.Symm fun first second : PtyDelivery => first.eventId ≠ second.eventId :=
    ⟨fun _ _ apart => apart.symm⟩
  exact (filed.apart.imp RowsApart.eventId).forall mem otherMember ne eventId

theorem Filed.event_eq {eq : Event} (mem : event ∈ db.events)
    (otherMember : eq ∈ db.events) (eventId : event.eventId = eq.eventId) : event = eq := by
  by_contra ne
  exact (filed.events.forall mem otherMember ne).2.1 eventId

theorem Filed.lt_or_lt (mem : row ∈ db.deliveries) (otherMember : other ∈ db.deliveries)
    (ne : row ≠ other) :
    row.eventSeq < other.eventSeq ∨ other.eventSeq < row.eventSeq := by
  have symmetric : Std.Symm fun first second : PtyDelivery => first.eventSeq ≠ second.eventSeq :=
    ⟨fun _ _ apart => apart.symm⟩
  have apart : db.deliveries.Pairwise fun first second => first.eventSeq ≠ second.eventSeq :=
    filed.apart.imp fun rows eq => rows.sequence.ne (congrArg UInt64.toNat eq)
  exact lt_or_gt_of_ne (apart.forall mem otherMember ne)

end Filed

/-! ## Controls that are delivered -/

def deliveryFor (db : Db) (projectId : ProjectId) (key : IdempotencyKey) : Option PtyDelivery :=
  db.deliveries.find? fun row => row.projectId = projectId ∧ row.idempotencyKey = key

theorem Filed.deliveryFor_eq (filed : Filed db) (mem : row ∈ db.deliveries) :
    deliveryFor db row.projectId row.idempotencyKey = some row := by
  obtain ⟨hit, isFound⟩ : ∃ hit, deliveryFor db row.projectId row.idempotencyKey = some hit :=
    Option.isSome_iff_exists.mp (find?_isSome.mpr ⟨row, mem, by simp⟩)
  have matched := find?_some isFound
  simp only [decide_eq_true_eq] at matched
  rw [isFound, filed.eq_of_key (mem_of_find?_eq_some isFound) mem matched.1 matched.2]

/-- What the answer to an applied control says about the file. -/
structure Delivers (db : Db) (envelope : CommandEnvelope) (command : KernelCommand)
    (event : Event) (row : PtyDelivery) : Prop where
  logged : event ∈ db.events
  listed : row ∈ db.deliveries
  isRow : RowOf event row
  projectId : row.projectId = envelope.projectId
  key : row.idempotencyKey = envelope.idempotencyKey
  family : event.aggregateType = command.address.1
  target : command.targetId envelope = some event.aggregateId

theorem applied_eq_commandApplied
    (answers : applied call db events = .commandApplied commandId others mark) :
    others = events := by
  unfold applied at answers
  split at answers
  · cases answers
  · cases answers
  · cases answers
    rfl

/-- **An applied control is on file.** -/
theorem submit_delivers (filed : Filed db)
    (applied : submit pg codec db call = (.commandApplied commandId events mark, after))
    (decoded : fromEnvelope call.envelope = .ok command)
    (control : command.receiptedPty = true) :
    ∃ event row, events = [event] ∧ Delivers after call.envelope command event row := by
  rcases submit_cases db call with ⟨refusal, eq⟩ | ⟨request, committed, passes, -, step, eq⟩
  · rw [eq] at applied
    cases applied
  · obtain rfl : request.command = command := Except.ok.inj (passes.decoded.symm.trans decoded)
    obtain ⟨-, target, -, address⟩ := routeOf_ok.mp passes.routed
    rw [eq] at applied
    obtain ⟨reply, rfl⟩ := mk.inj applied
    have filedAfter := filed.files step.files
    -- New or replayed, the event carries the envelope's project and key on the route's aggregate.
    have delivers {event : Event} (logged : event ∈ committed.db.events)
        (receipted : event.receipted) (projectId : event.projectId = call.envelope.projectId)
        (key : event.idempotencyKey = some call.envelope.idempotencyKey)
        (aggregate : event.aggregate = (request.route.aggregateType, request.route.aggregateId)) :
        ∃ row, Delivers committed.db call.envelope request.command event row := by
      obtain ⟨row, listed, isRow⟩ := filedAfter.registered event logged receipted
      have family : event.aggregateType = request.route.aggregateType := congrArg fst aggregate
      have named : event.aggregateId = request.route.aggregateId := congrArg snd aggregate
      exact ⟨row, logged, listed, isRow, isRow.projectId.trans projectId,
        Option.some.inj (isRow.key.symm.trans key), family.trans (congrArg fst address),
        named ▸ target⟩
    cases step with
    | refusedInput | paged | refusedControl => cases reply
    | replayed _ prior _ =>
      obtain ⟨event, stored, rfl, projectId, family, aggregateId, -, payload⟩ :=
        priorForKey_eq_replay_iff.mp prior
      obtain ⟨logged, key, -⟩ := mem_eventsForKey.mp (stored ▸ mem_singleton_self event)
      obtain ⟨row, isDelivered⟩ := delivers logged ⟨_, payload, control⟩ projectId key
        (Prod.ext family aggregateId)
      exact ⟨event, row, applied_eq_commandApplied reply, isDelivered⟩
    | @landed _ _ _ event _ _ _ _ _ _ _ _ lands =>
      obtain ⟨kept, made⟩ := lands.made
      have receipted : event.receipted :=
        ⟨kept, made.payload, made.stores.receiptedPty.trans control⟩
      obtain ⟨row, isDelivered⟩ := delivers (by simp [landing_events]) receipted made.projectId
        made.key made.aggregate
      exact ⟨event, row, applied_eq_commandApplied reply, isDelivered⟩

def ClientRequest.isControl : ClientRequest → Bool
  | .submitCommand _ => false
  | .sendPtyInput _ | .resizePtySession _ | .stopPtySession _ | .startPtySession _ => true

theorem serve_control {request : ClientRequest} (control : request.isControl = true)
    (applied : serve pg codec db request = (.commandApplied commandId events mark, after)) :
    submit pg codec db request.call = (.commandApplied commandId events mark, after) ∧
      ∃ command, fromEnvelope request.call.envelope = .ok command ∧
        command.receiptedPty = true := by
  have ofPty {name : String} {admits : KernelCommand → Bool} {call : Call}
      (isReceipted : ∀ command, admits command = true → command.receiptedPty = true)
      (answered : ptyRequest pg codec name admits db call =
        (.commandApplied commandId events mark, after)) :
      submit pg codec db call = (.commandApplied commandId events mark, after) ∧
        ∃ command, fromEnvelope call.envelope = .ok command ∧ command.receiptedPty = true := by
    unfold ptyRequest at answered
    split at answered
    next command decoded =>
      split at answered
      next admitted => exact ⟨answered, command, decoded, isReceipted command admitted⟩
      next => cases answered
    next => cases answered
  cases request with
  | submitCommand call => cases control
  | sendPtyInput call => exact ofPty (fun _ => receiptedPty_of_isPtyInput) applied
  | resizePtySession call | stopPtySession call | startPtySession call =>
    refine ofPty (fun command admitted => ?_) applied
    split at admitted
    next => rfl
    next => cases admitted

/-- **An applied PTY request is on file.** -/
theorem serve_delivers {request : ClientRequest}
    (filed : Filed db) (control : request.isControl = true)
    (applied : serve pg codec db request = (.commandApplied commandId events mark, after))
    (decoded : fromEnvelope request.call.envelope = .ok command) :
    ∃ event row, events = [event] ∧ Delivers after request.call.envelope command event row := by
  obtain ⟨submitted, other, otherDecoded, receipted⟩ := serve_control control applied
  obtain rfl : other = command := Except.ok.inj (otherDecoded.symm.trans decoded)
  exact submit_delivers filed submitted decoded receipted

theorem serve_files (db : Db) (request : ClientRequest) :
    Files db (serve pg codec db request).2 := by
  rcases serve_cases pg codec db request with eq | ⟨ptyInput, submitted⟩
  · rw [eq]
    exact .eq rfl rfl rfl
  · rw [submitted]
    exact submit_files db _

end Gridwork.Kernel
