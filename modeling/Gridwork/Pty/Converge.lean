import Gridwork.Pty.Revision

/-!
# An attached consumer converges to the hub

A consumer takes a snapshot, attaches with its generation and revision, and applies the
replay and then every live batch to its copy.  The replay is copied out under the hub's lock,
and the live stream is a subscription taken under the same lock and read without it, while
others go on publishing.  `Stream` is the task that delivers it: the replay first, then
the broadcast, until the consumer stops reading, falls behind the channel's capacity, or the
session ends.
-/

namespace Gridwork.Pty.PtyHub

open Domain Lib List Option Stream

/-! ## What a turn broadcasts -/

/-- A turn broadcasts nothing and keeps the revision, or one batch at the new revision. -/
inductive Broadcasts (session next : Session) : Prop where
  | silent (live : next.live = session.live) (seq : next.seq = session.seq)
  | sent (batch : PtyBatch) (live : next.live = session.live ++ [batch])
      (seq : next.seq = some batch.seq) (above : ∀ head ∈ session.seq, head < batch.seq)

variable {session next start left right : Session} {revision seq : UInt64} {action : Action}
  {tail batches rest more channel : List PtyBatch} {batch : PtyBatch} {hub final : PtyHub}
  {actions history read first second : List Action} {writerEpoch : WriterEpoch} {id : PtySessionId}

theorem live_reseeded {seq : Option UInt64} (isRevision : seq = some revision)
    (moves : advances session.seq seq) (rows cols : UInt16) (cells : Cells)
    (cursor : Option PtyCursor) (bytes : Nat) :
    (reseeded session seq rows cols cells cursor bytes).live =
      session.live ++ [{ seq := revision, deltas := [.resized rows cols] }] := by
  subst isRevision
  simp [reseeded, moves, Session.publish, Session.retain]

theorem live_reseeded_still {seq : Option UInt64} (still : advances session.seq seq = false)
    (rows cols : UInt16) (cells : Cells) (cursor : Option PtyCursor) (bytes : Nat) :
    (reseeded session seq rows cols cells cursor bytes).live = session.live := by
  cases seq with
  | none => rfl
  | some revision => simp [reseeded, still]

theorem Turn.broadcasts (turn : Turn id session action (some next)) : Broadcasts session next := by
  cases turn with
  | eq => exact .silent rfl rfl
  | @reseed seq frame rows cols cells bytes decoded fits forward sameSize =>
    cases moves : advances session.seq seq with
    | false =>
      refine .silent (live_reseeded_still moves ..) ?_
      rw [seq_reseeded]
      exact seq_of_not_advances forward moves
    | true =>
      cases seq with
      | none => cases session.seq <;> simp [advances] at moves
      | some revision =>
        refine .sent _ (live_reseeded rfl moves ..) (seq_reseeded ..) ?_
        intro head isHead
        rw [Option.mem_def.mp isHead] at moves
        simpa [advances] using moves
  | deltas fits forward checked => exact .sent _ rfl rfl forward
  | raw => exact .silent rfl rfl

/-! ## What is broadcast along a lifetime -/

/-- Everything broadcast since a session's earlier state: all of it is above the revision of
then, and its last is the revision of now. -/
structure Sent (start session : Session) (tail : List PtyBatch) : Prop where
  live : session.live = start.live ++ tail
  above : ∀ batch ∈ tail, ∀ head ∈ start.seq, head < batch.seq
  head : session.seq = (tail.getLast?.map PtyBatch.seq).or start.seq

theorem Sent.refl (session : Session) : Sent session session [] :=
  ⟨by simp, by simp, by simp⟩

section

variable (sent : Sent start session tail)
include sent

theorem Sent.le_head {seq : UInt64}
    (isSeq : start.seq = some seq) : ∃ head ∈ session.seq, seq ≤ head := by
  cases last : tail.getLast? with
  | none => exact ⟨seq, by simp [sent.head, last, isSeq], le_refl seq⟩
  | some batch =>
    refine ⟨batch.seq, by simp [sent.head, last], le_of_lt ?_⟩
    exact sent.above batch (mem_of_getLast? last) seq isSeq

theorem Sent.push (live : next.live = session.live ++ [batch]) (seq : next.seq = some batch.seq)
    (above : ∀ head ∈ session.seq, head < batch.seq) :
    Sent start next (tail ++ [batch]) where
  live := by rw [live, sent.live, append_assoc]
  above := by
    intro other mem head isHead
    rcases mem_snoc.mp mem with prior | rfl
    · exact sent.above other prior head isHead
    · obtain ⟨number, isNumber, atMost⟩ := sent.le_head isHead
      exact lt_of_le_of_lt atMost (above number isNumber)
  head := by simp [seq]

theorem Sent.turn
    (turn : Turn id session action (some next)) : ∃ more, Sent start next (tail ++ more) := by
  cases turn.broadcasts with
  | silent live seq =>
    exact ⟨[], by rw [live, sent.live, append_nil], by simpa using sent.above,
      by rw [seq, sent.head, append_nil]⟩
  | sent batch live seq above => exact ⟨[batch], sent.push live seq above⟩

end

theorem exists_sent (numbered : hub.Numbered) (hit : hub.sessions.lookup id = some start)
    (foundLast : (actions.foldl perform hub).sessions.lookup id = some session)
    (eq : session.generation = start.generation) : ∃ tail, Sent start session tail := by
  refine lifetime_prefix_induction (fun _ _ session => ∃ tail, Sent start session tail)
    (fun _ _ _ stepped => stepped) (Run.of_foldl perform actions hub) numbered hit foundLast eq
    ⟨[], .refl start⟩ ?_
  rintro read action rest before after session next - - - - turn ⟨tail, sent⟩
  obtain ⟨more, sent⟩ := sent.turn turn
  exact ⟨tail ++ more, sent⟩

theorem replay_eq_of_sent {seq : UInt64} (sent : Sent start session tail)
    (isSeq : start.seq = some seq) (windowed : Windowed start) :
    itemsAbove PtyBatch.seq (some seq) session.live = tail := by
  rw [sent.live, itemsAbove_append]
  have old : itemsAbove PtyBatch.seq (some seq) start.live = [] := by
    refine filter_eq_nil_iff.mpr fun batch mem => ?_
    obtain ⟨number, isNumber, atMost⟩ := windowed.key_le_head mem
    have eq : seq = number := by simpa [isSeq] using isNumber
    simpa [eq] using atMost
  rw [old, nil_append]
  refine itemsAbove_eq_self fun batch mem number isNumber => ?_
  exact sent.above batch mem number (isSeq ▸ isNumber)

/-! ## Following a lifetime batch by batch -/

/-- The head moves by delta batches only: the owner's snapshot publishes do not advance it. -/
def Quiet (id : PtySessionId) (hub : PtyHub) : Action → Prop
  | .publishSnapshot conn target seq _ =>
    target = id → ∀ session ∈ hub.sessions.lookup id, session.owner = conn →
      advances session.seq seq = false
  | _ => True

/-- One verb of a faithful history in which the head of a session moves by delta batches. -/
def QuietStep (id : PtySessionId) (before : PtyHub) (action : Action) (after : PtyHub) : Prop :=
  Faithful before action ∧ Quiet id before action ∧ before.perform action = after

/-- A state of a session that its batches lead to from an earlier one. -/
structure Along (start session : Session) (tail : List PtyBatch) : Prop where
  sent : Sent start session tail
  follows : follow PtyBatch.deltas start.cells tail = some session.cells
  shaped : Shaped session.cells

theorem Along.turn {seq : UInt64} (along : Along start session tail) (isSeq : start.seq = some seq)
    (turn : Turn id session action (some next)) (faithful : Faithful hub action)
    (quiet : Quiet id hub action) (hit : hub.sessions.lookup id = some session) :
    Along start next tail ∨ ∃ batch, Along start next (tail ++ [batch]) := by
  have unchanged : next.live = session.live → next.seq = session.seq →
      next.cells = session.cells → Along start next tail := by
    intro live sameSeq cells
    exact ⟨⟨live.trans along.sent.live, along.sent.above, sameSeq.trans along.sent.head⟩,
      by rw [cells]; exact along.follows, by rw [cells]; exact along.shaped⟩
  cases turn with
  | eq => exact .inl along
  | @reseed revision frame rows cols cells bytes decoded fits forward sameSize =>
    have still := quiet rfl session hit rfl
    have atHead := seq_of_not_advances forward still
    obtain ⟨head, isHead, -⟩ := along.sent.le_head isSeq
    refine .inl (unchanged (live_reseeded_still still ..) ((seq_reseeded ..).trans atHead) ?_)
    rw [cells_reseeded]
    refine faithful session hit rfl ?_ atHead _ _ _ _ decoded fits
      (sameSize.resolve_left (by simp [still]))
    rw [atHead, Option.mem_def.mp isHead]
    exact nofun
  | @deltas revision deltas bytes size fits forward checked =>
    obtain ⟨applied, shaped⟩ := cells_advanced along.shaped checked revision bytes
    refine .inr ⟨⟨revision, deltas⟩, along.sent.push rfl rfl forward, ?_, shaped⟩
    rw [follow, foldlM_append, ← follow, along.follows, bind_eq_bind, bind_some]
    simpa using applied
  | raw => exact .inl (unchanged rfl rfl rfl)

/-- **Every state of a lifetime is reached batch by batch.**  Along a quiet run, a session's cells
are what the batches since the start make of the cells then, and the hub has passed through
the screen after each first part of them. -/
theorem quiet_along (run : Run (QuietStep id) hub actions final) (numbered : hub.Numbered)
    {seq : UInt64} (hit : hub.sessions.lookup id = some start) (isSeq : start.seq = some seq)
    (shaped : Shaped start.cells) (foundLast : final.sessions.lookup id = some session)
    (eq : session.generation = start.generation) :
    ∃ tail, Along start session tail ∧ ∀ part, part <+: tail →
      ∃ prior passed, prior <+: actions ∧
        (prior.foldl perform hub).sessions.lookup id = some passed ∧
        passed.generation = start.generation ∧ Along start passed part := by
  have holds := lifetime_prefix_induction (fun read state session =>
      (read.foldl perform hub = state ∧ session.generation = start.generation) ∧
      ∃ tail, Along start session tail ∧ ∀ part, part <+: tail →
        ∃ prior passed, prior <+: read ∧
          (prior.foldl perform hub).sessions.lookup id = some passed ∧
          passed.generation = start.generation ∧ Along start passed part)
    (fun _ _ _ stepped => stepped.2.2) run numbered hit foundLast eq
    ⟨⟨rfl, rfl⟩, [], ⟨.refl start, rfl, shaped⟩, fun part isPart => by
      rw [prefix_nil.mp isPart]
      exact ⟨[], start, prefix_refl [], hit, rfl, .refl start, rfl, shaped⟩⟩ ?_
  · exact holds.2
  · rintro read action rest before after session next - ⟨faithful, quiet, rfl⟩ entry isNext turn
      ⟨⟨isBefore, sameGeneration⟩, tail, along, parts⟩
    have isAfter : (read ++ [action]).foldl perform hub = before.perform action := by
      rw [foldl_append, isBefore]
      rfl
    have nextGeneration := turn.generation_eq.trans sameGeneration
    have longer : ∀ part, part <+: tail → ∃ prior passed, prior <+: read ++ [action] ∧
        (prior.foldl perform hub).sessions.lookup id = some passed ∧
        passed.generation = start.generation ∧ Along start passed part := by
      intro part isPart
      obtain ⟨prior, passed, isEarlier, rest⟩ := parts part isPart
      exact ⟨prior, passed, isEarlier.trans (prefix_append _ _), rest⟩
    refine ⟨⟨isAfter, nextGeneration⟩, ?_⟩
    rcases along.turn isSeq turn faithful quiet entry with eq | ⟨batch, more⟩
    · exact ⟨tail, eq, longer⟩
    · refine ⟨tail ++ [batch], more, fun part isPart => ?_⟩
      rcases prefix_concat_iff.mp isPart with whole | shorter
      · refine ⟨read ++ [action], next, prefix_refl _, ?_, nextGeneration, whole ▸ more⟩
        rw [isAfter]
        exact isNext
      · exact longer part shorter

/-! ## Delivering an attach -/

def BROADCAST_CAPACITY : Nat := 64

inductive Ended where
  | slowConsumer
  /-- The session retired: its broadcast sender was dropped. -/
  | retired
  /-- The connection went away; nobody is left to tell. -/
  | gone

inductive Sending where
  | queued | gone | timedOut

/-- The task that delivers one attach.  `channel` is everything sent on the session's
broadcast, and `position` the number of its batches the subscription is past. -/
structure Stream where
  attached : Attached
  (pending channel : List PtyBatch)
  closed : Bool
  position : Nat
  delivered : List PtyBatch
  ended : Option Ended

namespace Stream

def opened (attached : Attached) (channel : List PtyBatch) : Stream where
  attached := attached
  pending := attached.replay
  channel := channel
  closed := false
  position := attached.live
  delivered := []
  ended := none

def send (stream : Stream) (batch : PtyBatch) : Sending → Stream
  | .queued => { stream with delivered := stream.delivered ++ [batch] }
  | .gone => { stream with ended := some .gone }
  | .timedOut => { stream with ended := some .slowConsumer }

/-- One turn of the delivery loop: the next batch of the replay, then the next of the
broadcast.  A receiver that the channel has overtaken loses batches, and its stream ends. -/
def pump (stream : Stream) (sending : Sending) : Stream :=
  if stream.ended ≠ none then stream
  else
    match stream.pending with
    | batch :: rest => { stream with pending := rest }.send batch sending
    | [] =>
      if stream.position + BROADCAST_CAPACITY < stream.channel.length then
        { stream with ended := some .slowConsumer }
      else
        match stream.channel[stream.position]? with
        | some batch => { stream with position := stream.position + 1 }.send batch sending
        | none => if stream.closed then { stream with ended := some .retired } else stream

/-- The subscription after a verb: what the session has sent, as long as it lives. -/
def observe (id : PtySessionId) (hub : PtyHub) (stream : Stream) : Stream :=
  match hub.sessions.lookup id with
  | some session =>
    if session.generation = stream.attached.generation then
      { stream with channel := session.live }
    else { stream with closed := true }
  | none => { stream with closed := true }

/-- Everything the stream has to deliver: the replay, and what was broadcast since. -/
def whole (stream : Stream) : List PtyBatch :=
  stream.attached.replay ++ stream.channel.drop stream.attached.live

end Stream

/-- A consumer beside the hub: it has taken its snapshot, and has attached or has not yet. -/
structure Consumer where
  hub : PtyHub
  stream : Option Stream

inductive Happening where
  | verb (action : Action)
  | attach
  | pump (sending : Sending)

def verbs (happened : List Happening) : List Action :=
  happened.filterMap fun
    | .verb action => some action
    | _ => none

/-- One happening: a verb of anyone, the consumer's attach with the generation and revision of
its snapshot, or a turn of its stream. -/
def Consumer.step (id : PtySessionId) (generation : PtySessionGeneration) (seq : UInt64)
    (consumer : Consumer) : Happening → Consumer
  | .verb action =>
    let hub := consumer.hub.perform action
    { hub, stream := consumer.stream.map (Stream.observe id hub) }
  | .attach =>
    match consumer.stream, consumer.hub.attach id (some generation) (some seq) with
    | none, .ok attached =>
      { consumer with
        stream := some (Stream.opened attached
          (((consumer.hub.sessions.lookup id).map Session.live).getD [])) }
    | _, _ => consumer
  | .pump sending =>
    { consumer with stream := consumer.stream.map fun stream => stream.pump sending }

/-- The attach answered the snapshot's generation and revision: the consumer goes on from its
copy.  Any other answer is a reseed. -/
def Stream.Honoured (generation : PtySessionGeneration) (seq : UInt64) (stream : Stream) : Prop :=
  stream.attached.generation = generation ∧ stream.attached.cursor = some seq

/-! ## A stream stays on course -/

variable {stream : Stream}

namespace Stream

/-- What was delivered is a first part of the batches, and unless the stream has ended the rest is
still ahead of it: in the replay, or in the broadcast past its position. -/
structure OnCourse (stream : Stream) (batches : List PtyBatch) : Prop where
  delivered : stream.delivered <+: batches
  ahead : stream.ended = none → stream.position ≤ stream.channel.length ∧
    stream.delivered ++ (stream.pending ++ stream.channel.drop stream.position) = batches

theorem OnCourse.finish (onCourse : stream.OnCourse batches)
    (reason : Ended) : { stream with ended := some reason }.OnCourse batches :=
  ⟨onCourse.delivered, nofun⟩

theorem OnCourse.send (stream : Stream)
    (delivered : stream.delivered <+: batches) (inside : stream.position ≤ stream.channel.length)
    (ahead : stream.pending ++ stream.channel.drop stream.position = rest)
    (next : stream.delivered ++ batch :: rest = batches) (sending : Sending) :
    (stream.send batch sending).OnCourse batches := by
  cases sending with
  | queued =>
    refine ⟨⟨rest, ?_⟩, fun _ => ⟨inside, ?_⟩⟩
    · rw [← next]
      simp [Stream.send]
    · rw [← next, ← ahead]
      simp [Stream.send]
  | gone | timedOut => exact ⟨delivered, nofun⟩

theorem OnCourse.pump (onCourse : stream.OnCourse batches)
    (sending : Sending) : (stream.pump sending).OnCourse batches := by
  unfold Stream.pump
  split
  · exact onCourse
  · rename_i running
    obtain ⟨inside, ahead⟩ := onCourse.ahead (not_not.mp running)
    split
    · rename_i batch rest isPending
      rw [isPending] at ahead
      exact OnCourse.send { stream with pending := rest } onCourse.delivered inside rfl ahead
        sending
    · rename_i isPending
      rw [isPending, nil_append] at ahead
      split
      · exact onCourse.finish .slowConsumer
      · split
        · rename_i batch isNext
          obtain ⟨below, rfl⟩ := List.getElem?_eq_some_iff.mp isNext
          rw [drop_eq_getElem_cons below] at ahead
          exact OnCourse.send { stream with position := stream.position + 1 } onCourse.delivered
            below (by rw [isPending, nil_append]) ahead sending
        · split
          · exact onCourse.finish .retired
          · exact onCourse

@[simp] theorem send_attached (stream : Stream) (batch : PtyBatch) (sending : Sending) :
    (stream.send batch sending).attached = stream.attached := by
  cases sending <;> rfl

@[simp] theorem send_channel (stream : Stream) (batch : PtyBatch) (sending : Sending) :
    (stream.send batch sending).channel = stream.channel := by
  cases sending <;> rfl

@[simp] theorem pump_attached (stream : Stream) (sending : Sending) :
    (stream.pump sending).attached = stream.attached := by
  unfold pump
  repeat' split
  all_goals simp

@[simp] theorem pump_channel (stream : Stream) (sending : Sending) :
    (stream.pump sending).channel = stream.channel := by
  unfold pump
  repeat' split
  all_goals simp

theorem OnCourse.observe (onCourse : stream.OnCourse batches)
    (grown : channel = stream.channel ++ more) :
    { stream with channel }.OnCourse (batches ++ more) := by
  refine ⟨onCourse.delivered.trans (prefix_append _ _), fun running => ?_⟩
  obtain ⟨inside, ahead⟩ := onCourse.ahead running
  subst grown
  refine ⟨inside.trans (by simp), ?_⟩
  rw [← ahead]
  simp [drop_append_of_le_length inside]

end Stream

/-! ## A stream tracks the session -/

theorem reached_append (writerEpoch : WriterEpoch) (history actions : List Action) :
    actions.foldl perform (reached writerEpoch history) =
      reached writerEpoch (history ++ actions) := by
  rw [reached, reached, foldl_append]

/-- A stream whose channel is what the session of a snapshot has broadcast, up to its latest state
while it lives. -/
structure Stream.Tracks (hub : PtyHub) (id : PtySessionId) (start : Session) (read : List Action)
    (stream : Stream) (batches : List PtyBatch) : Prop where
  passed : ∃ prior session, prior <+: read ∧
    (prior.foldl perform hub).sessions.lookup id = some session ∧
    session.generation = start.generation ∧ session.live = stream.channel ∧
    Sent start session batches
  whole : stream.whole = batches
  inside : stream.attached.live ≤ stream.channel.length
  onCourse : stream.OnCourse batches
  current : ∀ session, (read.foldl perform hub).sessions.lookup id = some session →
    session.generation = start.generation → session.live = stream.channel

theorem Stream.Tracks.verb
    (tracks : stream.Tracks (reached writerEpoch history) id start read batches)
    (hit : (reached writerEpoch history).sessions.lookup id = some start)
    (sameGeneration : stream.attached.generation = start.generation) (action : Action) :
    ∃ more, (stream.observe id
        ((read ++ [action]).foldl perform (reached writerEpoch history))).Tracks
      (reached writerEpoch history) id start (read ++ [action]) (batches ++ more) := by
  obtain ⟨prior, session, ⟨between, isRead⟩, foundEarlier, generation, live, sent⟩ := tracks.passed
  have ended : (∀ last, ((read ++ [action]).foldl perform
        (reached writerEpoch history)).sessions.lookup id = some last →
        last.generation ≠ start.generation) →
      ({ stream with closed := true } : Stream).Tracks (reached writerEpoch history) id start
        (read ++ [action]) (batches ++ []) := by
    intro other
    rw [append_nil]
    exact ⟨⟨prior, session, ⟨between ++ [action], by rw [← isRead, append_assoc]⟩,
      foundEarlier, generation, live, sent⟩, tracks.whole, tracks.inside,
      ⟨tracks.onCourse.delivered, tracks.onCourse.ahead⟩,
      fun last isLast eq => absurd eq (other last isLast)⟩
  unfold Stream.observe
  cases entry : ((read ++ [action]).foldl perform (reached writerEpoch history)).sessions.lookup
    id with
  | none => exact ⟨[], ended fun last isLast => by rw [entry] at isLast; cases isLast⟩
  | some last =>
    dsimp only
    split
    · rename_i alive
      have alive : last.generation = start.generation := alive.trans sameGeneration
      have path : (between ++ [action]).foldl perform
          (prior.foldl perform (reached writerEpoch history)) =
            (read ++ [action]).foldl perform (reached writerEpoch history) := by
        rw [← isRead, ← foldl_append, append_assoc]
      obtain ⟨more, sentMore⟩ := exists_sent
        (reached_append writerEpoch history prior ▸ numbered_reached writerEpoch _) foundEarlier
        (path ▸ entry) (alive.trans generation.symm)
      obtain ⟨tail, sentAll⟩ :=
        exists_sent (numbered_reached writerEpoch history) hit entry alive
      have grown : last.live = stream.channel ++ more := by rw [sentMore.live, live]
      have isTail : tail = batches ++ more := by
        have eq := sentAll.live.symm.trans sentMore.live
        rw [sent.live, append_assoc] at eq
        exact append_cancel_left eq
      refine ⟨more, ⟨read ++ [action], last, prefix_refl _, entry, alive, rfl,
        isTail ▸ sentAll⟩, ?_, ?_, tracks.onCourse.observe grown, ?_⟩
      · rw [← tracks.whole]
        simp only [Stream.whole, grown, drop_append_of_le_length tracks.inside, append_assoc]
      · rw [grown, length_append]
        exact tracks.inside.trans (Nat.le_add_right _ _)
      · intro other isOther _
        rw [entry] at isOther
        cases isOther
        rfl
    · rename_i dead
      refine ⟨[], ended fun other isOther eq => dead ?_⟩
      rw [entry] at isOther
      cases isOther
      exact eq.trans sameGeneration.symm

theorem Stream.Tracks.pump (tracks : stream.Tracks hub id start read batches) (sending : Sending) :
    (stream.pump sending).Tracks hub id start read batches where
  passed := by
    rw [pump_channel]
    exact tracks.passed
  whole := by
    rw [← tracks.whole, Stream.whole, Stream.pump_attached, Stream.pump_channel, Stream.whole]
  inside := by
    rw [pump_attached, pump_channel]
    exact tracks.inside
  onCourse := tracks.onCourse.pump sending
  current := by
    rw [pump_channel]
    exact tracks.current

theorem tracks_attach {attached : Attached}
    (hit : (reached writerEpoch history).sessions.lookup id = some start)
    (isSeq : start.seq = some seq)
    (entry : (read.foldl perform (reached writerEpoch history)).sessions.lookup id = some session)
    (answered : (read.foldl perform (reached writerEpoch history)).attach id
      (some start.generation) (some seq) = .ok attached)
    (sameGeneration : attached.generation = start.generation)
    (sameCursor : attached.cursor = some seq) :
    ∃ batches, (Stream.opened attached session.live).Tracks (reached writerEpoch history) id start
      read batches := by
  have windowedThen := windowed_reached writerEpoch history id start hit
  have windowedNow : Windowed session := by
    rw [reached_append] at entry
    exact windowed_reached writerEpoch _ id session entry
  have alive : session.generation = start.generation := by
    cases served : serviceable session (some start.generation) (some seq) with
    | some cursor => exact (some.inj (serviceable_some.mp served).1).symm
    | none =>
      rw [attach_of_refused entry served] at answered
      cases answered
      exact sameGeneration
  obtain ⟨batches, sent⟩ := exists_sent (numbered_reached writerEpoch history) hit entry alive
  have served : ∃ cursor, serviceable session (some start.generation) (some seq) = some cursor := by
    cases served : serviceable session (some start.generation) (some seq) with
    | some cursor => exact ⟨cursor, rfl⟩
    | none =>
      -- a refused attach answers the head, and the head is always served
      have answer := answered
      rw [attach_of_refused entry served] at answer
      cases answer
      rw [← alive, serviceable_head windowedNow sameCursor] at served
      cases served
  obtain ⟨cursor, served⟩ := served
  obtain ⟨-, isCursor, -, covered⟩ := serviceable_some.mp served
  cases isCursor
  rw [attach_of_served entry served] at answered
  cases answered
  have replay : itemsAbove PtyBatch.seq (some seq) (session.retained.map Prod.fst) = batches := by
    rw [windowedNow.replay_eq covered]
    exact replay_eq_of_sent sent isSeq windowedThen
  refine ⟨batches, ⟨read, session, prefix_refl _, entry, alive, rfl, sent⟩, ?_, ?_, ?_, ?_⟩
  · simp [Stream.whole, Stream.opened, replay]
  · exact Nat.le_refl _
  · exact ⟨List.nil_prefix, fun _ => ⟨Nat.le_refl _, by simp [Stream.opened, replay]⟩⟩
  · intro other isOther _
    rw [entry] at isOther
    cases isOther
    rfl

/-! ## Convergence -/

theorem verbs_append (first second : List Happening) :
    verbs (first ++ second) = verbs first ++ verbs second :=
  filterMap_append

def ConsumerStep (id : PtySessionId) (generation : PtySessionGeneration) (seq : UInt64)
    (before : Consumer) (happening : Happening) (after : Consumer) : Prop :=
  before.step id generation seq happening = after

theorem tracks_run {seq : UInt64} {happened : List Happening} {consumer : Consumer}
    (hit : (reached writerEpoch history).sessions.lookup id = some start)
    (isSeq : start.seq = some seq)
    (run : Run (ConsumerStep id start.generation seq) ⟨reached writerEpoch history, none⟩ happened
      consumer) :
    (verbs happened).foldl perform (reached writerEpoch history) = consumer.hub ∧
      ∀ stream ∈ consumer.stream, stream.Honoured start.generation seq →
        ∃ batches, stream.Tracks (reached writerEpoch history) id start
          (verbs happened) batches := by
  refine run.prefix_induction (fun read state =>
    (verbs read).foldl perform (reached writerEpoch history) = state.hub ∧
      ∀ stream ∈ state.stream, stream.Honoured start.generation seq →
        ∃ batches, stream.Tracks (reached writerEpoch history) id start (verbs read) batches) ?_ ?_
  · exact ⟨rfl, nofun⟩
  · rintro read happening rest before after - ⟨isHub, tracked⟩ rfl
    rw [verbs_append]
    cases happening with
    | verb action =>
      have isNext : (verbs read ++ [action]).foldl perform (reached writerEpoch history) =
          before.hub.perform action := by
        rw [foldl_append, isHub]
        rfl
      refine ⟨isNext, ?_⟩
      intro stream isStream honoured
      obtain ⟨prior, isEarlier, rfl⟩ := map_eq_some_iff.mp isStream
      have sameAttached : (prior.observe id (before.hub.perform action)).attached =
          prior.attached := by
        unfold Stream.observe
        repeat' split
        all_goals rfl
      rw [Stream.Honoured, sameAttached] at honoured
      obtain ⟨batches, tracks⟩ := tracked prior isEarlier honoured
      obtain ⟨more, tracksOn⟩ := tracks.verb hit honoured.1 action
      rw [isNext] at tracksOn
      exact ⟨batches ++ more, tracksOn⟩
    | attach =>
      have quiet : verbs [Happening.attach] = [] := rfl
      rw [quiet, append_nil]
      unfold Consumer.step
      dsimp only
      split
      · rename_i attached absent answered
        refine ⟨isHub, ?_⟩
        rintro _ ⟨⟩ honoured
        obtain ⟨session, entry, -⟩ := bind_ok.mp answered
        have entry := session_ok.mp entry
        rw [entry]
        rw [← isHub] at entry answered
        exact tracks_attach hit isSeq entry answered honoured.1 honoured.2
      · exact ⟨isHub, tracked⟩
    | pump sending =>
      have quiet : verbs [Happening.pump sending] = [] := rfl
      rw [quiet, append_nil]
      refine ⟨isHub, ?_⟩
      intro stream isStream honoured
      obtain ⟨prior, isEarlier, rfl⟩ := map_eq_some_iff.mp isStream
      rw [Stream.Honoured, Stream.pump_attached] at honoured
      obtain ⟨batches, tracks⟩ := tracked prior isEarlier honoured
      exact ⟨batches, tracks.pump sending⟩

theorem cells_eq_of_revision (run : Run FaithfulStep hub actions final) (numbered : hub.Numbered)
    (isFirst : first <+: actions) (isSecond : second <+: actions)
    (foundLeft : (first.foldl perform hub).sessions.lookup id = some left)
    (foundRight : (second.foldl perform hub).sessions.lookup id = some right)
    (eq : left.generation = right.generation) {seq : UInt64} (isLeft : left.seq = some seq)
    (isRight : right.seq = some seq) : left.cells = right.cells := by
  have ordered : ∀ {first second : List Action} {left right : Session}, first <+: second →
      second <+: actions → (first.foldl perform hub).sessions.lookup id = some left →
      (second.foldl perform hub).sessions.lookup id = some right →
      right.generation = left.generation → left.seq = some seq → right.seq = some seq →
      right.cells = left.cells := by
    rintro first _ left right ⟨between, rfl⟩ ⟨rest, rfl⟩ foundLeft foundRight eq isLeft isRight
    rw [append_assoc] at run
    obtain ⟨mid, prior, onward⟩ := run.exists_of_append
    obtain ⟨last, goesOn, -⟩ := onward.exists_of_append
    have isMiddle := prior.foldl_eq fun _ _ _ => FaithfulStep.performs
    have isLast := goesOn.foldl_eq fun _ _ _ => FaithfulStep.performs
    rw [foldl_append, isMiddle, isLast] at foundRight
    rw [isMiddle] at foundLeft
    have numberedMiddle : mid.Numbered :=
      prior.invariant_induction Numbered numbered fun action _ _ _ numbered step =>
        step.2 ▸ numbered.perform action
    have succeeds : Succeeds left right :=
      lifetime_induction Succeeds Succeeds.refl (fun _ _ _ => Succeeds.trans)
        (fun _ _ _ => FaithfulStep.performs)
        (fun _ _ _ _ _ step entry turn => turn.succeeds step.1 entry) goesOn numberedMiddle
        foundLeft foundRight eq
    exact succeeds.eq seq isLeft isRight
  rcases prefix_or_prefix_of_prefix isFirst isSecond with shorter | longer
  · exact (ordered shorter isSecond foundLeft foundRight eq.symm isLeft isRight).symm
  · exact ordered longer isFirst foundRight foundLeft eq isRight isLeft

theorem perform_jump {screen : PtyFrame}
    {answer : Option PtySessionGeneration} (hit : hub.sessions.lookup id = some session)
    (ahead : ∀ head ∈ session.seq, head < revision)
    (accepted : (hub.publishSnapshot session.owner id (some revision) screen).1 = .ok answer) :
    ∃ rows cols next,
      (hub.perform (.publishSnapshot session.owner id (some revision) screen)).sessions.lookup id =
        some next ∧ next.generation = session.generation ∧
      next.live = session.live ++ [{ seq := revision, deltas := [.resized rows cols] }] := by
  have moves : advances session.seq (some revision) = true := by
    cases atHead : session.seq with
    | none => rfl
    | some head => simpa [advances] using ahead head atHead
  simp only [perform, publishSnapshot] at accepted ⊢
  cases checked : hub.checkSnapshot session.owner id (some revision) screen with
  | error refusal =>
    rw [checked] at accepted
    cases accepted
  | ok value =>
    obtain ⟨⟨rows, cols, cells⟩, -, passed⟩ := bind_ok.mp checked
    obtain ⟨bytes, -, passed⟩ := bind_ok.mp passed
    simp only [hit, bind_ok, pure_ok] at passed
    obtain ⟨-, -, -, -, -, -, rfl⟩ := passed
    exact ⟨rows, cols, _, AList.lookup_insert _, generation_reseeded .., live_reseeded rfl moves ..⟩

/-- **An attached consumer converges to the hub.**  A consumer took a snapshot of a reachable
hub and attached with its generation and revision, while anyone did anything, and the attach
was honoured.  Then at every time:

* what it was given is a first part of its stream, the replay and then what was broadcast
  since, and unless the stream has ended the rest of it is still ahead;
* while the session lives its revision is that of the stream's last batch, and a snapshot publish
  that moves the head adds a resize batch to the stream;
* if every reseed at the head carried the cells the hub held and the head moved by delta
  batches only, the consumer's copy, the snapshot with the given batches applied, is the
  screen the hub had at the revision of the last of them. -/
theorem attached_consumer_converges (writerEpoch : WriterEpoch) (history : List Action)
    (id : PtySessionId) (generation : PtySessionGeneration) (seq : UInt64) (frame : PtyFrame)
    (answered : (reached writerEpoch history).snapshot id = .ok (generation, seq, frame))
    (happened : List Happening) (consumer : Consumer)
    (run : Run (ConsumerStep id generation seq) ⟨reached writerEpoch history, none⟩
      happened consumer)
    (stream : Stream) (isStream : consumer.stream = some stream)
    (honoured : stream.Honoured generation seq) :
    (stream.delivered <+: stream.whole ∧ (stream.ended = none →
        stream.delivered ++ (stream.pending ++ stream.channel.drop stream.position) =
          stream.whole)) ∧
    (∀ session, consumer.hub.sessions.lookup id = some session → session.generation = generation →
      session.seq = some ((stream.whole.getLast?.map PtyBatch.seq).getD seq) ∧
      ∀ revision screen answer, (∀ head ∈ session.seq, head < revision) →
        (consumer.hub.publishSnapshot session.owner id (some revision) screen).1 = .ok answer →
        ∃ rows cols, (stream.observe id (consumer.hub.perform
            (.publishSnapshot session.owner id (some revision) screen))).whole =
          stream.whole ++ [{ seq := revision, deltas := [.resized rows cols] }]) ∧
    (Run (QuietStep id) (reached writerEpoch history) (verbs happened) consumer.hub →
      ∃ start cells, frame.cells = some start ∧
        follow PtyBatch.deltas start stream.delivered = some cells ∧
        (∃ prior session, prior <+: verbs happened ∧
          (prior.foldl perform (reached writerEpoch history)).sessions.lookup id = some session ∧
          session.generation = generation ∧
          session.seq = some ((stream.delivered.getLast?.map PtyBatch.seq).getD seq)) ∧
        ∀ prior session, prior <+: verbs happened →
          (prior.foldl perform (reached writerEpoch history)).sessions.lookup id = some session →
          session.generation = generation →
          session.seq = some ((stream.delivered.getLast?.map PtyBatch.seq).getD seq) →
          session.cells = cells) := by
  obtain ⟨start, hit, rfl, isSeq, rfl⟩ := snapshot_eq_ok answered
  obtain ⟨isHub, tracked⟩ := tracks_run hit isSeq run
  obtain ⟨batches, tracks⟩ := tracked stream isStream honoured
  have numbered := numbered_reached writerEpoch history
  obtain ⟨prior, passed, isEarlier, foundPassed, alive, isChannel, sent⟩ := tracks.passed
  refine ⟨⟨?_, ?_⟩, ?_, ?_⟩
  · rw [tracks.whole]
    exact tracks.onCourse.delivered
  · intro running
    rw [tracks.whole]
    exact (tracks.onCourse.ahead running).2
  · intro session entry sameGeneration
    rw [← isHub] at entry
    have live := tracks.current session entry sameGeneration
    obtain ⟨tail, sentNow⟩ := exists_sent numbered hit entry sameGeneration
    have sameTail : tail = batches := by
      have eq := sentNow.live.symm.trans (live.trans (isChannel.symm.trans sent.live))
      exact append_cancel_left eq
    rw [tracks.whole]
    refine ⟨?_, ?_⟩
    · rw [sentNow.head, sameTail, isSeq]
      cases batches.getLast? with
      | none | some batch => rfl
    · intro revision screen answer ahead accepted
      rw [isHub] at entry
      obtain ⟨rows, cols, next, isNext, nextGeneration, nextLive⟩ :=
        perform_jump entry ahead accepted
      refine ⟨rows, cols, ?_⟩
      have follows : next.generation = stream.attached.generation :=
        nextGeneration.trans (sameGeneration.trans honoured.1.symm)
      rw [← tracks.whole]
      simp only [Stream.observe, isNext, if_pos follows, Stream.whole, nextLive, live,
        drop_append_of_le_length tracks.inside, append_assoc]
  · intro quiet
    have displayed := displayed_reached writerEpoch history id start hit
    obtain ⟨rows, cols, bounded, rect, inside⟩ := displayed
    have decoded := strictFrame_fromCells bounded rect inside
    have quietEarlier : ∃ mid, Run (QuietStep id) (reached writerEpoch history) prior mid ∧
        mid.sessions.lookup id = some passed := by
      obtain ⟨rest, isVerbs⟩ := isEarlier
      rw [← isVerbs] at quiet
      obtain ⟨mid, first, -⟩ := quiet.exists_of_append
      have isMiddle := first.foldl_eq fun _ _ _ step => step.2.2
      exact ⟨mid, first, isMiddle ▸ foundPassed⟩
    obtain ⟨mid, quietEarlier, foundMiddle⟩ := quietEarlier
    obtain ⟨tail, along, parts⟩ := quiet_along quietEarlier numbered hit isSeq
      ⟨rows, cols, bounded, rect⟩ foundMiddle alive
    have sameTail : tail = batches :=
      append_cancel_left (along.sent.live.symm.trans sent.live)
    obtain ⟨reachedBy, state, isReached, foundState, stateGeneration, stateAlong⟩ :=
      parts stream.delivered (sameTail ▸ tracks.onCourse.delivered)
    have stateSeq : state.seq = some ((stream.delivered.getLast?.map PtyBatch.seq).getD seq) := by
      rw [stateAlong.sent.head, isSeq]
      cases stream.delivered.getLast? with
      | none | some batch => rfl
    refine ⟨start.cells, state.cells, (strictFrame_ok.mp decoded).2.2.2.2.2,
      stateAlong.follows, ⟨reachedBy, state, isReached.trans isEarlier, foundState, stateGeneration,
        stateSeq⟩, ?_⟩
    intro other session isOther foundOther otherGeneration otherSeq
    exact cells_eq_of_revision (quiet.mono fun _ _ _ step => ⟨step.1, step.2.2⟩) numbered isOther
      (isReached.trans isEarlier) foundOther foundState (otherGeneration.trans stateGeneration.symm)
      otherSeq stateSeq

def typed (seq : UInt64) (glyph : String) : Action :=
  .publishDeltas 1 "s" seq
    [.cellsChanged [blank.style] [{ row := 0, col := 0, glyph, style := 0 }]]

/-- One letter before the attach, one after it, and two turns of the stream. -/
def typing : List Happening :=
  [.verb (typed 2 "b"), .attach, .verb (typed 4 "c"), .pump .queued, .pump .queued]

theorem attached_consumer_converges_typing : ∃ consumer stream cells,
      Run (ConsumerStep "s" "3:1" 1) ⟨reached 3 [publishCell "a"], none⟩ typing consumer ∧
      consumer.stream = some stream ∧ stream.delivered.map PtyBatch.seq = [2, 4] ∧
      follow PtyBatch.deltas [[{ blank with glyph := "a" }]] stream.delivered = some cells ∧
      ∀ session, consumer.hub.sessions.lookup "s" = some session → session.generation = "3:1" →
        session.seq = some 4 → session.cells = cells := by
  have answered : (reached 3 [publishCell "a"]).snapshot "s" = .ok ("3:1", 1, oneCell "a") := by
    decide
  have run : Run (ConsumerStep "s" "3:1" 1) ⟨reached 3 [publishCell "a"], none⟩ typing _ :=
    .cons rfl (.cons rfl (.cons rfl (.cons rfl (.cons rfl (.nil _)))))
  have quiet : Run (QuietStep "s") (reached 3 [publishCell "a"]) (verbs typing) _ :=
    .cons ⟨trivial, trivial, rfl⟩ (.cons ⟨trivial, trivial, rfl⟩ (.nil _))
  obtain ⟨-, -, converges⟩ := attached_consumer_converges 3 [publishCell "a"] "s" "3:1" 1
    (oneCell "a") answered typing _ run _ rfl ⟨rfl, rfl⟩
  obtain ⟨start, cells, isStart, follows, -, shows⟩ := converges quiet
  cases isStart
  refine ⟨_, _, cells, run, rfl, rfl, follows, ?_⟩
  intro session hit generation atFour
  exact shows (verbs typing) session (prefix_refl _) hit generation atFour

end Gridwork.Pty.PtyHub
