import Gridwork.Lib.Run
import Gridwork.Lib.Window
import Gridwork.Pty.Hub

/-!
# Attaching without a gap

A consumer that reattaches presents the generation and the revision it holds.  The hub either
honours the cursor, and then replays from its retained window, or answers at the live head with no
replay, which the consumer reads as "reseed".
-/

namespace Gridwork.Pty.PtyHub

open Domain Lib PtyBatch Prod

/-! ## Histories -/

inductive Action where
  | publishSnapshot (conn : ConnectionId) (id : PtySessionId) (seq : Option UInt64)
      (frame : PtyFrame)
  | publishDeltas (conn : ConnectionId) (id : PtySessionId) (seq : UInt64)
      (deltas : List PtyDelta)
  | publishRawSnapshot (conn : ConnectionId) (id : PtySessionId) (seq : Option UInt64)
      (rows cols : UInt16) (bytes : List UInt8)
  | publishRawOutput (conn : ConnectionId) (id : PtySessionId) (seq : UInt64)
      (bytes : List UInt8)
  | publishRawResize (conn : ConnectionId) (id : PtySessionId) (seq : UInt64)
      (rows cols : UInt16)
  | retire (conn : ConnectionId) (id : PtySessionId)
  | disconnect (conn : ConnectionId)

def perform (hub : PtyHub) : Action → PtyHub
  | .publishSnapshot conn id seq frame => (hub.publishSnapshot conn id seq frame).2
  | .publishDeltas conn id seq deltas => (hub.publishDeltas conn id seq deltas).2
  | .publishRawSnapshot conn id seq rows cols bytes =>
    (hub.publishRawSnapshot conn id seq rows cols bytes).2
  | .publishRawOutput conn id seq bytes => (hub.publishRawOutput conn id seq bytes).2
  | .publishRawResize conn id seq rows cols => (hub.publishRawResize conn id seq rows cols).2
  | .retire conn id => (hub.retire conn id).2
  | .disconnect conn => (hub.disconnect conn).2

variable (writerEpoch : WriterEpoch) (history : List Action) {id : PtySessionId} {hub : PtyHub}
  {head presented : Option UInt64} {generation : Option PtySessionGeneration}
  {motive invariant : Session → Prop}

/-- The hub a daemon of some writer epoch reaches by a history of verbs. -/
def reached : PtyHub :=
  history.foldl perform (PtyHub.new writerEpoch)

/-! ## What a verb can do to a session -/

/-- One change of a live session by its owner, with the checks it passed. -/
inductive SessionStep (id : PtySessionId) : Session → Session → Prop where
  | reseed {session : Session} {seq : Option UInt64} {frame : PtyFrame} {rows cols : UInt16}
      {cells : List (List StyledCell)} {bytes : Nat}
      (decoded : strictFrame frame = .ok (rows, cols, cells))
      (fits : measured frame.toJson = .ok bytes)
      (forward : notBackwards id session.seq seq = .ok ())
      (sameSize : advances session.seq seq ∨ (rows, cols) = (session.size.2, session.size.1)) :
      SessionStep id session (reseeded session seq rows cols cells frame.cursor bytes)
  | deltas {session : Session} {seq : UInt64} {deltas : List PtyDelta} {bytes : Nat}
      {size : UInt16 × UInt16}
      (fits : measured (.array (deltas.map PtyDelta.toJson)) = .ok bytes)
      (forward : ∀ head ∈ session.seq, head < seq)
      (checked : deltas.foldlM (checkDelta id) session.size = .ok size) :
      SessionStep id session (advanced session seq deltas bytes)
  | rawSeed {session : Session} {rows cols : UInt16} {bytes : List UInt8}
      (unseeded : session.rawSnapshot = none) :
      SessionStep id session (rawSeeded session session.seq rows cols bytes)
  | raw {session : Session} {seq : UInt64} {delivery : PtyRawDelivery}
      (numbered : delivery.seq = some seq) (seeded : session.rawSnapshot ≠ none)
      (next : expectedRaw id session.rawSeq = .ok seq)
      (room : session.rawRetained.length < RAW_RETAINED_EVENTS ∧
        session.rawRetainedBytes + delivery.retainedBytes ≤ RAW_RETAINED_BYTES) :
      SessionStep id session (rawAdvanced session seq delivery)

/-- What one verb makes of a session, with the checks it passed. -/
inductive Turn (id : PtySessionId) (session : Session) : Action → Option Session → Prop where
  | eq {action : Action} : Turn id session action (some session)
  | reseed {seq : Option UInt64} {frame : PtyFrame} {rows cols : UInt16}
      {cells : List (List StyledCell)} {bytes : Nat}
      (decoded : strictFrame frame = .ok (rows, cols, cells))
      (fits : measured frame.toJson = .ok bytes)
      (forward : notBackwards id session.seq seq = .ok ())
      (sameSize : advances session.seq seq ∨ (rows, cols) = (session.size.2, session.size.1)) :
      Turn id session (.publishSnapshot session.owner id seq frame)
        (some (reseeded session seq rows cols cells frame.cursor bytes))
  | deltas {seq : UInt64} {deltas : List PtyDelta} {bytes : Nat} {size : UInt16 × UInt16}
      (fits : measured (.array (deltas.map PtyDelta.toJson)) = .ok bytes)
      (forward : ∀ head ∈ session.seq, head < seq)
      (checked : deltas.foldlM (checkDelta id) session.size = .ok size) :
      Turn id session (.publishDeltas session.owner id seq deltas)
        (some (advanced session seq deltas bytes))
  | raw {action : Action} (rawSnapshot : Option PtyRawDelivery) (rawSeq : Option UInt64)
      (rawRetained : List PtyRawDelivery) (rawRetainedBytes : Nat)
      (rawLive : List PtyRawDelivery) :
      Turn id session action (some { session with
        rawSnapshot, rawSeq, rawRetained, rawRetainedBytes, rawLive })
  | retired : Turn id session (.retire session.owner id) none
  | disconnected : Turn id session (.disconnect session.owner) none

/-- What one verb does to the hub. -/
inductive Effect (hub : PtyHub) : Action → PtyHub → Prop where
  | refused {action : Action} : Effect hub action hub
  | claimed {conn : ConnectionId} {id : PtySessionId} {seq : Option UInt64} {frame : PtyFrame}
      {rows cols : UInt16} {cells : List (List StyledCell)} {generation : PtySessionGeneration}
      {counter : UInt64} (absent : hub.sessions.lookup id = none)
      (decoded : strictFrame frame = .ok (rows, cols, cells))
      (numbered : hub.nextGeneration = .ok (generation, counter)) :
      Effect hub (.publishSnapshot conn id seq frame)
        { hub.put id (opened conn generation seq cells frame.cursor) with generations := counter }
  | moved {action : Action} {id : PtySessionId} {session next : Session}
      (hit : hub.sessions.lookup id = some session) (changed : SessionStep id session next)
      (turn : Turn id session action (some next)) : Effect hub action (hub.put id next)
  | retired {id : PtySessionId} {session : Session}
      (hit : hub.sessions.lookup id = some session) :
      Effect hub (.retire session.owner id) { hub with sessions := hub.sessions.erase id }
  | disconnected {conn : ConnectionId} : Effect hub (.disconnect conn) (hub.disconnect conn).2

inductive Change (id : PtySessionId) : Option Session → Option Session → Prop where
  | eq (entry : Option Session) : Change id entry entry
  | claim {conn : ConnectionId} {generation : PtySessionGeneration} {seq : Option UInt64}
      {frame : PtyFrame} {rows cols : UInt16} {cells : List (List StyledCell)}
      (decoded : strictFrame frame = .ok (rows, cols, cells)) :
      Change id none (some (opened conn generation seq cells frame.cursor))
  | step {before after : Session} (changed : SessionStep id before after) :
      Change id (some before) (some after)
  | ended (session : Session) : Change id (some session) none

theorem lookup_put (hub : PtyHub) (id other : PtySessionId) (session : Session) :
    (hub.put id session).sessions.lookup other =
      if other = id then some session else hub.sessions.lookup other :=
  Table.lookup_insert_eq hub.sessions id other session

variable {session before after : Session}

theorem session_ok : hub.session id = .ok session ↔ hub.sessions.lookup id = some session := by
  unfold PtyHub.session
  cases hub.sessions.lookup id with
  | none | some hit => simp

theorem owned_ok {conn : ConnectionId} : owned session conn id = .ok () ↔ session.owner = conn :=
  require_ok

theorem effect_answer {Checked Answer : Type} {action : Action}
    {checked : Except PtyRefusal Checked} {commit : Checked → Answer × PtyHub}
    (accepted : ∀ value, checked = .ok value → Effect hub action (commit value).2) :
    Effect hub action (hub.answer checked commit).2 := by
  cases checked with
  | error refusal => exact .refused
  | ok value => exact accepted value rfl

theorem effect_publishRaw (conn : ConnectionId) (id : PtySessionId) (delivery : PtyRawDelivery)
    (action : Action) : Effect hub action (hub.publishRaw conn id delivery).2 := by
  refine effect_answer fun value passed => ?_
  simp only [checkRaw, bind_ok, exists_unit, require_ok, session_ok, pure_ok] at passed
  obtain ⟨seq, numbered, session, hit, -, seeded, _, next, rfl, room, rfl⟩ := passed
  have carries : delivery.seq = some seq := by
    unfold rawRevision at numbered
    cases carried : delivery.seq with
    | none => simp [carried] at numbered
    | some other => simpa [carried] using numbered
  exact .moved hit (.raw carries seeded next room) (.raw _ _ _ _ _)

/-- **What one verb can do.** -/
theorem perform_effect (hub : PtyHub) (action : Action) :
    Effect hub action (hub.perform action) := by
  cases action with
  | publishSnapshot conn id seq frame =>
    refine effect_answer fun value passed => ?_
    obtain ⟨⟨rows, cols, cells⟩, decoded, passed⟩ := bind_ok.mp passed
    obtain ⟨bytes, fits, passed⟩ := bind_ok.mp passed
    cases entry : hub.sessions.lookup id with
    | none =>
      simp only [entry, bind_ok, pure_ok] at passed
      obtain ⟨-, -, ⟨generation, counter⟩, numbered, rfl⟩ := passed
      exact .claimed entry decoded numbered
    | some session =>
      simp only [entry, bind_ok, exists_unit, owned_ok, require_ok, pure_ok] at passed
      obtain ⟨rfl, forward, sameSize, rfl⟩ := passed
      exact .moved entry (.reseed decoded fits forward sameSize)
        (.reseed decoded fits forward sameSize)
  | publishDeltas conn id seq deltas =>
    refine effect_answer fun value passed => ?_
    simp only [checkDeltas, bind_ok, exists_unit, owned_ok, session_ok,
      forM_require_ok, pure_ok] at passed
    obtain ⟨bytes, fits, session, hit, rfl, forward, size, checked, rfl⟩ := passed
    exact .moved hit (.deltas fits forward checked) (.deltas fits forward checked)
  | publishRawSnapshot conn id seq rows cols bytes =>
    refine effect_answer fun value passed => ?_
    simp only [checkRawSnapshot, bind_ok, exists_unit, require_ok, session_ok, pure_ok] at passed
    obtain ⟨-, session, hit, -, unseeded, rfl, -, rfl⟩ := passed
    exact .moved hit (.rawSeed unseeded) (.raw _ _ _ _ _)
  | publishRawOutput conn id seq bytes =>
    simp only [perform, publishRawOutput]
    cases rawFits id "raw output" bytes with
    | error refusal => exact .refused
    | ok accepted => exact effect_publishRaw conn id (.output seq bytes) _
  | publishRawResize conn id seq rows cols =>
    exact effect_publishRaw conn id (.resized seq rows cols) _
  | retire conn id =>
    refine effect_answer fun value passed => ?_
    simp only [checkRetire, bind_ok, exists_unit, owned_ok, session_ok] at passed
    obtain ⟨session, hit, rfl, -⟩ := passed
    exact .retired hit
  | disconnect conn => exact .disconnected

/-- Under every id a verb leaves the entry alone, opens a session, takes one checked step of a live
session, or ends it. -/
theorem perform_change (hub : PtyHub) (action : Action) (id : PtySessionId) :
    Change id (hub.sessions.lookup id) ((hub.perform action).sessions.lookup id) := by
  have put {target : PtySessionId} {session : Session}
      (changed : Change target (hub.sessions.lookup target) (some session)) :
      Change id (hub.sessions.lookup id) ((hub.put target session).sessions.lookup id) := by
    rw [lookup_put]
    by_cases isTarget : id = target
    · subst isTarget
      rw [if_pos rfl]
      exact changed
    · rw [if_neg isTarget]
      exact .eq _
  have ended (entry : Option Session) : Change id entry none := by
    cases entry with
    | none => exact .eq none
    | some session => exact .ended session
  have effect := perform_effect hub action
  generalize hub.perform action = after at effect ⊢
  cases effect with
  | refused => exact .eq _
  | claimed absent decoded numbered => exact put (absent ▸ .claim decoded)
  | moved hit changed turn => exact put (hit ▸ .step changed)
  | @retired target session hit =>
    by_cases isTarget : id = target
    · subst isTarget
      rw [AList.lookup_erase]
      exact ended _
    · rw [AList.lookup_erase_ne isTarget]
      exact .eq _
  | disconnected =>
    simp only [disconnect, Table.lookup_eraseAll]
    split
    · exact ended _
    · exact .eq _

/-! ## The retained window -/

/-- A session's retained batches are a window on its broadcast channel. -/
def Windowed (session : Session) : Prop :=
  Window PtyBatch.seq session.seq session.evictedThrough session.live
    (session.retained.map Prod.fst)

theorem window_evict {history : List PtyBatch} (retained : List (PtyBatch × Nat)) (bytes : Nat)
    (horizon : Option UInt64)
    (window : Window seq head horizon history (retained.map fst)) :
    Window seq head (Session.evict retained bytes horizon).2.2 history
      ((Session.evict retained bytes horizon).1.map fst) := by
  induction retained generalizing bytes horizon with
  | nil => exact window
  | cons oldest rest ih =>
    unfold Session.evict
    split
    · exact ih _ _ window.dropFirst
    · exact window

/-- Publishing a batch above the head that was moves the head to it.  The source sets
the head before it publishes, so the window is still at `head`. -/
theorem windowed_publish {batch : PtyBatch} {bytes : Nat}
    (window : Window seq head session.evictedThrough session.live
      (session.retained.map fst)) (forward : ∀ number ∈ head, number < batch.seq)
    (atBatch : session.seq = some batch.seq) : Windowed (session.publish batch bytes) := by
  have pushed := window.push batch forward
  have kept : session.retained.map fst ++ [batch] =
      (session.retained ++ [(batch, bytes)]).map fst := by
    simp
  rw [kept, ← atBatch] at pushed
  exact window_evict _ _ _ pushed

section Reseeded

variable (session : Session) (seq : Option UInt64) (rows cols : UInt16)
  (cells : List (List StyledCell)) (cursor : Option PtyCursor) (bytes : Nat)

@[elab_as_elim] theorem reseeded_cases (still : motive { session with cells, cursor, seq })
    (moved : ∀ batch, motive ({ session with cells, cursor, seq }.publish batch bytes)) :
    motive (reseeded session seq rows cols cells cursor bytes) := by
  unfold reseeded
  cases seq with
  | none => exact still
  | some revision =>
    dsimp only
    split
    · exact moved _
    · exact still

@[simp] theorem owner_reseeded :
    (reseeded session seq rows cols cells cursor bytes).owner = session.owner :=
  reseeded_cases _ _ _ _ _ _ _ rfl fun _ => rfl

@[simp] theorem generation_reseeded :
    (reseeded session seq rows cols cells cursor bytes).generation = session.generation :=
  reseeded_cases _ _ _ _ _ _ _ rfl fun _ => rfl

@[simp] theorem seq_reseeded : (reseeded session seq rows cols cells cursor bytes).seq = seq :=
  reseeded_cases _ _ _ _ _ _ _ rfl fun _ => rfl

@[simp] theorem cells_reseeded :
    (reseeded session seq rows cols cells cursor bytes).cells = cells :=
  reseeded_cases _ _ _ _ _ _ _ rfl fun _ => rfl

@[simp] theorem cursor_reseeded :
    (reseeded session seq rows cols cells cursor bytes).cursor = cursor :=
  reseeded_cases _ _ _ _ _ _ _ rfl fun _ => rfl

end Reseeded

theorem seq_of_not_advances {seq : Option UInt64} (forward : notBackwards id head seq = .ok ())
    (still : advances head seq = false) : seq = head := by
  cases head with
  | none =>
    cases seq with
    | none => rfl
    | some revision => simp [advances] at still
  | some head =>
    cases seq with
    | none => simp [notBackwards] at forward
    | some revision =>
      have atLeast : head ≤ revision := require_ok.mp forward
      have atMost : revision ≤ head := by simpa [advances] using still
      rw [le_antisymm atMost atLeast]

theorem windowed_reseeded (windowed : Windowed session) {seq : Option UInt64}
    (forward : notBackwards id session.seq seq = .ok ()) (rows cols : UInt16)
    (cells : List (List StyledCell)) (cursor : Option PtyCursor)
    (bytes : Nat) : Windowed (reseeded session seq rows cols cells cursor bytes) := by
  cases moves : advances session.seq seq with
  | false =>
    -- the head stays where it was, and so does the window
    have eq := seq_of_not_advances forward moves
    have unpublished : reseeded session seq rows cols cells cursor bytes =
        { session with cells, cursor, seq } := by
      unfold reseeded
      cases seq with
      | none => rfl
      | some revision => simp [moves]
    rw [unpublished, eq]
    exact windowed
  | true =>
    cases seq with
    | none => cases session.seq <;> simp [advances] at moves
    | some revision =>
      have published : reseeded session (some revision) rows cols cells cursor bytes =
          { session with cells, cursor, seq := some revision }.publish
            { seq := revision, deltas := [.resized rows cols] } bytes := by
        simp [reseeded, moves]
      rw [published]
      refine windowed_publish windowed ?_ rfl
      intro head isHead
      rw [Option.mem_def.mp isHead] at moves
      simpa [advances] using moves

theorem windowed_step (changed : SessionStep id before after)
    (windowed : Windowed before) : Windowed after := by
  cases changed with
  | reseed decoded fits forward sameSize => exact windowed_reseeded windowed forward _ _ _ _ _
  | deltas fits forward checked => exact windowed_publish windowed forward rfl
  | rawSeed | raw => exact windowed

/-- What new sessions have, and every change of a session keeps, all sessions have. -/
theorem session_induction (initially : ∀ conn generation seq cells cursor,
      invariant (opened conn generation seq cells cursor))
    (preserved : ∀ {id before after}, SessionStep id before after → invariant before →
      invariant after) : ∀ (id : PtySessionId) (session : Session),
      (reached writerEpoch history).sessions.lookup id = some session → invariant session := by
  refine (Run.of_foldl perform history (PtyHub.new writerEpoch)).invariant_induction
    (fun hub => ∀ id session, hub.sessions.lookup id = some session → invariant session) ?_ ?_
  · intro id session hit
    cases hit
  · rintro action - before after holds rfl id session hit
    have changed := perform_change before action id
    rw [hit] at changed
    generalize prior : before.sessions.lookup id = entry at changed
    cases changed with
    | eq => exact holds id session prior
    | claim decoded => exact initially _ _ _ _ _
    | step changed => exact preserved changed (holds id _ prior)

/-- **Every session is windowed.**  In every hub reached by any history of verbs, what a
session retains is a window on what it has broadcast in this lifetime. -/
theorem windowed_reached : ∀ (id : PtySessionId) (session : Session),
      (reached writerEpoch history).sessions.lookup id = some session → Windowed session :=
  session_induction writerEpoch history (fun _ _ seq _ _ => Window.opened seq) windowed_step

/-! ## Attach -/

theorem serviceable_some {cursor : UInt64} :
    serviceable session generation presented = some cursor ↔
      generation = some session.generation ∧ presented = some cursor ∧
        (∃ head ∈ session.seq, cursor ≤ head) ∧
        ∀ evicted ∈ session.evictedThrough, evicted ≤ cursor := by
  cases generation with
  | none => simp [serviceable]
  | some generation =>
    cases presented with
    | none => simp [serviceable]
    | some presented =>
      have produced : (session.seq.all fun head => presented > head) = false ↔
          ∃ head ∈ session.seq, presented ≤ head := by
        cases session.seq with
        | none | some head => simp
      have covered : (session.evictedThrough.any fun evicted => presented < evicted) = false ↔
          ∀ evicted ∈ session.evictedThrough, evicted ≤ presented := by
        cases session.evictedThrough with
        | none | some evicted => simp
      simp only [serviceable, Bool.and_eq_true, Bool.not_eq_true', produced, covered,
        Option.some.injEq]
      constructor
      · intro served
        split at served
        · rename_i current
          split at served
          · rename_i inWindow
            cases served
            exact ⟨current, rfl, inWindow⟩
          · cases served
        · cases served
      · rintro ⟨current, rfl, inWindow⟩
        rw [if_pos current, if_pos inWindow]

theorem serviceable_head (windowed : Windowed session) {head : UInt64}
    (reachedHead : session.seq = some head) :
    serviceable session (some session.generation) (some head) = some head := by
  refine serviceable_some.mpr ⟨rfl, rfl, ⟨head, reachedHead, le_refl head⟩, ?_⟩
  intro evicted isEvicted
  obtain ⟨number, isHead, atMost⟩ := windowed.horizon_le evicted isEvicted
  have eq : head = number := by simpa [reachedHead] using isHead
  exact eq ▸ atMost

theorem attach_of_served {cursor : UInt64} (hit : hub.sessions.lookup id = some session)
    (served : serviceable session generation presented = some cursor) :
    hub.attach id generation presented = .ok {
      generation := session.generation
      rows := session.size.2
      cols := session.size.1
      cursor := some cursor
      replay := itemsAbove seq (some cursor) (session.retained.map fst)
      live := session.live.length } := by
  simp [attach, session_ok.mpr hit, served, itemsAbove, List.filter_map,
    Function.comp_def, bind, Except.bind, pure, Except.pure]

theorem attach_of_refused (hit : hub.sessions.lookup id = some session)
    (refused : serviceable session generation presented = none) :
    hub.attach id generation presented = .ok {
      generation := session.generation
      rows := session.size.2
      cols := session.size.1
      cursor := session.seq
      replay := []
      live := session.live.length } := by
  simp [attach, session_ok.mpr hit, refused, bind, Except.bind, pure, Except.pure]

/-- **Attach replays without a gap.**  In every hub reached by any history of verbs, an
attach to a live session answers.  A cursor it honours is answered back, with exactly the
batches broadcast in this lifetime above it, in order, up to the head, and none only at
the head.  Otherwise the answer is the live head with no replay.  Under the answered
generation, the answered cursor is the presented one exactly when it was honoured. -/
theorem attach_replays_without_gap (id : PtySessionId) (session : Session)
    (generation : Option PtySessionGeneration) (presented : Option UInt64)
    (hit : (reached writerEpoch history).sessions.lookup id = some session) :
    ∃ attached, (reached writerEpoch history).attach id generation presented = .ok attached ∧
      attached.generation = session.generation ∧
      (∀ cursor, serviceable session generation presented = some cursor →
        generation = some session.generation ∧ presented = some cursor ∧
        attached.cursor = some cursor ∧
        attached.replay = session.live.filter (fun batch => cursor < batch.seq) ∧
        session.seq = some ((attached.replay.getLast?.map PtyBatch.seq).getD cursor) ∧
        (attached.replay = [] ↔ session.seq = some cursor)) ∧
      (serviceable session generation presented = none →
        attached.cursor = session.seq ∧ attached.replay = []) ∧
      (∀ cursor, generation = some attached.generation → presented = some cursor →
        (attached.cursor = presented ↔
          serviceable session generation presented = some cursor)) := by
  have windowed := windowed_reached writerEpoch history id session hit
  cases served : serviceable session generation presented with
  | some cursor =>
    obtain ⟨current, isPresented, ⟨head, isHead, produced⟩, covered⟩ :=
      serviceable_some.mp served
    have replayed : itemsAbove PtyBatch.seq (some cursor) session.live =
        session.live.filter fun batch => cursor < batch.seq := by
      simp [itemsAbove]
    have ends := windowed.replay_ends isHead produced covered
    have emptyAtHead := windowed.replay_eq_nil_iff isHead produced covered
    refine ⟨_, attach_of_served hit served, rfl, ?_, ?_, ?_⟩
    · rintro _ ⟨⟩
      rw [windowed.replay_eq covered]
      refine ⟨current, isPresented, rfl, replayed, ?_, ?_⟩
      · rw [ends]
        exact isHead
      · rw [emptyAtHead, Option.mem_def.mp isHead, Option.some.injEq]
        exact eq_comm
    · rintro ⟨⟩
    · rintro other - isOther
      rw [isPresented] at isOther ⊢
      exact ⟨fun _ => isOther, fun _ => rfl⟩
  | none =>
    refine ⟨_, attach_of_refused hit served, rfl, ?_, fun _ => ⟨rfl, rfl⟩, ?_⟩
    · rintro cursor ⟨⟩
    · rintro cursor current rfl
      constructor
      · intro atHead
        -- a cursor at the head would have been honoured
        rw [current, serviceable_head windowed atHead] at served
        cases served
      · rintro ⟨⟩

/-- A screen of one blank cell, published at revision 5 and moved on twice. -/
def sampleHistory : List Action :=
  [.publishSnapshot 1 "s" (some 5)
      { styles := [blank.style], rows := [[.fill 0 " " 1]], cursor := none },
    .publishDeltas 1 "s" 6 [.cellsChanged [] []],
    .publishDeltas 1 "s" 8 [.resized 2 2]]

theorem attach_replays_without_gap_sample :
    ∃ session attached, (reached 3 sampleHistory).sessions.lookup "s" = some session ∧
      (reached 3 sampleHistory).attach "s" (some "3:1") (some 6) = .ok attached ∧
      attached.cursor = some 6 ∧ attached.replay = [{ seq := 8, deltas := [.resized 2 2] }] := by
  obtain ⟨session, hit, served, broadcast⟩ : ∃ session,
      (reached 3 sampleHistory).sessions.lookup "s" = some session ∧
      serviceable session (some "3:1") (some 6) = some 6 ∧
      session.live = [{ seq := 6, deltas := [.cellsChanged [] []] },
        { seq := 8, deltas := [.resized 2 2] }] := ⟨_, rfl, rfl, rfl⟩
  obtain ⟨attached, answered, -, honoured, -, -⟩ :=
    attach_replays_without_gap 3 sampleHistory "s" session (some "3:1") (some 6) hit
  obtain ⟨-, -, cursor, replay, -, -⟩ := honoured 6 served
  refine ⟨session, attached, hit, answered, cursor, ?_⟩
  rw [replay, broadcast]
  decide

end Gridwork.Pty.PtyHub
