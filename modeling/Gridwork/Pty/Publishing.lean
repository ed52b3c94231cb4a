import Gridwork.Pty.Mirror

/-!
# Publishes are all or nothing

A verb of the hub writes after its last check, so a refused one has written nothing.  The verb that
could still stop halfway is `publish_deltas`: its apply pass writes into the session cell by cell,
and an index outside the grid or the table would be a panic that leaves what was written.
`applyPass` is that loop on the hub, and `publish_all_or_nothing` says that after the check pass it
always comes to its end, however often the batch resizes the screen.
-/

namespace Gridwork.Pty

open Domain Lib Option

namespace PtyHub

/-! ## The apply pass -/

/-- The hub under its lock, and the session of it that a verb has borrowed. -/
structure Locked where
  hub : PtyHub
  session : Session

def Locked.write (locked : Locked) (id : PtySessionId) (session : Session) : Locked :=
  { hub := locked.hub.put id session, session }

/-- One delta of the apply pass: every update is written by itself.  Nothing is a panic. -/
def applyInPlace (id : PtySessionId) (locked : Locked) : PtyDelta → Option Locked
  | .resized rows cols =>
    some (locked.write id { locked.session with
      cells := List.replicate rows.toNat (List.replicate cols.toNat blank), cursor := none })
  | .cellsChanged styles updates =>
    updates.foldlM (fun (locked : Locked) update =>
      (applyUpdate styles locked.session.cells update).map fun cells =>
        locked.write id { locked.session with cells }) locked

def applyPass (id : PtySessionId) (locked : Locked) (deltas : List PtyDelta) : Option Locked :=
  deltas.foldlM (applyInPlace id) locked

/-- The body of `publish_deltas`, statement by statement. -/
def publishDeltasBody (hub : PtyHub) (conn : ConnectionId) (id : PtySessionId) (seq : UInt64)
    (deltas : List PtyDelta) : Option (Except PtyRefusal Unit × PtyHub) :=
  match hub.checkDeltas conn id seq deltas with
  | .error refusal => some (.error refusal, hub)
  | .ok (session, bytes) => do
    let locked ← applyPass id { hub, session } deltas
    let locked := locked.write id { locked.session with seq := some seq }
    let locked := locked.write id (locked.session.publish { seq, deltas } bytes)
    return (.ok (), locked.hub)

variable {conn : ConnectionId} {id : PtySessionId} {hub : PtyHub} {deltas : List PtyDelta}
  {session : Session}

/-- Two hubs that differ at most in the session under an id. -/
def Beside (id : PtySessionId) (hub after : PtyHub) : Prop :=
  ∀ session, after.put id session = hub.put id session

theorem beside_put (hub : PtyHub) (id : PtySessionId) (session : Session) :
    Beside id hub (hub.put id session) := by
  intro later
  rw [put, put, put, AList.insert_insert]

theorem foldlM_in_place {Item Part : Type} (assemble : Part → Session)
    {pass : Locked → Item → Option Locked} {move : Part → Item → Option Part}
    (each : ∀ hub part item next, move part item = some next →
      ∃ after, pass ⟨hub, assemble part⟩ item = some ⟨after, assemble next⟩ ∧ Beside id hub after)
    {items : List Item} {part final : Part} (moved : items.foldlM move part = some final)
    (hub : PtyHub) :
    ∃ after, items.foldlM pass ⟨hub, assemble part⟩ = some ⟨after, assemble final⟩ ∧
      Beside id hub after := by
  induction items generalizing part hub with
  | nil =>
    cases moved
    exact ⟨hub, rfl, fun _ => rfl⟩
  | cons item items ih =>
    obtain ⟨next, first, rest⟩ := bind_eq_some_iff.mp moved
    obtain ⟨mid, passes, beside⟩ := each hub part item next first
    obtain ⟨after, passesOn, besideOn⟩ := ih rest mid
    refine ⟨after, ?_, fun later => (besideOn later).trans (beside later)⟩
    rw [List.foldlM_cons, passes]
    exact passesOn

theorem applyPass_of_applied {cells : Cells} {cursor : Option PtyCursor}
    (applied : deltas.foldlM applyDelta (session.cells, session.cursor) = some (cells, cursor))
    (hub : PtyHub) :
    ∃ after, applyPass id ⟨hub, session⟩ deltas = some ⟨after, { session with cells, cursor }⟩ ∧
      Beside id hub after := by
  refine foldlM_in_place (fun (part : Cells × Option PtyCursor) =>
    { session with cells := part.1, cursor := part.2 }) ?_ applied hub
  rintro hub ⟨cells, cursor⟩ delta next moved
  cases delta with
  | resized rows cols =>
    cases moved
    exact ⟨_, rfl, beside_put hub id _⟩
  | cellsChanged styles updates =>
    obtain ⟨after, updated, rfl⟩ := map_eq_some_iff.mp moved
    refine foldlM_in_place (fun (part : Cells) => { session with cells := part, cursor }) ?_
      updated hub
    intro hub part update next one
    refine ⟨hub.put id { session with cells := next, cursor }, ?_, beside_put hub id _⟩
    simp only [one, map_some, Locked.write]

section

variable (displayed : ∀ session ∈ hub.sessions.lookup id, Displayed session)
include displayed

/-- **The apply pass of a batch that passed its checks stays inside the grid and the table.** -/
theorem applyPass_of_checked {seq : UInt64} {bytes : Nat}
    (passed : hub.checkDeltas conn id seq deltas = .ok (session, bytes)) :
    ∃ cells cursor after,
      deltas.foldlM applyDelta (session.cells, session.cursor) = some (cells, cursor) ∧
      applyPass id ⟨hub, session⟩ deltas = some ⟨after, { session with cells, cursor }⟩ ∧
      Beside id hub after := by
  simp only [checkDeltas, bind_ok, exists_unit, pure_ok] at passed
  obtain ⟨_, -, _, hit, -, -, size, checked, eq⟩ := passed
  cases eq
  obtain ⟨rows, cols, bounded, rect, -⟩ := displayed session (session_ok.mp hit)
  -- the check pass starts from the session's own size, and tracks it through every resize
  rw [size_of_rect bounded rect] at checked
  obtain ⟨cells, applied, -⟩ := exists_applyBatch checked bounded rect
  rw [← foldlM_applyDelta deltas session.cells session.cursor] at applied
  obtain ⟨⟨after, cursor⟩, applied, -⟩ := map_eq_some_iff.mp applied
  exact ⟨after, cursor, (applyPass_of_applied applied hub).imp fun _ passes => ⟨applied, passes⟩⟩

theorem publishDeltasBody_eq (seq : UInt64) (deltas : List PtyDelta) :
    publishDeltasBody hub conn id seq deltas = some (hub.publishDeltas conn id seq deltas) := by
  unfold publishDeltasBody publishDeltas
  cases passed : hub.checkDeltas conn id seq deltas with
  | error refusal => rfl
  | ok checked =>
    obtain ⟨session, bytes⟩ := checked
    obtain ⟨cells, cursor, after, applied, passes, beside⟩ :=
      applyPass_of_checked displayed passed
    simp only [passes, answer, advanced, applied, bind_eq_bind, bind_some, getD_some, Locked.write]
    rw [beside_put, beside]
    rfl

end

/-! ## All or nothing -/

/-- A verb that is refused leaves the hub as it was. -/
def Atomic {Answer : Type} (hub : PtyHub) (verb : Except PtyRefusal Answer × PtyHub) : Prop :=
  ∀ refusal, verb.1 = .error refusal → verb.2 = hub

theorem atomic_answer {Checked Answer : Type} (checked : Except PtyRefusal Checked)
    (commit : Checked → Answer × PtyHub) : Atomic hub (hub.answer checked commit) := by
  intro refusal refused
  cases checked with
  | error => rfl
  | ok => cases refused

theorem atomic_publishRawOutput (seq : UInt64) (bytes : List UInt8) :
    Atomic hub (hub.publishRawOutput conn id seq bytes) := by
  unfold publishRawOutput
  cases rawFits id "raw output" bytes with
  | error => exact fun _ _ => rfl
  | ok => exact atomic_answer _ _

/-- **Publishes and retirements are all or nothing.**  In a reachable hub a refused one leaves the
hub as it was, a batch that passes the check pass is applied to its end, and the body of
`publish_deltas` does not panic and does what the verb says. -/
theorem publish_all_or_nothing (writerEpoch : WriterEpoch) (history : List Action)
    (conn : ConnectionId) (id : PtySessionId) :
    let hub := reached writerEpoch history
    (∀ seq frame, Atomic hub (hub.publishSnapshot conn id seq frame)) ∧
    (∀ seq deltas, Atomic hub (hub.publishDeltas conn id seq deltas)) ∧
    (∀ seq rows cols bytes, Atomic hub (hub.publishRawSnapshot conn id seq rows cols bytes)) ∧
    (∀ seq bytes, Atomic hub (hub.publishRawOutput conn id seq bytes)) ∧
    (∀ seq rows cols, Atomic hub (hub.publishRawResize conn id seq rows cols)) ∧
    Atomic hub (hub.retire conn id) ∧
    ∀ seq deltas,
      publishDeltasBody hub conn id seq deltas = some (hub.publishDeltas conn id seq deltas) ∧
      ∀ session bytes, hub.checkDeltas conn id seq deltas = .ok (session, bytes) →
        ∃ locked, applyPass id ⟨hub, session⟩ deltas = some locked := by
  have displayed := displayed_reached writerEpoch history id
  refine ⟨fun _ _ => atomic_answer _ _, fun _ _ => atomic_answer _ _,
    fun _ _ _ _ => atomic_answer _ _, atomic_publishRawOutput, fun _ _ _ => atomic_answer _ _,
    atomic_answer _ _, fun seq deltas => ⟨publishDeltasBody_eq displayed seq deltas, ?_⟩⟩
  intro session bytes passed
  obtain ⟨cells, cursor, after, -, passes, -⟩ := applyPass_of_checked displayed passed
  exact ⟨_, passes⟩

end PtyHub

end Gridwork.Pty
