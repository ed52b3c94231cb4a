import Gridwork.Pty.Interning
import Gridwork.Pty.Lifetime

/-!
# One revision names one screen

Consumers name a screen by its session, its generation and its revision.  A snapshot publish
at the revision a session already has is accepted as a reseed: it broadcasts nothing, and is
meant to announce the same screen again.  The hub checks that it keeps the dimensions, and
not that it keeps the cells.
-/

namespace Gridwork.Pty.PtyHub

open Domain Lib

/-! ## Faithful histories -/

/-- A snapshot publish of the owner at the revision the session has carries the cells the session
has, if the hub takes it: the frame decodes, fits the budget and keeps the dimensions. -/
def Faithful (hub : PtyHub) : Action → Prop
  | .publishSnapshot conn id seq frame =>
    ∀ session ∈ hub.sessions.lookup id, session.owner = conn → seq ≠ none → seq = session.seq →
      ∀ rows cols cells bytes, strictFrame frame = .ok (rows, cols, cells) →
        measured frame.toJson = .ok bytes → (rows, cols) = (session.size.2, session.size.1) →
        cells = session.cells
  | _ => True

def FaithfulStep (before : PtyHub) (action : Action) (after : PtyHub) : Prop :=
  Faithful before action ∧ before.perform action = after

theorem FaithfulStep.performs {before after : PtyHub} {action : Action}
    (step : FaithfulStep before action after) : before.perform action = after :=
  step.2

theorem numbered_of_run {writerEpoch : WriterEpoch} {history : List Action} {hub : PtyHub}
    (run : Run FaithfulStep (PtyHub.new writerEpoch) history hub) : hub.Numbered := by
  refine run.invariant_induction Numbered ?_ ?_
  · intro id session hit
    cases hit
  · rintro action - before after numbered ⟨-, rfl⟩
    exact numbered.perform action

/-! ## Revisions along a lifetime -/

/-- A later session of the same lifetime: its revision is not lower, and at an equal revision
its cells are the same. -/
structure Succeeds (prior later : Session) : Prop where
  forward : ∀ seq ∈ prior.seq, ∃ head ∈ later.seq, seq ≤ head
  eq : ∀ seq ∈ prior.seq, later.seq = some seq → later.cells = prior.cells

theorem Succeeds.refl (session : Session) : Succeeds session session :=
  ⟨fun seq isSeq => ⟨seq, isSeq, le_refl seq⟩, fun _ _ _ => rfl⟩

theorem Succeeds.trans {first second third : Session} (prior : Succeeds first second)
    (later : Succeeds second third) : Succeeds first third := by
  constructor
  · intro seq isSeq
    obtain ⟨mid, isMiddle, below⟩ := prior.forward seq isSeq
    obtain ⟨head, isHead, above⟩ := later.forward mid isMiddle
    exact ⟨head, isHead, below.trans above⟩
  · intro seq isSeq atSeq
    obtain ⟨mid, isMiddle, below⟩ := prior.forward seq isSeq
    obtain ⟨head, isHead, above⟩ := later.forward mid isMiddle
    -- the revision in between is squeezed to the same one
    have atHead : head = seq := by
      rw [Option.mem_def, atSeq] at isHead
      exact (Option.some.inj isHead).symm
    have atMiddle : mid = seq := le_antisymm (above.trans atHead.le) below
    have sameMiddle : second.seq = some seq := atMiddle ▸ isMiddle
    exact (later.eq seq sameMiddle atSeq).trans (prior.eq seq isSeq sameMiddle)

variable {id : PtySessionId}

theorem le_of_notBackwards {head seq : Option UInt64}
    (forward : notBackwards id head seq = .ok ()) :
    ∀ number ∈ head, ∃ revision ∈ seq, number ≤ revision := by
  rintro number ⟨⟩
  cases seq with
  | none => cases forward
  | some revision => exact ⟨revision, rfl, require_ok.mp forward⟩

theorem not_advances (seq : Option UInt64) : ¬ advances seq seq = true := by
  cases seq with
  | none => exact Bool.false_ne_true
  | some seq => simp [advances]

theorem Turn.succeeds {hub : PtyHub} {session next : Session} {action : Action}
    (turn : Turn id session action (some next)) (faithful : Faithful hub action)
    (hit : hub.sessions.lookup id = some session) : Succeeds session next := by
  cases turn with
  | eq => exact .refl session
  | reseed decoded fits forward sameSize =>
    refine ⟨?_, ?_⟩
    · rw [seq_reseeded]
      exact le_of_notBackwards forward
    · intro seq isSeq atSeq
      rw [seq_reseeded] at atSeq
      rw [cells_reseeded]
      have atHead := atSeq.trans isSeq.symm
      refine faithful session hit rfl (by simp [atSeq]) atHead _ _ _ _ decoded fits ?_
      exact sameSize.resolve_left (atHead ▸ not_advances _)
  | deltas fits forward checked =>
    refine ⟨fun seq isSeq => ⟨_, rfl, le_of_lt (forward seq isSeq)⟩, ?_⟩
    intro seq isSeq atSeq
    cases atSeq
    exact absurd (forward _ isSeq) (lt_irrefl _)
  | raw => exact ⟨fun seq isSeq => ⟨seq, isSeq, le_refl seq⟩, fun _ _ _ => rfl⟩

/-! ## Snapshot answers -/

theorem snapshot_eq_ok {hub : PtyHub} {generation : PtySessionGeneration} {seq : UInt64}
    {frame : PtyFrame} (answered : hub.snapshot id = .ok (generation, seq, frame)) :
    ∃ session, hub.sessions.lookup id = some session ∧ session.generation = generation ∧
      session.seq = some seq ∧ frame = PtyFrame.fromCells session.cells session.cursor := by
  obtain ⟨session, hit, answered⟩ := bind_ok.mp answered
  cases sequenced : session.seq with
  | none =>
    simp only [sequenced] at answered
    cases answered
  | some head =>
    simp only [sequenced, ok_bind] at answered
    obtain ⟨-, -, answered⟩ := bind_ok.mp answered
    cases answered
    exact ⟨session, session_ok.mp hit, rfl, sequenced, rfl⟩

/-- **One revision names one screen.**  In every history whose reseeds at the head carry the
cells the hub holds, two snapshot answers for one session with one generation and one
revision have the same rows of runs over the same style table, so the same dimensions, cells
and styles. -/
theorem revision_names_screen (writerEpoch : WriterEpoch) (history later : List Action)
    (hub final : PtyHub) (id : PtySessionId) (generation : PtySessionGeneration) (seq : UInt64)
    (frame other : PtyFrame) (run : Run FaithfulStep (PtyHub.new writerEpoch) history hub)
    (goesOn : Run FaithfulStep hub later final)
    (answered : hub.snapshot id = .ok (generation, seq, frame))
    (again : final.snapshot id = .ok (generation, seq, other)) :
    other.rows = frame.rows ∧ other.styles = frame.styles := by
  obtain ⟨session, hit, isGeneration, isSeq, rfl⟩ := snapshot_eq_ok answered
  obtain ⟨last, foundLast, lastGeneration, lastSeq, rfl⟩ := snapshot_eq_ok again
  have succeeds : Succeeds session last :=
    lifetime_induction Succeeds Succeeds.refl (fun _ _ _ => Succeeds.trans)
      (fun _ _ _ => FaithfulStep.performs)
      (fun _ _ _ _ _ step entry turn => turn.succeeds step.1 entry) goesOn (numbered_of_run run)
      hit foundLast (lastGeneration.trans isGeneration.symm)
  rw [succeeds.eq seq isSeq lastSeq]
  exact ⟨rfl, rfl⟩

def oneCell (glyph : String) : PtyFrame :=
  { styles := [blank.style], rows := [[.fill 0 glyph 1]], cursor := none }

def publishCell (glyph : String) : Action :=
  .publishSnapshot 1 "s" (some 1) (oneCell glyph)

/-- **A reseed changes the screen under its revision.** -/
theorem reseed_changes_screen :
    (reached 3 [publishCell "a"]).snapshot "s" = .ok ("3:1", 1, oneCell "a") ∧
      (reached 3 [publishCell "a", publishCell "b"]).snapshot "s" =
        .ok ("3:1", 1, oneCell "b") := by
  decide

theorem revision_names_screen_reseed :
    ∃ hub final frame other, Run FaithfulStep hub [publishCell "a"] final ∧
      hub.snapshot "s" = .ok ("3:1", 1, frame) ∧ final.snapshot "s" = .ok ("3:1", 1, other) ∧
      other.rows = frame.rows ∧ other.styles = frame.styles := by
  have claim : Run FaithfulStep (PtyHub.new 3) [publishCell "a"] (reached 3 [publishCell "a"]) :=
    .cons ⟨nofun, rfl⟩ (.nil _)
  have reseed : Run FaithfulStep (reached 3 [publishCell "a"]) [publishCell "a"]
      (reached 3 [publishCell "a", publishCell "a"]) := by
    refine .cons ⟨?_, rfl⟩ (.nil _)
    rintro session ⟨⟩ - - - rows cols cells bytes decoded - -
    cases (strictFrame_ok.mp decoded).2.2.2.2.2
    rfl
  have first : (reached 3 [publishCell "a"]).snapshot "s" = .ok ("3:1", 1, oneCell "a") := by decide
  have second : (reached 3 [publishCell "a", publishCell "a"]).snapshot "s" =
      .ok ("3:1", 1, oneCell "a") := by
    decide
  exact ⟨_, _, _, _, reseed, first, second, revision_names_screen 3 _ _ _ _ _ _ _ _ _ claim reseed
    first second⟩

/-- **A snapshot can be published again.**  Whatever verbs a hub went through, the screen it
answers with is one that a new hub takes, and then answers with at the same revision. -/
theorem snapshot_republished {epoch next : WriterEpoch} {history : List Action}
    {id : PtySessionId} {generation : PtySessionGeneration} {seq : UInt64} {frame : PtyFrame}
    (answered : (reached epoch history).snapshot id = .ok (generation, seq, frame))
    (conn : ConnectionId) : ∃ claimed fresh,
      (PtyHub.new next).publishSnapshot conn id (some seq) frame = (.ok (some claimed), fresh) ∧
        fresh.snapshot id = .ok (claimed, seq, frame) := by
  obtain ⟨session, hit, -, isSeq, rfl⟩ := snapshot_eq_ok answered
  simp only [snapshot, session_ok.mpr hit, isSeq, ok_bind] at answered
  obtain ⟨⟨⟩, fits, -⟩ := bind_ok.mp answered
  obtain ⟨rows, cols, bounded, rect, inside⟩ := displayed_reached epoch history id session hit
  have measures : measured (PtyFrame.fromCells session.cells session.cursor).toJson = .ok _ :=
    bind_ok.mpr ⟨(), require_ok.mpr (require_ok.mp fits), rfl⟩
  obtain ⟨claimed, checked⟩ : ∃ claimed, (PtyHub.new next).checkSnapshot conn id (some seq)
      (.fromCells session.cells session.cursor) =
        .ok (.claim claimed 1 (opened conn claimed (some seq) session.cells session.cursor)) := by
    simp only [checkSnapshot, strictFrame_fromCells bounded rect inside, measures, ok_bind]
    exact ⟨_, rfl⟩
  refine ⟨claimed, _, by rw [publishSnapshot, checked]; rfl, ?_⟩
  refine bind_ok.mpr ⟨_, session_ok.mpr (AList.lookup_insert _), ?_⟩
  exact bind_ok.mpr ⟨_, rfl, bind_ok.mpr ⟨(), fits, rfl⟩⟩

theorem snapshot_republished_cell : ∃ claimed fresh,
    (PtyHub.new 4).publishSnapshot 2 "s" (some 1) (oneCell "a") = (.ok (some claimed), fresh) ∧
      fresh.snapshot "s" = .ok (claimed, 1, oneCell "a") :=
  snapshot_republished (by decide : (reached 3 [publishCell "a"]).snapshot "s" = .ok ("3:1", _)) 2

end Gridwork.Pty.PtyHub
