import Gridwork.PtyHost.CatchUp

/-!
# Replaying a session's recording

A recording is kept to rebuild the terminal it came from: its events, fed into a fresh grid of the
session's first size, should give the live child's grid.

The events are output and resizes.  Two things change the live grid without an event that
would do the same to another grid.  A restart puts the child on a blank grid, and is recorded as a
resize to the size the session has.  A resize the PTY refuses is taken back by a second resize, and
is not recorded.  `Recorded` says when these two are harmless, in terms of the grid they find;
`recording_replays_iff` that the recording replays throughout a run exactly when every wake of it
is.
-/

namespace Gridwork.PtyHost.SessionTask

open Domain Lib Pty Engine List Option

/-- A terminal whose grids have a size: a new grid has the size asked for, output keeps it, and a
resize to the size a grid has changes nothing. -/
structure SizeLaws {Grid : Type} (terminal : Terminal Grid) (size : Grid → UInt16 × UInt16) :
    Prop where
  new : ∀ cols rows grid, terminal.new cols rows = some grid → size grid = (cols, rows)
  write : ∀ grid bytes, size (terminal.write grid bytes) = size grid
  resize : ∀ grid cols rows resized, terminal.resize grid cols rows = some resized →
    size resized = (cols, rows)
  resize_size : ∀ grid, terminal.resize grid (size grid).1 (size grid).2 = some grid

section Replay

variable {Grid : Type} (terminal : Terminal Grid) (config : SessionConfig)
  {before after : State Grid} {grid : Grid} {now : UInt64} {wake : Wake} {wakes : List Wake}

/-- The recording, replayed on a fresh grid of the session's first size, gives the live grid. -/
def Replays (state : State Grid) : Prop :=
  ∃ fresh, terminal.new config.cols config.rows = some fresh ∧
    replay terminal state.recording.entries fresh = some state.grid

/-- What the wake does to the live grid is in the recording: a child that hangs up leaves a grid
that, resized to the mirror's size, is a blank one, and a resize the PTY refuses is undone by the
resize back. -/
def Recorded (state : State Grid) : Wake → Prop
  | .hungUp _ _ _ _ =>
    terminal.resize state.grid state.screen.size.1 state.screen.size.2 =
      terminal.new state.screen.size.1 state.screen.size.2
  | .resize _ cols rows (.refuses _ held) _ =>
    ∀ resized ∈ terminal.resize state.grid cols rows,
      (held.bind fun (cols, rows) => terminal.resize resized cols rows).getD resized = state.grid
  | _ => True

variable {terminal config}

theorem replays_iff_of_moved {event : Event} (sound : before.recording.Sound)
    (moved : Moved config before grid now event after) (whole : after.recording.Whole)
    (replays : Replays terminal config before) :
    Replays terminal config after ↔ replayEvent terminal before.grid event = some grid := by
  obtain ⟨-, entries⟩ := Recording.entries_of_whole sound moved.recorded whole
  obtain ⟨fresh, isNew, replayed⟩ := replays
  have eq : replay terminal after.recording.entries fresh =
      replayEvent terminal before.grid event := by
    rw [entries, replay_snoc, replayed, bind_some]
  constructor
  · rintro ⟨other, otherNew, result⟩
    obtain rfl : fresh = other := some.inj (isNew.symm.trans otherNew)
    rw [← eq, result, moved.grid]
  · intro event
    exact ⟨fresh, isNew, by rw [eq, event, moved.grid]⟩

theorem replays_iff_of_grid (replays : Replays terminal config before) :
    Replays terminal config { before with grid } ↔ grid = before.grid := by
  obtain ⟨fresh, isNew, replayed⟩ := replays
  constructor
  · rintro ⟨other, otherNew, result⟩
    obtain rfl : fresh = other := some.inj (isNew.symm.trans otherNew)
    exact some.inj (result.symm.trans replayed)
  · rintro rfl
    exact ⟨fresh, isNew, replayed⟩

theorem recorded_of_refused {cols rows : UInt16} {answer : PtyAnswer} {frame : Option Frame}
    {message : String}
    (refused : (resizeSession terminal before.grid cols rows answer).1 = .error message) :
    (resizeSession terminal before.grid cols rows answer).2 = before.grid ↔
      Recorded terminal before (.resize now cols rows answer frame) := by
  unfold resizeSession at refused ⊢
  cases changed : terminal.resize before.grid cols rows with
  | none =>
    cases answer with
    | holds => exact iff_of_true rfl trivial
    | refuses error held => simp [Recorded, changed]
  | some resized =>
    rw [changed] at refused
    cases answer with
    | holds => cases refused
    | refuses error held => simp [Recorded, changed]

section

variable (turn : Turn terminal config before wake after)
include turn

/-- **One wake.**  From a state whose recording replays, the next one's does exactly if the wake
was recorded. -/
theorem Turn.replays_iff (sound : before.recording.Sound) (whole : after.recording.Whole)
    (replays : Replays terminal config before) :
    Replays terminal config after ↔ Recorded terminal before wake := by
  cases turn with
  | input | snapshot | attach => exact iff_of_true replays trivial
  | refused refused => exact (replays_iff_of_grid replays).trans (recorded_of_refused refused)
  | wrote moved =>
    exact (replays_iff_of_moved sound moved whole replays).trans (iff_of_true rfl trivial)
  | resized holds resized moved =>
    subst holds
    exact (replays_iff_of_moved sound moved whole replays).trans (iff_of_true resized trivial)
  | restarted size fresh moved =>
    refine (replays_iff_of_moved sound moved whole replays).trans ?_
    rw [Recorded, size, fresh]
    rfl

theorem Turn.sound (sound : before.recording.Sound) : after.recording.Sound := by
  rcases turn.moves with ⟨grid, rfl⟩ | ⟨grid, now, event, moved⟩
  · exact sound
  · exact sound.record moved.recorded

theorem Turn.whole (sound : before.recording.Sound)
    (whole : after.recording.Whole) : before.recording.Whole := by
  rcases turn.moves with ⟨grid, rfl⟩ | ⟨grid, now, event, moved⟩
  · exact whole
  · exact (Recording.entries_of_whole sound moved.recorded whole).1

end

theorem sound_of_run (consistent : Consistent before)
    (sound : before.recording.Sound) (run : Run (Continues terminal config) before wakes after) :
    after.recording.Sound := by
  refine (run.invariant_induction (fun state => Consistent state ∧ state.recording.Sound)
    ⟨consistent, sound⟩ ?_).2
  rintro wake - mid next ⟨consistent, sound⟩ continues
  have turn := turn_of_continues consistent.rectangular continues
  exact ⟨consistent.turn turn, turn.sound sound⟩

theorem whole_of_run (consistent : Consistent before)
    (sound : before.recording.Sound) (run : Run (Continues terminal config) before wakes after)
    (whole : after.recording.Whole) : before.recording.Whole := by
  induction run with
  | nil => exact whole
  | cons continues later ih =>
    have turn := turn_of_continues consistent.rectangular continues
    exact turn.whole sound (ih (consistent.turn turn) (turn.sound sound) whole)

/-- **When a recording replays.**  In a run whose recording has dropped nothing, the recording
replays to the live grid in every state exactly when every wake was recorded. -/
theorem recording_replays_iff (terminal : Terminal Grid) (config : SessionConfig) {grid : Grid}
    (fresh : terminal.new config.cols config.rows = some grid) (wakes : List Wake)
    {state : State Grid} (whole : state.recording.Whole) :
    (∀ read rest mid, wakes = read ++ rest →
      Run (Continues terminal config) (State.start config grid) read mid →
      Run (Continues terminal config) mid rest state → Replays terminal config mid) ↔
    ∀ read wake rest mid next, wakes = read ++ wake :: rest →
      Run (Continues terminal config) (State.start config grid) read mid →
      Continues terminal config mid wake next →
      Run (Continues terminal config) next rest state → Recorded terminal mid wake := by
  have start : Consistent (State.start config grid) := consistent_start grid
  have empty : (State.start config grid).recording.Sound := Nat.le_refl 0
  constructor
  · intro replays read wake rest mid next split toMiddle continues fromNext
    have consistent := start.run toMiddle
    have sound := sound_of_run start empty toMiddle
    have turn := turn_of_continues consistent.rectangular continues
    have wholeNext := whole_of_run (consistent.turn turn) (turn.sound sound) fromNext whole
    have now := replays read (wake :: rest) mid split toMiddle (.cons continues fromNext)
    have then_ := replays (read ++ [wake]) rest next (by rw [split, append_assoc]; rfl)
      (toMiddle.append (.cons continues (.nil _))) fromNext
    exact (turn.replays_iff sound wholeNext now).mp then_
  · intro recorded read rest mid split toMiddle fromMiddle
    induction read using List.reverseRecOn generalizing rest mid with
    | nil =>
      cases toMiddle
      exact ⟨grid, fresh, rfl⟩
    | append_singleton read wake ih =>
      obtain ⟨prior, toEarlier, last⟩ := toMiddle.exists_of_append
      cases last with
      | cons continues done =>
        cases done
        have consistent := start.run toEarlier
        have sound := sound_of_run start empty toEarlier
        have turn := turn_of_continues consistent.rectangular continues
        have wholeNext :=
          whole_of_run (consistent.turn turn) (turn.sound sound) fromMiddle whole
        have split : wakes = read ++ wake :: rest := by rw [split, append_assoc]; rfl
        have replays := ih (wake :: rest) prior split toEarlier (.cons continues fromMiddle)
        exact (turn.replays_iff sound wholeNext replays).mpr
          (recorded read wake rest prior mid split toEarlier continues fromMiddle)

end Replay

/-- A resize the PTY refuses and undoes, a restart on a blank grid and a chunk. -/
def troubled : List Wake :=
  [.resize 0 2 2 (.refuses "busy" (some (1, 1))) none,
    .hungUp 5 (.ok { success := false }) (.ok ()) true, .chunk 6 120 [] (some (still 1 1))]

theorem recording_replays_iff_troubled : ∃ state,
    Run (Continues paper oneCell) (.start oneCell ((1, 1), [])) troubled state ∧
      state.recording.entries.length = 2 ∧ Replays paper oneCell state := by
  refine ⟨_, .cons rfl (.cons rfl (.cons rfl (.nil _))), rfl, ?_⟩
  refine (recording_replays_iff paper oneCell rfl troubled (by rfl)).mpr ?_ troubled [] _ rfl
    (.cons rfl (.cons rfl (.cons rfl (.nil _)))) (.nil _)
  intro read wake rest mid next split toMiddle _ _
  rcases read with _ | ⟨_, _ | ⟨_, read⟩⟩
  · cases split
    cases toMiddle
    rintro resized ⟨⟩
    rfl
  · cases split
    obtain _ | ⟨⟨⟩, ⟨⟩⟩ := toMiddle
    rfl
  · have last : [Wake.chunk 6 120 [] (some (still 1 1))] = read ++ wake :: rest :=
      (cons.inj (cons.inj split).2).2
    have isChunk : wake ∈ [Wake.chunk 6 120 [] (some (still 1 1))] := by simp [last]
    rw [mem_singleton.mp isChunk]
    trivial

theorem sized_paper : SizeLaws paper Prod.fst where
  new cols rows grid isNew := by
    simp only [paper] at isNew
    split at isNew
    · cases isNew
    · cases isNew
      rfl
  write _ _ := rfl
  resize grid cols rows resized changed := by
    simp only [paper] at changed
    split at changed
    · rename_i eq
      cases changed
      exact Prod.ext eq.1.symm eq.2.symm
    · split at changed
      · cases changed
      · cases changed
        rfl
  resize_size grid := if_pos ⟨rfl, rfl⟩

/-- The child writes one byte, fails and is restarted; nothing was dropped from the recording.
The live grid is blank, and the recording replays to the grid with the old child's byte on it. -/
theorem restart_is_replayed_as_nothing :
    SizeLaws paper Prod.fst ∧ paper.new oneCell.cols oneCell.rows = some ((1, 1), []) ∧
      Run (Continues paper oneCell) (State.start oneCell ((1, 1), []))
        [.chunk 0 120 [] (some (still 1 1)), .hungUp 5 (.ok { success := false }) (.ok ()) true]
        respawned ∧
      respawned.recording.Whole ∧
      paper.new 1 1 = some respawned.grid ∧
      replay paper respawned.recording.entries ((1, 1), []) = some ((1, 1), [120]) ∧
      ¬ Replays paper oneCell respawned := by
  refine ⟨sized_paper, rfl, .cons continues_written (.cons continues_respawned (.nil _)), rfl, rfl,
    rfl, ?_⟩
  rintro ⟨fresh, isNew, replayed⟩
  obtain rfl : ((1, 1), []) = fresh := Option.some.inj isNew
  exact absurd replayed (by decide)

end Gridwork.PtyHost.SessionTask
