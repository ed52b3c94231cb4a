import Gridwork.PtyHost.SessionTask

/-!
# Catching up with a session

A consumer that comes back to the host with the last revision it holds is caught up from the
batches the task still retains, or with the whole screen when something above its revision was
evicted.
-/

namespace Gridwork.PtyHost.SessionTask

open Domain Lib Pty Engine List Option State Recording

variable {Grid : Type} {terminal : Terminal Grid} {config : SessionConfig}
  {before after prior state : State Grid} {grid : Grid} {now seq : UInt64} {event : Event}
  {wake : Wake} {wakes : List Wake}

/-! ## The stream in every state -/

theorem window_evict (cap : Nat) {head horizon : Option UInt64} {history kept : List DeltaBatch}
    (window : Window DeltaBatch.seq head horizon history kept) :
    Window DeltaBatch.seq head (evict cap kept horizon).2 history (evict cap kept horizon).1 := by
  induction kept generalizing horizon with
  | nil => exact window
  | cons dropped rest ih =>
    rw [evict]
    split
    · exact ih window.dropFirst
    · exact window

/-- What holds in every state of a run: the mirror is a grid, the latest revision is the one
before the next number, and the retained batches are a window of the stream, which is numbered
below the next number. -/
structure Consistent (state : State Grid) : Prop where
  rectangular : Rectangular state.screen.cells
  latest : ∀ seq, seq < state.recording.nextSeq ↔ ∃ last ∈ state.lastSeq, seq ≤ last
  window : ∃ head, Window DeltaBatch.seq head state.evictedThrough state.deltasTx state.retained ∧
    ∀ number ∈ head, number < state.recording.nextSeq

theorem consistent_start (grid : Grid) : Consistent (start config grid) where
  rectangular := ⟨config.rows, config.cols, Rect.replicate _ _ blank⟩
  latest := by
    intro seq
    simp [start, new]
  window := ⟨none, .opened none, by simp⟩

theorem nextSeq_of_moved (moved : Moved config before grid now event after) (seq : UInt64) :
    seq < after.recording.nextSeq ↔ seq ≤ before.recording.nextSeq := by
  obtain ⟨-, succ, -⟩ := record_some.mp moved.recorded
  rw [UInt64.lt_iff_toNat_lt, UInt64.le_iff_toNat_le]
  omega

section

variable (consistent : Consistent before)
include consistent

theorem Consistent.moved (moved : Moved config before grid now event after) :
    Consistent after where
  rectangular := moved.rectangular
  latest := by
    intro seq
    rw [nextSeq_of_moved moved, moved.lastSeq]
    simp
  window := by
    obtain ⟨head, window, below⟩ := consistent.window
    rcases moved.stream with ⟨deltas, -, sent, kept⟩ | ⟨-, sent, retained, evicted⟩
    · have pushed := window_evict config.retainedBatches
        (window.push ⟨before.recording.nextSeq, deltas⟩ below)
      obtain ⟨retained, evicted⟩ := Prod.mk.inj kept
      rw [← sent, ← retained, ← evicted] at pushed
      refine ⟨_, pushed, ?_⟩
      rintro _ ⟨⟩
      exact (nextSeq_of_moved moved _).mpr (le_refl _)
    · rw [sent, retained, evicted]
      refine ⟨head, window, fun number isHead => ?_⟩
      exact (nextSeq_of_moved moved number).mpr (le_of_lt (below number isHead))

theorem Consistent.turn (turn : Turn terminal config before wake after) : Consistent after := by
  rcases turn.moves with ⟨grid, rfl⟩ | ⟨grid, now, event, moved⟩
  · exact ⟨consistent.rectangular, consistent.latest, consistent.window⟩
  · exact consistent.moved moved

theorem Consistent.run
    (run : Run (Continues terminal config) before wakes after) : Consistent after := by
  refine run.invariant_induction Consistent consistent ?_
  intro wake _ before after consistent continues
  exact consistent.turn (turn_of_continues consistent.rectangular continues)

end

/-! ## Catching up -/

/-- What was sent since an earlier state is numbered from that state's next number on, and leads
from its mirror to the present one. -/
structure Extends (prior later : State Grid) : Prop where
  counts : prior.recording.nextSeq ≤ later.recording.nextSeq
  sent : ∃ batches, later.deltasTx = prior.deltasTx ++ batches ∧
    follow DeltaBatch.deltas prior.screen.cells batches = some later.screen.cells ∧
    ∀ batch ∈ batches, prior.recording.nextSeq ≤ batch.seq

theorem Extends.refl (state : State Grid) : Extends state state where
  counts := le_refl _
  sent := ⟨[], (append_nil _).symm, rfl, by simp⟩

theorem Extends.turn (extended : Extends prior before)
    (turn : Turn terminal config before wake after) : Extends prior after := by
  obtain ⟨batches, stream, leads, above⟩ := extended.sent
  rcases turn.moves with ⟨grid, rfl⟩ | ⟨grid, now, event, moved⟩
  · exact ⟨extended.counts, batches, stream, leads, above⟩
  · have counted : before.recording.nextSeq < after.recording.nextSeq :=
      (nextSeq_of_moved moved _).mpr (le_refl _)
    refine ⟨extended.counts.trans (le_of_lt counted), ?_⟩
    rcases moved.stream with ⟨deltas, step, sent, -⟩ | ⟨eq, sent, -⟩
    · refine ⟨batches ++ [⟨before.recording.nextSeq, deltas⟩], ?_, ?_, ?_⟩
      · rw [sent, stream, append_assoc]
      · rw [follow, foldlM_append, ← follow, leads, bind_eq_bind, bind_some]
        simp only [foldlM_cons, foldlM_nil, bind_pure]
        exact step
      · intro batch mem
        rcases mem_snoc.mp mem with old | rfl
        · exact above batch old
        · exact extended.counts
    · exact ⟨batches, sent.trans stream, eq ▸ leads, above⟩

theorem extends_of_run (consistent : Consistent before)
    (run : Run (Continues terminal config) before wakes after) : Extends before after := by
  refine (run.invariant_induction (fun state => Consistent state ∧ Extends before state)
    ⟨consistent, .refl before⟩ ?_).2
  rintro wake - mid next ⟨consistent, extended⟩ continues
  have turn := turn_of_continues consistent.rectangular continues
  exact ⟨consistent.turn turn, extended.turn turn⟩

theorem filter_of_extends (consistent : Consistent prior)
    (shown : prior.lastSeq = some seq) {batches : List DeltaBatch}
    (above : ∀ batch ∈ batches, prior.recording.nextSeq ≤ batch.seq) :
    (prior.deltasTx ++ batches).filter (fun batch => batch.seq > seq) = batches := by
  obtain ⟨head, window, below⟩ := consistent.window
  have bound : ∀ number, number < prior.recording.nextSeq → number ≤ seq := by
    intro number small
    obtain ⟨last, isLast, atMost⟩ := (consistent.latest number).mp small
    rw [shown] at isLast
    cases isLast
    exact atMost
  have counted : seq < prior.recording.nextSeq :=
    (consistent.latest seq).mpr ⟨seq, shown, le_refl seq⟩
  have none : prior.deltasTx.filter (fun batch => batch.seq > seq) = [] := by
    refine filter_eq_nil_iff.mpr fun batch mem => ?_
    obtain ⟨number, isHead, atMost⟩ := window.key_le_head mem
    have small := bound batch.seq (lt_of_le_of_lt atMost (below number isHead))
    simpa using small
  have all : batches.filter (fun batch => batch.seq > seq) = batches := by
    refine filter_eq_self.mpr fun batch mem => ?_
    simpa using lt_of_lt_of_le counted (above batch mem)
  rw [filter_append, none, all, nil_append]

/-- The run from `start` over `wakes` to `state` had `seq` as its latest revision in `shown`. -/
def ShownAt (terminal : Terminal Grid) (config : SessionConfig) (start : State Grid)
    (wakes : List Wake) (state : State Grid) (seq : UInt64) (shown : State Grid) : Prop :=
  ∃ read rest, wakes = read ++ rest ∧ Run (Continues terminal config) start read shown ∧
    Run (Continues terminal config) shown rest state ∧ shown.lastSeq = some seq

theorem shown_of_lt (run : Run (Continues terminal config) (start config grid) wakes state)
    (counted : seq < state.recording.nextSeq) :
    ∃ shown, ShownAt terminal config (start config grid) wakes state seq shown := by
  refine (run.prefix_induction (fun read state =>
    Run (Continues terminal config) (start config grid) read state ∧ Consistent state ∧
      (seq < state.recording.nextSeq →
        ∃ shown, ShownAt terminal config (start config grid) read state seq shown))
    ⟨.nil _, consistent_start grid, ?_⟩ ?_).2.2 counted
  · intro small
    exact absurd small (by simp [start, new])
  · rintro read wake rest before after - ⟨sofar, consistent, shown⟩ continues
    have turn := turn_of_continues consistent.rectangular continues
    have one : Run (Continues terminal config) before [wake] after := .cons continues (.nil _)
    refine ⟨sofar.append one, consistent.turn turn, fun small => ?_⟩
    by_cases prior : seq < before.recording.nextSeq
    · obtain ⟨state, first, later, split, toState, fromState, isLast⟩ := shown prior
      exact ⟨state, first, later ++ [wake], by rw [split, append_assoc], toState,
        fromState.append one, isLast⟩
    · -- the number was given out by this very wake
      rcases turn.moves with ⟨grid, rfl⟩ | ⟨grid, now, event, moved⟩
      · exact absurd small prior
      · have isNext : seq = before.recording.nextSeq :=
          le_antisymm ((nextSeq_of_moved moved seq).mp small) (not_lt.mp prior)
        exact ⟨after, read ++ [wake], [], (append_nil _).symm, sofar.append one, .nil _,
          isNext ▸ moved.lastSeq⟩

/-- **Catch-up is exact.**  In every state of every run, an attach at a revision the task has
shown answers either the full screen at the latest revision, or all batches sent above the
revision, in order, and these lead from the screen as it was at the revision to the present one.
An attach at a revision never shown answers the full screen. -/
theorem attach_catches_up (terminal : Terminal Grid) (config : SessionConfig) (grid : Grid)
    {wakes : List Wake}
    (reached : Run (Continues terminal config) (State.start config grid) wakes state)
    (seq : UInt64) :
    (∀ shown, ShownAt terminal config (State.start config grid) wakes state seq shown →
      (state.attach terminal (some seq)).catchUp =
          .snapshotted { seq := state.lastSeq, frame := state.screen.snapshot } ∨
        (state.attach terminal (some seq)).catchUp =
            .replayed (state.deltasTx.filter fun batch => batch.seq > seq) ∧
          follow DeltaBatch.deltas shown.screen.cells (state.deltasTx.filter fun batch =>
            batch.seq > seq) =
            some state.screen.cells) ∧
    ((∀ shown, ¬ ShownAt terminal config (State.start config grid) wakes state seq shown) →
      (state.attach terminal (some seq)).catchUp =
        .snapshotted { seq := state.lastSeq, frame := state.screen.snapshot }) := by
  have consistent : Consistent state := (consistent_start grid).run reached
  simp only [State.attach, catchUp]
  constructor
  · rintro shown ⟨read, rest, -, toShown, fromShown, isLast⟩
    have atShown : Consistent shown := (consistent_start grid).run toShown
    obtain ⟨batches, stream, leads, above⟩ := (extends_of_run atShown fromShown).sent
    split
    · exact .inl rfl
    · split
      · exact .inl rfl
      · rename_i covered
        obtain ⟨head, window, -⟩ := consistent.window
        have nothingLost : state.retained.filter (fun batch => batch.seq > seq) =
            state.deltasTx.filter (fun batch => batch.seq > seq) := by
          have replay := window.replay_eq fun mark isHorizon => by
            rw [Option.mem_def.mp isHorizon] at covered
            simpa using covered
          simpa [itemsAbove] using replay
        refine .inr ⟨by rw [nothingLost], ?_⟩
        rw [stream, filter_of_extends atShown isLast above]
        exact leads
  · intro never
    split
    · rfl
    · rename_i reachedSeq
      -- a number up to the latest revision was shown
      refine absurd ?_ (not_exists.mpr never)
      refine shown_of_lt reached ((consistent.latest seq).mpr ?_)
      cases latest : state.lastSeq with
      | none => simp [latest] at reachedSeq
      | some last => simpa [latest] using reachedSeq

theorem attach_catches_up_respawned : ShownAt paper oneCell (State.start oneCell ((1, 1), []))
        [.chunk 0 120 [] (some (still 1 1)), .hungUp 5 (.ok { success := false }) (.ok ()) true]
        respawned 0 written ∧
      (respawned.attach paper (some 0)).catchUp = .replayed [⟨1, [.resized 1 1]⟩] ∧
      follow DeltaBatch.deltas written.screen.cells [⟨1, [.resized 1 1]⟩] =
        some respawned.screen.cells := by
  have shown : ShownAt paper oneCell (State.start oneCell ((1, 1), []))
      [.chunk 0 120 [] (some (still 1 1)), .hungUp 5 (.ok { success := false }) (.ok ()) true]
      respawned 0 written :=
    ⟨[_], [_], rfl, .cons continues_written (.nil _), .cons continues_respawned (.nil _), rfl⟩
  refine ⟨shown, ?_⟩
  rcases (attach_catches_up paper oneCell ((1, 1), [])
    (.cons continues_written (.cons continues_respawned (.nil _))) 0).1 written shown with
    snapshotted | replayed
  · exact absurd snapshotted (by decide)
  · exact replayed

end Gridwork.PtyHost.SessionTask
