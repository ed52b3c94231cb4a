import Gridwork.Pty.Lifetime

/-!
# The raw fallback

A raw attach answers with the events above the cursor it honours, or with the raw snapshot and all
events since.  `attachRaw_contiguous` says that this, and the live channel after it, are the raw
events of the lifetime, each once.
-/

namespace Gridwork.Pty.PtyHub

open Domain Lib List Option

structure RawAttached where
  generation : PtySessionGeneration
  (rows cols : UInt16)
  (cursor delivered : Option UInt64)
  replay : List PtyRawDelivery
  live : Nat

def rawServiceable (session : Session) (snapshot : PtyRawDelivery) :
    (generation : Option PtySessionGeneration) → (cursor : Option UInt64) → Option UInt64
  | some generation, some cursor =>
    if generation = session.generation then
      let atOrAfterSnapshot := snapshot.seq.all fun mark => cursor ≥ mark
      let atOrBeforeHead := session.rawSeq.any fun head => cursor ≤ head
      if atOrAfterSnapshot && atOrBeforeHead then some cursor else none
    else none
  | _, _ => none

/-- Attach to the raw fallback.  As in `attach`, `live` is the subscription's position. -/
def attachRaw (hub : PtyHub) (id : PtySessionId) (generation : Option PtySessionGeneration)
    (cursor : Option UInt64) : Except PtyRefusal RawAttached := do
  let session ← hub.session id
  let snapshot ← match session.rawSnapshot with
    | some snapshot => .ok snapshot
    | none => throw {
        code := .overloaded
        message := s!"pty session {id}: raw fallback has not been seeded" }
  let (cols, rows) := session.size
  let (answered, delivered, replay) :=
    match rawServiceable session snapshot generation cursor with
    | some cursor => (some cursor, some cursor,
        session.rawRetained.filter fun delivery => delivery.seq.any (· > cursor))
    | none => (session.rawSeq, none, snapshot :: session.rawRetained)
  return {
    generation := session.generation
    rows, cols
    cursor := answered
    delivered, replay
    live := session.rawLive.length }

/-- The number of a raw event. -/
def rawNumber (delivery : PtyRawDelivery) : UInt64 :=
  delivery.seq.getD 0

/-- What a client that holds the events up to a cursor has yet to see, or one that holds none. -/
def rawAfter (snapshot : PtyRawDelivery) (events : List PtyRawDelivery) :
    (delivered : Option UInt64) → List PtyRawDelivery
  | some cursor => events.filter fun event => cursor < rawNumber event
  | none => snapshot :: events

variable {id : PtySessionId} {hub : PtyHub} {session before after first last : Session}
  {generation : Option PtySessionGeneration} {later : List Action} {attached : RawAttached}
  {presented head cursor : Option UInt64}

theorem le_of_rawServiceable {snapshot : PtyRawDelivery} {cursor : UInt64}
    (served : rawServiceable session snapshot generation presented = some cursor) :
    ∃ head ∈ session.rawSeq, cursor ≤ head := by
  unfold rawServiceable at served
  split at served
  next =>
    simp only [ite_none_right_eq_some, Bool.and_eq_true] at served
    obtain ⟨-, ⟨-, inside⟩, ⟨⟩⟩ := served
    cases isHead : session.rawSeq with
    | none => simp [isHead] at inside
    | some head => simpa [isHead] using inside
  next => cases served

/-! ## The retained events -/

/-- All raw events since the snapshot are retained, numbered upwards from it. -/
def RawWindowed (session : Session) : Prop :=
  (session.rawSnapshot = none → session.rawLive = []) ∧ session.rawRetained = session.rawLive ∧
    ∀ snapshot ∈ session.rawSnapshot,
      Window rawNumber session.rawSeq snapshot.seq session.rawLive session.rawRetained

theorem lt_of_expectedRaw {seq : UInt64}
    (next : expectedRaw id head = .ok seq) : ∀ number ∈ head, number < seq := by
  rintro number ⟨⟩
  simp only [expectedRaw] at next
  split at next
  next succeeded =>
    cases next
    exact lt_of_checkedSucc succeeded
  next => cases next

theorem rawWindowed_step (changed : SessionStep id before after)
    (windowed : RawWindowed before) : RawWindowed after := by
  obtain ⟨unseeded, all, window⟩ := windowed
  cases changed with
  | reseed =>
    exact reseeded_cases _ _ _ _ _ _ _ ⟨unseeded, all, window⟩ fun _ => ⟨unseeded, all, window⟩
  | deltas => exact ⟨unseeded, all, window⟩
  | rawSeed isUnseeded =>
    have none := unseeded isUnseeded
    refine ⟨nofun, none.symm, ?_⟩
    rintro snapshot ⟨⟩
    simp only [rawSeeded, none]
    exact Window.opened _
  | @raw seq delivery numbered seeded next =>
    refine ⟨fun absent => absurd absent seeded, congrArg (· ++ [delivery]) all, ?_⟩
    intro snapshot isSnapshot
    have number : rawNumber delivery = seq := by rw [rawNumber, numbered, getD_some]
    have pushed := (window snapshot isSnapshot).push delivery
    rw [number] at pushed
    exact pushed (lt_of_expectedRaw next)

variable (writerEpoch : WriterEpoch) (history : List Action)

theorem rawWindowed_reached : ∀ (id : PtySessionId) (session : Session),
      (reached writerEpoch history).sessions.lookup id = some session → RawWindowed session :=
  session_induction writerEpoch history (fun _ _ _ _ _ => ⟨fun _ => rfl, rfl, nofun⟩)
    rawWindowed_step

/-- A raw snapshot stays for the lifetime, and raw events are only added. -/
def RawGrows (first last : Session) : Prop :=
  (∀ snapshot ∈ first.rawSnapshot, snapshot ∈ last.rawSnapshot) ∧ first.rawLive <+: last.rawLive

theorem rawGrows_step (changed : SessionStep id before after) : RawGrows before after := by
  cases changed with
  | reseed =>
    exact reseeded_cases _ _ _ _ _ _ _ ⟨fun _ here => here, prefix_refl _⟩
      fun _ => ⟨fun _ here => here, prefix_refl _⟩
  | deltas => exact ⟨fun _ here => here, prefix_refl _⟩
  | rawSeed unseeded =>
    refine ⟨fun snapshot here => ?_, prefix_refl _⟩
    rw [unseeded] at here
    cases here
  | raw => exact ⟨fun _ here => here, prefix_append _ _⟩

variable {writerEpoch history}

theorem rawGrows_lifetime (hit : (reached writerEpoch history).sessions.lookup id = some first)
    (foundLast : (reached writerEpoch (history ++ later)).sessions.lookup id = some last)
    (eq : last.generation = first.generation) : RawGrows first last := by
  rw [reached, foldl_append] at foundLast
  refine lifetime_prefix_induction (fun _ _ session => RawGrows first session)
    (fun _ _ _ performed => performed) (Run.of_foldl perform later _)
    (numbered_reached writerEpoch history) hit foundLast eq
    ⟨fun _ here => here, prefix_refl _⟩ ?_
  rintro - action - before after session next - rfl entry there - grown
  have changed := perform_change before action id
  rw [entry, there] at changed
  cases changed with
  | eq => exact grown
  | step changed =>
    have more := rawGrows_step changed
    exact ⟨fun snapshot here => more.1 snapshot (grown.1 snapshot here), grown.2.trans more.2⟩

theorem attachRaw_eq_ok (answered : hub.attachRaw id generation cursor = .ok attached) :
    ∃ session snapshot, hub.sessions.lookup id = some session ∧
      session.rawSnapshot = some snapshot ∧ attached.generation = session.generation ∧
      attached.live = session.rawLive.length ∧
      attached.delivered = rawServiceable session snapshot generation cursor ∧
      attached.replay = rawAfter snapshot session.rawRetained attached.delivered := by
  obtain ⟨session, hit, answered⟩ := bind_ok.mp answered
  cases isSnapshot : session.rawSnapshot with
  | none =>
    rw [isSnapshot] at answered
    cases answered
  | some snapshot =>
    refine ⟨session, snapshot, session_ok.mp hit, isSnapshot, ?_⟩
    cases served : rawServiceable session snapshot generation cursor with
    | none =>
      simp only [isSnapshot, served, ok_bind] at answered
      cases answered
      exact ⟨rfl, rfl, rfl, rfl⟩
    | some cursor =>
      simp only [isSnapshot, served, ok_bind] at answered
      cases answered
      refine ⟨rfl, rfl, rfl, filter_congr fun event _ => ?_⟩
      cases isNumber : event.seq with
      | none | some number => simp [rawNumber, isNumber]

/-- **A raw attach misses nothing.**  At any later point of the lifetime, the replay and the live
channel from the attach on are together the raw events above the cursor that was honoured, or the
raw snapshot and every raw event after it, in the order of their numbers and each once. -/
theorem attachRaw_contiguous {cursor : Option UInt64} {last : Session}
    (answered : (reached writerEpoch history).attachRaw id generation cursor = .ok attached)
    (hit : (reached writerEpoch (history ++ later)).sessions.lookup id = some last)
    (eq : last.generation = attached.generation) : ∃ snapshot ∈ last.rawSnapshot,
      (last.rawLive.Pairwise fun event next => rawNumber event < rawNumber next) ∧
      (∀ event ∈ last.rawLive, ∀ mark ∈ snapshot.seq, mark < rawNumber event) ∧
      attached.replay ++ last.rawLive.drop attached.live =
        rawAfter snapshot last.rawLive attached.delivered := by
  obtain ⟨first, snapshot, entry, seeded, generation_eq, live, delivered, replay⟩ :=
    attachRaw_eq_ok answered
  obtain ⟨stays, grown⟩ := rawGrows_lifetime entry hit (eq.trans generation_eq)
  obtain ⟨-, allFirst, windowFirst⟩ := rawWindowed_reached _ _ id first entry
  obtain ⟨-, all, window⟩ := rawWindowed_reached _ _ id last hit
  have windowFirst := windowFirst snapshot seeded
  have window := window snapshot (stays snapshot seeded)
  have above : ∀ event ∈ last.rawLive, ∀ mark ∈ snapshot.seq, mark < rawNumber event := by
    have kept := window.kept_eq
    rw [all] at kept
    intro event mem
    rw [kept] at mem
    simpa using (mem_filter.mp mem).2
  refine ⟨snapshot, stays snapshot seeded, window.increasing, above, ?_⟩
  obtain ⟨more, isLive⟩ := grown
  have increasing := window.increasing
  rw [← isLive] at above increasing
  rw [replay, allFirst, live, ← isLive, drop_left]
  cases isDelivered : attached.delivered with
  | none => rfl
  | some cursor =>
    obtain ⟨head, isHead, atMost⟩ := le_of_rawServiceable (delivered.symm.trans isDelivered)
    rw [rawAfter, rawAfter, filter_append]
    refine congrArg _ (filter_eq_self.mpr fun event mem => ?_).symm
    -- what came after the attach is numbered above the head it saw
    have new := windowFirst.head_lt_added increasing above mem head isHead
    exact decide_eq_true (lt_of_le_of_lt atMost new)

/-- One raw event is before the attach, and one after it. -/
theorem attachRaw_contiguous_sample :
    let seeded := sampleHistory ++
      [.publishRawSnapshot 1 "s" (some 8) 2 2 [27], .publishRawOutput 1 "s" 9 [104]]
    ∃ attached last, (reached 3 seeded).attachRaw "s" (some "3:1") (some 8) = .ok attached ∧
      (reached 3 (seeded ++ [.publishRawOutput 1 "s" 10 [105]])).sessions.lookup "s" = some last ∧
      attached.replay ++ last.rawLive.drop attached.live = [.output 9 [104], .output 10 [105]] := by
  intro seeded
  obtain ⟨attached, answered, delivered, generation⟩ : ∃ attached,
      (reached 3 seeded).attachRaw "s" (some "3:1") (some 8) = .ok attached ∧
      attached.delivered = some 8 ∧ attached.generation = "3:1" := ⟨_, rfl, rfl, rfl⟩
  obtain ⟨last, hit, live, eq⟩ : ∃ last,
      (reached 3 (seeded ++ [.publishRawOutput 1 "s" 10 [105]])).sessions.lookup "s" = some last ∧
      last.rawLive = [.output 9 [104], .output 10 [105]] ∧ last.generation = "3:1" :=
    ⟨_, rfl, rfl, rfl⟩
  obtain ⟨snapshot, -, -, -, all⟩ :=
    attachRaw_contiguous answered hit (eq.trans generation.symm)
  refine ⟨attached, last, answered, hit, ?_⟩
  rw [all, live, delivered]
  rfl

end Gridwork.Pty.PtyHub
