import Gridwork.Engine.Recording
import Gridwork.Lib.Run

/-!
# Getting a returning client back in step

A recording holds the last entries of everything that was recorded (`recordAll_eq_some`).  `since`
serves a returning client from them, or refuses when one it needs was dropped; `catchUp` replays
what `since` serves and falls back to a snapshot.

`sinceExact_iff` says when the refusal is exact: not for a recording without capacity, which has
dropped everything and refuses nobody, and not at the top of the word, where `seq + 1` overflows.
`clients_in_step` is about every interleaving of recording and catching up.
-/

namespace Gridwork.Engine

open Lib List Option UInt64 Recording Nat

/-! ## What a recording holds -/

theorem popPast_eq_drop {Item : Type} (cap : Nat) (items : List Item) :
    popPast cap items = items.drop (items.length - cap) := by
  induction items with
  | nil => simp [popPast]
  | cons first rest ih =>
    rw [popPast, length_cons]
    split
    next full =>
      rw [ih, succ_sub (le_of_lt_succ full), drop_succ_cons]
    next fits => rw [Nat.sub_eq_zero_of_le (Nat.le_of_not_lt fits), drop_zero]

/-- What record calls record, numbered from `start`. -/
def numberFrom : Nat → List (UInt64 × Event) → List Entry
  | _, [] => []
  | start, call :: calls => ⟨.ofNat start, call.1, call.2⟩ :: numberFrom (start + 1) calls

section Numbers

variable {start : Nat} {calls : List (UInt64 × Event)}

theorem length_numberFrom : (numberFrom start calls).length = calls.length := by
  induction calls generalizing start with
  | nil => rfl
  | cons call calls ih => rw [numberFrom, length_cons, ih, length_cons]

theorem numberFrom_append (more : List (UInt64 × Event)) : numberFrom start (calls ++ more) =
      numberFrom start calls ++ numberFrom (start + calls.length) more := by
  induction calls generalizing start with
  | nil => rfl
  | cons call calls ih =>
    rw [cons_append, numberFrom, numberFrom, ih, length_cons, add_right_comm, add_assoc]
    rfl

theorem drop_numberFrom (count : Nat) :
    (numberFrom start calls).drop count = numberFrom (start + count) (calls.drop count) := by
  induction count generalizing start calls with
  | zero => rfl
  | succ count ih =>
    cases calls with
    | nil => rfl
    | cons call calls =>
      rw [numberFrom, drop_succ_cons, drop_succ_cons, ih, add_right_comm]
      rfl

theorem seq_of_mem_numberFrom {entry : Entry} (room : start + calls.length ≤ 2 ^ 64)
    (mem : entry ∈ numberFrom start calls) :
    start ≤ entry.seq.toNat ∧ entry.seq.toNat < start + calls.length := by
  induction calls generalizing start with
  | nil => cases mem
  | cons call calls ih =>
    rw [length_cons] at room ⊢
    rcases mem_cons.mp mem with rfl | later
    · rw [toNat_ofNat_of_lt' (by rw [UInt64.size]; omega)]
      omega
    · have := ih (by omega) later
      omega

theorem filter_numberFrom (room : start + calls.length ≤ 2 ^ 64) (seq : UInt64) :
    (numberFrom start calls).filter (seq < ·.seq) =
      (numberFrom start calls).drop (seq.toNat + 1 - start) := by
  induction calls generalizing start with
  | nil => simp [numberFrom]
  | cons call calls ih =>
    rw [length_cons] at room
    have number : (ofNat start).toNat = start :=
      toNat_ofNat_of_lt' (by rw [UInt64.size]; omega)
    rw [numberFrom, filter_cons, ih (by omega)]
    by_cases above : seq.toNat < start
    · rw [if_pos (by rw [decide_eq_true_eq, lt_iff_toNat_lt, number]; exact above),
        Nat.sub_eq_zero_of_le above, Nat.sub_eq_zero_of_le (by omega), drop_zero,
        drop_zero]
    · rw [if_neg (by rw [decide_eq_true_eq, lt_iff_toNat_lt, number]; exact above),
        show seq.toNat + 1 - start = seq.toNat + 1 - (start + 1) + 1 by omega, drop_succ_cons]

end Numbers

/-- Why a reattach could not be served from the stream. -/
structure Evicted where
  (asked oldest : UInt64)
  deriving DecidableEq

theorem plainSucc64_eq_some (checks : OverflowChecks) {value : UInt64}
    (room : value.toNat + 1 < 2 ^ 64) :
    ∃ next, plainSucc checks value = some next ∧ next.toNat = value.toNat + 1 := by
  have succ : (value + 1).toNat = value.toNat + 1 := by
    rw [UInt64.toNat_add, UInt64.toNat_one]
    omega
  cases checks with
  | on => exact ⟨value + 1, (checkedSucc64_some _ _).mpr succ, succ⟩
  | off => exact ⟨value + 1, rfl, succ⟩

namespace Recording

def recordAll (recording : Recording) (calls : List (UInt64 × Event)) : Option Recording :=
  calls.foldlM (fun recording call => (recording.record call.1 call.2).map Prod.snd) recording

variable {cap : Nat} {calls : List (UInt64 × Event)} {recording : Recording}

theorem recordAll_snoc (start : Recording) (call : UInt64 × Event) :
    start.recordAll (calls ++ [call]) = (start.recordAll calls).bind fun recording =>
        (recording.record call.1 call.2).map Prod.snd := by
  unfold recordAll
  rw [foldlM_append, bind_eq_bind]
  simp only [foldlM_cons, foldlM_nil, bind_pure]

/-- **A recording holds the last entries of everything recorded.** -/
theorem recordAll_eq_some (recorded : (new cap).recordAll calls = some recording) :
    recording.entries = (numberFrom 0 calls).drop (calls.length - cap) ∧
      recording.nextSeq.toNat = calls.length ∧ recording.cap = cap := by
  induction calls using List.reverseRecOn generalizing recording with
  | nil =>
    cases recorded
    exact ⟨by simp [new, numberFrom], rfl, rfl⟩
  | append_singleton calls call ih =>
    rw [recordAll_snoc, bind_eq_some_iff] at recorded
    obtain ⟨before, prior, last⟩ := recorded
    obtain ⟨held, next, sameCap⟩ := ih prior
    obtain ⟨⟨seq, after⟩, made, rfl⟩ := map_eq_some_iff.mp last
    obtain ⟨isNext, succ, keptCap, entries⟩ := record_some.mp made
    have number : seq = .ofNat (0 + calls.length) := by
      rw [isNext, zero_add, ← next, UInt64.ofNat_toNat]
    have whole : before.entries ++ [⟨seq, call.1, call.2⟩] =
        (numberFrom 0 (calls ++ [call])).drop (calls.length - cap) := by
      rw [held, number, numberFrom_append, drop_append_of_le_length
        (by rw [length_numberFrom]; omega)]
      rfl
    refine ⟨?_, by rw [succ, next, length_append, length_singleton], keptCap.trans sameCap⟩
    rw [entries, sameCap, whole, popPast_eq_drop, drop_drop, length_drop,
      length_numberFrom, length_append, length_singleton]
    congr 1
    omega

/-! ## Serving a cursor -/

def latestSeq (recording : Recording) : Option UInt64 :=
  recording.entries.getLast?.map (·.seq)

def oldestSeq (recording : Recording) : Option UInt64 :=
  recording.entries.head?.map (·.seq)

/-- Everything after `seq`, for a client that already has through `seq`; `none` is the panic of
`seq + 1`. -/
def since (recording : Recording) (checks : OverflowChecks) (seq : UInt64) :
    Option (Except Evicted (List Entry)) :=
  let served := recording.entries.filter (seq < ·.seq)
  match recording.oldestSeq with
  | none => some (.ok served)
  | some oldest => (plainSucc checks seq).map fun needed =>
      if needed < oldest then .error ⟨seq, oldest⟩ else .ok served

/-- What `since` owes a client after these calls: every event above its number when none of them
was dropped, and a refusal when one was. -/
def SinceExact (recording : Recording) (checks : OverflowChecks) (calls : List (UInt64 × Event))
    (seq : UInt64) : Prop :=
  ∃ answer, recording.since checks seq = some answer ∧
    if ∃ entry ∈ numberFrom 0 calls, seq < entry.seq ∧ entry ∉ recording.entries then
      ∃ evicted, answer = .error evicted
    else answer = .ok ((numberFrom 0 calls).filter (seq < ·.seq))

section Recorded

variable (recorded : (new cap).recordAll calls = some recording)

include recorded

theorem length_lt : calls.length < 2 ^ 64 :=
  (recordAll_eq_some recorded).2.1 ▸ recording.nextSeq.toNat_lt

theorem entries_eq :
    recording.entries = numberFrom (calls.length - cap) (calls.drop (calls.length - cap)) := by
  rw [(recordAll_eq_some recorded).1, drop_numberFrom, zero_add]

theorem mem_entries_iff {entry : Entry} (mem : entry ∈ numberFrom 0 calls) :
    entry ∈ recording.entries ↔ calls.length - cap ≤ entry.seq.toNat := by
  have room := length_lt recorded
  have parts := @numberFrom_append 0 (calls.take (calls.length - cap))
    (calls.drop (calls.length - cap))
  rw [take_append_drop, length_take_of_le (by omega), zero_add, ← entries_eq recorded] at parts
  rw [parts, mem_append] at mem
  constructor
  · intro held
    rw [entries_eq recorded] at held
    exact (seq_of_mem_numberFrom (by rw [length_drop]; omega) held).1
  · intro above
    refine mem.resolve_left fun dropped => ?_
    have below := (seq_of_mem_numberFrom (by rw [length_take]; omega) dropped).2
    rw [length_take] at below
    omega

theorem missing_iff (seq : UInt64) :
    (∃ entry ∈ numberFrom 0 calls, seq < entry.seq ∧ entry ∉ recording.entries) ↔
      seq.toNat + 1 < calls.length - cap := by
  have room := length_lt recorded
  constructor
  · rintro ⟨entry, mem, above, missing⟩
    rw [mem_entries_iff recorded mem] at missing
    rw [lt_iff_toNat_lt] at above
    omega
  · intro behind
    -- the last entry that was dropped
    obtain ⟨call, isCall⟩ : ∃ call, calls[calls.length - cap - 1]? = some call :=
      ⟨_, getElem?_eq_getElem (by omega)⟩
    have number : (ofNat (calls.length - cap - 1)).toNat = calls.length - cap - 1 :=
      toNat_ofNat_of_lt' (by rw [UInt64.size]; omega)
    have mem : ⟨.ofNat (calls.length - cap - 1), call.1, call.2⟩ ∈ numberFrom 0 calls := by
      refine @mem_of_mem_drop _ _ (calls.length - cap - 1) _ ?_
      rw [drop_numberFrom, zero_add, drop_eq_getElem_cons (by omega), numberFrom]
      rw [getElem?_eq_getElem (by omega), some_inj] at isCall
      rw [isCall]
      exact mem_cons_self
    refine ⟨_, mem, ?_, ?_⟩
    · rw [lt_iff_toNat_lt, number]
      omega
    · rw [mem_entries_iff recorded mem, number]
      omega

theorem oldestSeq_eq (nonempty : recording.entries ≠ []) :
    recording.oldestSeq = some (.ofNat (calls.length - cap)) ∧
      calls.length - cap < calls.length := by
  rw [oldestSeq]
  rw [entries_eq recorded] at nonempty ⊢
  cases rest : calls.drop (calls.length - cap) with
  | nil => exact absurd (by rw [rest]; rfl) nonempty
  | cons call later =>
    refine ⟨rfl, ?_⟩
    have count := congrArg List.length rest
    rw [length_drop, length_cons] at count
    omega

theorem latestSeq_eq (roomy : 0 < cap) (nonempty : calls ≠ []) :
    ∃ seq, recording.latestSeq = some seq ∧ seq.toNat + 1 = calls.length := by
  have short := length_lt recorded
  have some : 0 < calls.length := length_pos_of_ne_nil nonempty
  have number : (ofNat (calls.length - 1)).toNat = calls.length - 1 :=
    toNat_ofNat_of_lt' (by rw [UInt64.size]; omega)
  refine ⟨.ofNat (calls.length - 1), ?_, by omega⟩
  rw [latestSeq, (recordAll_eq_some recorded).1, getLast?_drop, length_numberFrom,
    if_neg (by omega), ← dropLast_append_getLast nonempty, numberFrom_append]
  simp [numberFrom]

theorem since_eq (checks : OverflowChecks) (roomy : 0 < cap) {seq : UInt64}
    (room : seq.toNat + 1 < 2 ^ 64) :
    ∃ oldest, recording.since checks seq = some (if seq.toNat + 1 < calls.length - cap then
      .error ⟨seq, oldest⟩ else .ok ((numberFrom 0 calls).filter (seq < ·.seq))) := by
  have short := length_lt recorded
  have served (reaches : calls.length - cap ≤ seq.toNat + 1) :
      recording.entries.filter (seq < ·.seq) = (numberFrom 0 calls).filter (seq < ·.seq) := by
    rw [filter_numberFrom (by omega), entries_eq recorded, filter_numberFrom
      (by rw [length_drop]; omega), drop_numberFrom, drop_numberFrom, drop_drop,
      Nat.add_sub_cancel' reaches, Nat.sub_zero, Nat.zero_add]
  by_cases empty : recording.entries = []
  · have none : calls.length = 0 := by
      have := congrArg List.length ((entries_eq recorded).symm.trans empty)
      rw [length_numberFrom, length_drop, length_nil] at this
      omega
    refine ⟨0, ?_⟩
    rw [if_neg (by omega), ← served (by omega), since, oldestSeq, empty]
    rfl
  · obtain ⟨oldest, below⟩ := oldestSeq_eq recorded empty
    obtain ⟨next, isNext, number⟩ := plainSucc64_eq_some checks room
    refine ⟨.ofNat (calls.length - cap), ?_⟩
    have eq : next < ofNat (calls.length - cap) ↔ seq.toNat + 1 < calls.length - cap := by
      rw [lt_iff_toNat_lt, number, toNat_ofNat_of_lt' (by rw [UInt64.size]; omega)]
    simp only [since, oldest, isNext, map_some, eq]
    by_cases behind : seq.toNat + 1 < calls.length - cap
    · rw [if_pos behind, if_pos behind]
    · rw [if_neg behind, if_neg behind, served (Nat.le_of_not_lt behind)]

/-- **When the window is exact.**  After any record calls, `since` serves exactly what was not
dropped and refuses exactly where something was, unless the recording has no capacity and an event
above the number was recorded, or the number is the highest there is.  There the addition panics,
or wraps and refuses unless the recording still starts at zero. -/
theorem sinceExact_iff (checks : OverflowChecks) (seq : UInt64) :
    recording.SinceExact checks calls seq ↔ (cap = 0 → calls.length ≤ seq.toNat + 1) ∧
      (seq.toNat + 1 = 2 ^ 64 → recording.entries = [] ∨
        checks = .off ∧ recording.oldestSeq = some 0) := by
  have short := length_lt recorded
  have top := seq.toNat_lt
  rw [SinceExact]
  simp only [missing_iff recorded]
  by_cases room : seq.toNat + 1 < 2 ^ 64
  · by_cases zero : cap = 0
    · subst zero
      have empty : recording.entries = [] := by
        rw [entries_eq recorded, Nat.sub_zero, drop_length]
        rfl
      have answered : recording.since checks seq = some (.ok []) := by
        simp [since, oldestSeq, empty]
      rw [answered]
      constructor
      · rintro ⟨answer, isAnswer, exact⟩
        cases isAnswer
        refine ⟨fun _ => ?_, fun full => absurd full (by omega)⟩
        by_contra above
        rw [if_pos (by omega)] at exact
        obtain ⟨evicted, no⟩ := exact
        cases no
      · rintro ⟨few, -⟩
        have few := few rfl
        refine ⟨_, rfl, ?_⟩
        rw [if_neg (by omega), filter_numberFrom (by omega), drop_eq_nil_of_le
          (by rw [length_numberFrom]; omega)]
    · obtain ⟨oldest, answered⟩ := since_eq recorded checks (Nat.pos_of_ne_zero zero) room
      refine ⟨fun _ => ⟨fun isZero => absurd isZero zero, fun full => by omega⟩, fun _ => ?_⟩
      refine ⟨_, answered, ?_⟩
      by_cases behind : seq.toNat + 1 < calls.length - cap
      · rw [if_pos behind, if_pos behind]
        exact ⟨_, rfl⟩
      · rw [if_neg behind, if_neg behind]
  · have full : seq.toNat + 1 = 2 ^ 64 := by omega
    have nothing : (numberFrom 0 calls).filter (seq < ·.seq) = [] := by
      rw [filter_numberFrom (by omega), drop_eq_nil_of_le (by rw [length_numberFrom]; omega)]
    have notBehind : ¬ seq.toNat + 1 < calls.length - cap := by omega
    simp only [if_neg notBehind, nothing]
    by_cases empty : recording.entries = []
    · have answered : recording.since checks seq = some (.ok []) := by
        simp [since, oldestSeq, empty]
      exact ⟨fun _ => ⟨fun _ => by omega, fun _ => .inl empty⟩, fun _ => ⟨_, answered, rfl⟩⟩
    · obtain ⟨oldest, below⟩ := oldestSeq_eq recorded empty
      have wraps : seq + 1 = 0 := by
        rw [← UInt64.toNat_inj, UInt64.toNat_add, UInt64.toNat_one, full]
        rfl
      cases checks with
      | on =>
        have panics : recording.since .on seq = none := by
          simp [since, oldest, plainSucc, checkedSucc, wraps]
        simp [panics, full, empty]
      | off =>
        have unserved : recording.entries.filter (seq < ·.seq) = [] := by
          refine filter_eq_nil_iff.mpr fun entry held => ?_
          rw [(recordAll_eq_some recorded).1] at held
          exact filter_eq_nil_iff.mp nothing entry (mem_of_mem_drop held)
        simp only [since, oldest, plainSucc, wraps, map_some, unserved, full, empty,
          UInt64.pos_iff_ne_zero, Option.some.injEq, true_and, false_or, true_implies,
          exists_eq_left']
        constructor
        · intro served
          refine ⟨fun _ => by omega, ?_⟩
          by_contra positive
          rw [if_pos positive] at served
          cases served
        · rintro ⟨-, atZero⟩
          rw [if_neg (not_not.mpr atZero)]

end Recorded

def twice : List (UInt64 × Event) := [(0, .output [97]), (5, .output [98])]

theorem sinceExact_iff_twice : (new 1).recordAll twice = some ⟨[⟨1, 5, .output [98]⟩], 2, 1⟩ ∧
      Recording.SinceExact ⟨[⟨1, 5, .output [98]⟩], 2, 1⟩ .on twice 0 := by
  have recorded : (new 1).recordAll twice = some ⟨[⟨1, 5, .output [98]⟩], 2, 1⟩ := by decide
  refine ⟨recorded, (sinceExact_iff recorded .on 0).mpr ⟨?_, ?_⟩⟩
  · intro zero
    cases zero
  · intro full
    exact absurd full (by decide)

/-- Without capacity the second event is gone, and a client that has the first is told that there
is nothing for it. -/
theorem sinceExact_fails_empty : (new 0).recordAll twice = some ⟨[], 2, 0⟩ ∧
      Recording.since ⟨[], 2, 0⟩ .on 0 = some (.ok []) ∧
      ¬ Recording.SinceExact ⟨[], 2, 0⟩ .on twice 0 := by
  refine ⟨by decide, by decide, ?_⟩
  rintro ⟨answer, isAnswer, exact⟩
  cases isAnswer
  rw [if_pos ⟨⟨1, 5, .output [98]⟩, by decide, by decide, by decide⟩] at exact
  obtain ⟨evicted, no⟩ := exact
  cases no

end Recording

/-! ## Clients -/

/-- A terminal whose grids tell their columns and rows. -/
structure Sized (Grid : Type) extends Terminal Grid where
  size : Grid → Option (UInt16 × UInt16)

/-- Everything a client needs to start drawing from nothing. -/
structure Attach where
  snapshot : List UInt8
  seq : UInt64
  (cols rows : UInt16)

/-- How a client was brought current, and the number it has now. -/
inductive CaughtUp where
  | replayed (through : UInt64)
  | snapshotted (seq : UInt64)
  deriving DecidableEq

def CaughtUp.seq : CaughtUp → UInt64
  | replayed through => through
  | snapshotted seq => seq

section Clients

variable {Grid : Type} (terminal : Sized Grid) (checks : OverflowChecks)

def Attach.capture (grid : Grid) (seq : UInt64) : Option Attach := do
  let (cols, rows) ← terminal.size grid
  let snapshot ← terminal.snapshotVt grid
  return { snapshot, seq, cols, rows }

def Attach.restore (attach : Attach) : Option Grid := do
  let grid ← terminal.new attach.cols attach.rows
  return terminal.write grid attach.snapshot

/-- `replay` on a grid in place: whether it got through, and the grid it leaves. -/
def replayInto : List Entry → Grid → Bool × Grid
  | [], grid => (true, grid)
  | entry :: entries, grid =>
    match replayEvent terminal.toTerminal grid entry.event with
    | some after => replayInto entries after
    | none => (false, grid)

/-- Bring a client holding `seq` up to date: the answer, and the client's grid after it. -/
def catchUp (recording : Recording) (live client : Grid) (seq : UInt64) :
    Option (Option CaughtUp × Grid) :=
  (recording.since checks seq).map fun
    | .ok entries =>
      match replayInto terminal entries client with
      | (true, grid) => (some (.replayed (recording.latestSeq.getD seq)), grid)
      | (false, grid) => (none, grid)
    | .error _ =>
      let seq := recording.latestSeq.getD seq
      match (Attach.capture terminal live seq).bind (Attach.restore terminal) with
      | some grid => (some (.snapshotted seq), grid)
      | none => (none, client)

theorem replayInto_of_replay {entries : List Entry} {grid after : Grid}
    (replayed : replay terminal.toTerminal entries grid = some after) :
    replayInto terminal entries grid = (true, after) := by
  induction entries generalizing grid with
  | nil =>
    cases replayed
    rfl
  | cons entry entries ih =>
    obtain ⟨mid, applied, rest⟩ := bind_eq_some_iff.mp replayed
    have applied : replayEvent terminal.toTerminal grid entry.event = some mid := applied
    rw [replayInto, applied]
    exact ih rest

/-- A recorded session with its clients, each holding a grid and a number. -/
structure Session (Grid : Type) where
  recording : Recording
  live : Grid
  clients : Nat → Option (Grid × UInt64)

inductive Action where
  | record (offsetMs : UInt64) (event : Event)
  | join (client : Nat)
  | catchUp (client : Nat)

/-- An event is recorded and applied to the live grid, a client starts from a capture at the
latest number, or a client asks to be brought current. -/
inductive Session.Step : Session Grid → Action → Session Grid → Prop
  | record {session : Session Grid} {offsetMs seq : UInt64} {event : Event} {recording : Recording}
      {live : Grid} : session.recording.record offsetMs event = some (seq, recording) →
      replayEvent terminal.toTerminal session.live event = some live →
      Step session (.record offsetMs event) { session with recording, live }
  | join {session : Session Grid} {client : Nat} {seq : UInt64} {attach : Attach} {grid : Grid} :
      session.recording.latestSeq = some seq →
      Attach.capture terminal session.live seq = some attach →
      attach.restore terminal = some grid →
      Step session (.join client)
        { session with clients := Function.update session.clients client (some (grid, attach.seq)) }
  | catchUp {session : Session Grid} {client : Nat} {held grid : Grid} {seq : UInt64}
      {answer : Option CaughtUp} : session.clients client = some (held, seq) →
      catchUp terminal checks session.recording session.live held seq = some (answer, grid) →
      Step session (.catchUp client)
        { session with
          clients := Function.update session.clients client (some (grid, answer.elim seq (·.seq))) }

/-- What was recorded led from the first grid to the live one, and led to each client's grid where
its number is. -/
def Session.InStep (cap : Nat) (first : Grid) (session : Session Grid) : Prop :=
  ∃ calls, (Recording.new cap).recordAll calls = some session.recording ∧
    replay terminal.toTerminal (numberFrom 0 calls) first = some session.live ∧
    ∀ client grid seq, session.clients client = some (grid, seq) → seq.toNat < calls.length ∧
      replay terminal.toTerminal ((numberFrom 0 calls).take (seq.toNat + 1)) first = some grid

variable {terminal checks} {cap : Nat} {first grid held : Grid} {session after : Session Grid}

section Faithful

variable (faithful : ∀ grid seq attach restored, Attach.capture terminal grid seq = some attach →
    attach.restore terminal = some restored → restored = grid)
  (roomy : 0 < cap)

include faithful roomy

theorem caught {calls : List (UInt64 × Event)} {seq : UInt64} {answer : Option CaughtUp}
    (recorded : (new cap).recordAll calls = some session.recording)
    (whole : replay terminal.toTerminal (numberFrom 0 calls) first = some session.live)
    (known : seq.toNat < calls.length)
    (here : replay terminal.toTerminal ((numberFrom 0 calls).take (seq.toNat + 1)) first =
      some held)
    (answered : catchUp terminal checks session.recording session.live held seq =
      some (answer, grid)) :
    (answer = none → grid = held) ∧ ∀ caughtUp ∈ answer, grid = session.live ∧
        session.recording.latestSeq = some caughtUp.seq := by
  have short := length_lt recorded
  obtain ⟨latest, isLatest, -⟩ := latestSeq_eq recorded roomy (ne_nil_of_length_pos (by omega))
  obtain ⟨oldest, served⟩ := since_eq recorded checks roomy (by omega : seq.toNat + 1 < 2 ^ 64)
  rw [catchUp, served, map_some, some_inj, isLatest] at answered
  by_cases behind : seq.toNat + 1 < calls.length - cap
  · rw [if_pos behind] at answered
    dsimp only [getD_some] at answered
    split at answered
    next restored isRestored =>
      cases answered
      obtain ⟨attach, captured, restores⟩ := bind_eq_some_iff.mp isRestored
      refine ⟨fun no => (by cases no), ?_⟩
      rintro caughtUp ⟨⟩
      exact ⟨faithful _ _ _ _ captured restores, isLatest⟩
    next =>
      cases answered
      exact ⟨fun _ => rfl, fun caughtUp no => by cases no⟩
  · have rest : replay terminal.toTerminal ((numberFrom 0 calls).filter (seq < ·.seq)) held =
        some session.live := by
      rw [← take_append_drop (seq.toNat + 1) (numberFrom 0 calls), replay, foldlM_append] at whole
      rw [filter_numberFrom (by omega), Nat.sub_zero]
      rw [replay] at here
      rwa [here] at whole
    rw [if_neg behind] at answered
    dsimp only at answered
    rw [replayInto_of_replay terminal rest] at answered
    cases answered
    refine ⟨fun no => (by cases no), ?_⟩
    rintro caughtUp ⟨⟩
    exact ⟨rfl, isLatest⟩

theorem Session.InStep.step {action : Action} (inStep : session.InStep terminal cap first)
    (step : session.Step terminal checks action after) : after.InStep terminal cap first := by
  obtain ⟨calls, recorded, whole, clients⟩ := inStep
  have current {seq : UInt64} (latest : session.recording.latestSeq = some seq) :
      seq.toNat + 1 = calls.length := by
    have nonempty : calls ≠ [] := by
      rintro rfl
      rw [latestSeq, (recordAll_eq_some recorded).1] at latest
      simp [numberFrom] at latest
    obtain ⟨other, isOther, number⟩ := latestSeq_eq recorded roomy nonempty
    rw [latest] at isOther
    cases isOther
    exact number
  have all {seq : UInt64} (latest : session.recording.latestSeq = some seq) :
      (numberFrom 0 calls).take (seq.toNat + 1) = numberFrom 0 calls :=
    take_of_length_le (by rw [length_numberFrom, current latest])
  have put (client : Nat) {grid : Grid} {seq : UInt64} (known : seq.toNat < calls.length)
      (here : replay terminal.toTerminal ((numberFrom 0 calls).take (seq.toNat + 1)) first =
        some grid) :
      Session.InStep terminal cap first { session with
        clients := Function.update session.clients client (some (grid, seq)) } := by
    refine ⟨calls, recorded, whole, fun other held number isHeld => ?_⟩
    have isHeld : Function.update session.clients client (some (grid, seq)) other =
      some (held, number) := isHeld
    by_cases eq : other = client
    · subst eq
      rw [Function.update_self] at isHeld
      cases isHeld
      exact ⟨known, here⟩
    · rw [Function.update_of_ne eq] at isHeld
      exact clients other held number isHeld
  cases step with
  | @record offsetMs seq event recording live recordedOne applied =>
    refine ⟨calls ++ [(offsetMs, event)], ?_, ?_, ?_⟩
    · rw [recordAll_snoc, recorded, bind_some, recordedOne]
      rfl
    · rw [numberFrom_append, numberFrom, numberFrom, replay_snoc, whole]
      exact applied
    · intro client grid seq held
      obtain ⟨known, here⟩ := clients client grid seq held
      refine ⟨by rw [length_append]; omega, ?_⟩
      rwa [numberFrom_append, take_append_of_le_length (by rw [length_numberFrom]; omega)]
  | @join client seq attach grid latest captured restored =>
    have isSeq : attach.seq = seq := by
      simp only [Attach.capture, bind_eq_bind, bind_eq_some_iff] at captured
      obtain ⟨_, _, _, _, made⟩ := captured
      cases made
      rfl
    rw [isSeq]
    refine put client (lt_of_succ_le (current latest).le) ?_
    rw [all latest, faithful _ _ _ _ captured restored]
    exact whole
  | @catchUp client held grid seq answer isHeld answered =>
    obtain ⟨known, here⟩ := clients client held seq isHeld
    obtain ⟨failed, caughtUp⟩ := caught faithful roomy recorded whole known here answered
    cases answer with
    | none =>
      rw [failed rfl]
      exact put client known here
    | some answer =>
      obtain ⟨isLive, latest⟩ := caughtUp answer rfl
      refine put client (lt_of_succ_le (current latest).le) ?_
      rw [elim_some, all latest, isLive]
      exact whole

/-- **Returning clients stay in step.**  Where restoring a capture reproduces the captured grid and
the recording has room for an entry: in every interleaving of recorded events with clients that
start from a capture and present the number they were last answered, a catch-up that succeeds leaves
the client with the live grid and answers the latest number. -/
theorem clients_in_step {actions : List Action}
    (run : Run (Session.Step terminal checks) ⟨.new cap, first, fun _ => none⟩ actions session)
    {client : Nat} {held grid : Grid} {seq : UInt64} {caughtUp : CaughtUp}
    (isHeld : session.clients client = some (held, seq))
    (answered : catchUp terminal checks session.recording session.live held seq =
      some (some caughtUp, grid)) :
    grid = session.live ∧ session.recording.latestSeq = some caughtUp.seq := by
  have inStep := run.invariant_induction (Session.InStep terminal cap first)
    ⟨[], rfl, rfl, fun _ _ _ no => by cases no⟩
    fun _ _ _ _ inStep step => Session.InStep.step faithful roomy inStep step
  obtain ⟨calls, recorded, whole, clients⟩ := inStep
  obtain ⟨known, here⟩ := clients client held seq isHeld
  exact (caught faithful roomy recorded whole known here answered).2 caughtUp rfl

end Faithful

end Clients

/-! ## A terminal that keeps what it was written -/

namespace Sample

def log : Sized (List UInt8) where
  new _ _ := some []
  write grid bytes := grid ++ bytes
  resize grid _ _ := some grid
  snapshotVt grid := some grid
  size _ := some (80, 24)

theorem faithful_log (grid : List UInt8) (seq : UInt64) (attach : Attach) (restored : List UInt8)
    (captured : Attach.capture log grid seq = some attach)
    (isRestored : attach.restore log = some restored) : restored = grid := by
  cases captured
  cases isRestored
  rfl

/-- A client that joined at the first of two events, of which one is held. -/
def behind : Session (List UInt8) :=
  ⟨⟨[⟨1, 0, .output [98]⟩], 2, 1⟩, [97, 98], Function.update (fun _ => none) 0 (some ([97], 0))⟩

end Sample

open Sample in
theorem clients_in_step_behind :
    catchUp log .on behind.recording behind.live [97] 0 =
        some (some (.replayed 1), [97, 98]) ∧
      [97, 98] = behind.live ∧ behind.recording.latestSeq = some 1 := by
  have recordA : Session.Step log .on ⟨.new 1, [], fun _ => none⟩ (.record 0 (.output [97]))
      ⟨⟨[⟨0, 0, .output [97]⟩], 1, 1⟩, [97], fun _ => none⟩ := .record rfl rfl
  have run : Run (Session.Step log .on) ⟨.new 1, [], fun _ => none⟩
      [.record 0 (.output [97]), .join 0, .record 0 (.output [98])] behind :=
    .cons recordA (.cons (.join rfl rfl rfl) (.cons (.record rfl rfl) (.nil _)))
  have isHeld : behind.clients 0 = some ([97], 0) := rfl
  have answered : catchUp log .on behind.recording behind.live [97] 0 =
      some (some (.replayed 1), [97, 98]) := by decide
  exact ⟨answered, clients_in_step faithful_log (by decide) run isHeld answered⟩

end Gridwork.Engine
