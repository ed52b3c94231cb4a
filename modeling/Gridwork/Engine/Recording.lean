import Gridwork.Lib.Counter

/-!
# Recordings of a terminal

The engine records what changed a terminal, as input: the bytes the child wrote and the window
sizes it was given, numbered in order.  A recording holds at most `cap` entries and drops the
oldest past that; the numbers keep climbing.

The terminal itself is a parameter, `Terminal`: the engine's parser is an external library.
`replay` feeds recorded entries back into a grid.

The `+= 1` on the sequence counter is Rust's: at the top of the word it panics, which is `none`
here.
-/

namespace Gridwork.Engine

open Lib List Option

structure Terminal (Grid : Type) where
  /-- A blank grid of this many columns and rows, where the terminal takes that size. -/
  new : (cols rows : UInt16) → Option Grid
  /-- Feed child output to the parser. -/
  write : Grid → List UInt8 → Grid
  /-- Change the dimensions, reflowing the contents. -/
  resize : Grid → (cols rows : UInt16) → Option Grid
  /-- The screen as VT bytes. -/
  snapshotVt : Grid → Option (List UInt8)

inductive Event where
  | output (bytes : List UInt8)
  | resize (cols rows : UInt16)
  deriving DecidableEq

structure Entry where
  (seq offsetMs : UInt64)
  event : Event
  deriving DecidableEq

/-- An ordered, numbered, capped stream of terminal events, oldest first. -/
structure Recording where
  entries : List Entry
  nextSeq : UInt64
  cap : Nat
  deriving DecidableEq

/-- Pop entries off the front while more than `cap` are left. -/
def popPast {Item : Type} (cap : Nat) : List Item → List Item
  | [] => []
  | first :: rest => if rest.length + 1 > cap then popPast cap rest else first :: rest

theorem length_popPast_le {Item : Type} (cap : Nat) (items : List Item) :
    (popPast cap items).length ≤ items.length := by
  induction items with
  | nil => exact Nat.le_refl 0
  | cons first rest ih =>
    rw [popPast]
    split
    · exact ih.trans (Nat.le_succ _)
    · exact Nat.le_refl _

theorem popPast_eq_self {Item : Type} {cap : Nat} {items : List Item}
    (eq : (popPast cap items).length = items.length) : popPast cap items = items := by
  cases items with
  | nil => rfl
  | cons first rest =>
    rw [popPast] at eq ⊢
    split
    · rename_i full
      rw [if_pos full] at eq
      have fewer := length_popPast_le cap rest
      rw [eq, length_cons] at fewer
      omega
    · rfl

namespace Recording

/-- A recording retaining at most `cap` entries. -/
def new (cap : Nat) : Recording where
  entries := []
  nextSeq := 0
  cap := cap

/-- Append an event; its sequence number, and the recording after it.  `none` is the overflow of
`next_seq += 1`: a panic with overflow checks, and without them a wrap that only the 2^64th event
of a recording reaches. -/
def record (recording : Recording) (offsetMs : UInt64) (event : Event) :
    Option (UInt64 × Recording) :=
  let seq := recording.nextSeq
  (checkedSucc seq).map fun nextSeq =>
    (seq, { recording with
      nextSeq
      entries := popPast recording.cap (recording.entries ++ [⟨seq, offsetMs, event⟩]) })

def Whole (recording : Recording) : Prop :=
  recording.entries.length = recording.nextSeq.toNat

def Sound (recording : Recording) : Prop :=
  recording.entries.length ≤ recording.nextSeq.toNat

variable {recording after : Recording} {offsetMs seq : UInt64} {event : Event}

theorem record_some : recording.record offsetMs event = some (seq, after) ↔
      seq = recording.nextSeq ∧ after.nextSeq.toNat = recording.nextSeq.toNat + 1 ∧
      after.cap = recording.cap ∧
      after.entries = popPast recording.cap (recording.entries ++ [⟨seq, offsetMs, event⟩]) := by
  unfold record
  rw [map_eq_some_iff]
  constructor
  · rintro ⟨nextSeq, succeeded, made⟩
    cases made
    exact ⟨rfl, (checkedSucc64_some _ _).mp succeeded, rfl, rfl⟩
  · rintro ⟨rfl, succ, sameCap, sameEntries⟩
    refine ⟨after.nextSeq, (checkedSucc64_some _ _).mpr succ, ?_⟩
    cases after
    dsimp only at sameCap sameEntries
    rw [sameCap, sameEntries]

theorem length_of_record (recorded : recording.record offsetMs event = some (seq, after)) :
    after.entries.length ≤ recording.entries.length + 1 := by
  obtain ⟨-, -, -, entries⟩ := record_some.mp recorded
  have fewer := length_popPast_le recording.cap (recording.entries ++ [⟨seq, offsetMs, event⟩])
  rwa [← entries, length_append, length_singleton] at fewer

theorem Sound.record (sound : recording.Sound)
    (recorded : recording.record offsetMs event = some (seq, after)) : after.Sound := by
  obtain ⟨-, succ, -, entries⟩ := record_some.mp recorded
  have fewer := length_of_record recorded
  unfold Sound at sound ⊢
  omega

theorem entries_of_whole (sound : recording.Sound)
    (recorded : recording.record offsetMs event = some (seq, after)) (whole : after.Whole) :
    recording.Whole ∧ after.entries = recording.entries ++ [⟨seq, offsetMs, event⟩] := by
  obtain ⟨-, succ, -, entries⟩ := record_some.mp recorded
  have fewer := length_of_record recorded
  unfold Whole Sound at *
  refine ⟨by omega, ?_⟩
  rw [entries]
  refine popPast_eq_self ?_
  rw [← entries, length_append, length_singleton]
  omega

end Recording

/-! ## Replaying -/

variable {Grid : Type} (terminal : Terminal Grid)

def replayEvent (grid : Grid) : Event → Option Grid
  | .output bytes => some (terminal.write grid bytes)
  | .resize cols rows => terminal.resize grid cols rows

def replay (entries : List Entry) (grid : Grid) : Option Grid :=
  entries.foldlM (fun grid entry => replayEvent terminal grid entry.event) grid

theorem replay_snoc (entries : List Entry) (entry : Entry) (grid : Grid) :
    replay terminal (entries ++ [entry]) grid =
      (replay terminal entries grid).bind fun grid => replayEvent terminal grid entry.event := by
  unfold replay
  rw [foldlM_append, bind_eq_bind]
  simp only [foldlM_cons, foldlM_nil, bind_pure]

end Gridwork.Engine
