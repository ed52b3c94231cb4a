import Gridwork.Blob.Container
import Gridwork.Domain.Protocol

/-!
# The frame codec

A frame is its length in four bytes, its kind in one, and its body; the length counts the kind and
the body.  `write_frame` and `read_frame` are charged to a budget that refills with every window
of time; what exceeds the rest of a window waits for the next one.

A stream of frames is read back as it was written, and where it is cut inside a frame the reader
ends with an error (`frames_read_back`).  With every frame come the time since the window began
and a delay of the timer; both are arbitrary.
-/

namespace Gridwork.Wire

open Domain Lib List Nat

/-! ## The budget -/

def FRAME_LENGTH_PREFIX_BYTES : Nat := 4

def FRAME_BODY_MIN_BYTES : Nat := 1

/-- A refusal of the codec; all of them end the connection. -/
structure WireError where
  code : KernelErrorCode
  message : String

/-- `WireError::io` at the end of the stream. -/
def WireError.io (what : String) : WireError :=
  ⟨.storage, s!"{what}: early eof"⟩

inductive Direction where
  | ingress | egress

instance : ToString Direction where
  toString
    | .ingress => "received"
    | .egress => "sent"

/-- What may be moved in each direction in one window, and what was. -/
structure Budget where
  perWindow : Direction → Nat
  window : Nat
  spent : Direction → Nat

variable {direction : Direction} {maxBody cut bytes : Nat} {budget : Budget}

namespace Budget

def refill (budget : Budget) (elapsed : Nat) : Budget :=
  if budget.window ≤ elapsed then { budget with spent := fun _ => 0 } else budget

@[simp] theorem perWindow_refill (budget : Budget) (elapsed : Nat) :
    (budget.refill elapsed).perWindow = budget.perWindow := by
  unfold refill
  split <;> rfl

/-- The loop of `spend`, for what fits a window.  It sleeps to the end of the window, and wakes up
late. -/
def spendLoop (budget : Budget) (direction : Direction) (bytes elapsed late : Nat)
    (fits : bytes ≤ budget.perWindow direction) : Budget :=
  if _room : (budget.refill elapsed).spent direction + bytes ≤ budget.perWindow direction then
    { budget.refill elapsed with spent := fun other =>
        match direction, other with
        | .ingress, .ingress | .egress, .egress => (budget.refill elapsed).spent other + bytes
        | _, _ => (budget.refill elapsed).spent other }
  else budget.spendLoop direction bytes (elapsed + (budget.window - elapsed) + late) late fits
termination_by budget.window - elapsed
decreasing_by
  have waiting : ¬ budget.window ≤ elapsed := by
    intro ended
    apply _room
    rw [refill, if_pos ended]
    exact (Nat.zero_add bytes).symm ▸ fits
  omega

def spend (budget : Budget) (direction : Direction) (bytes : Nat) (tick : Nat × Nat) :
    Except WireError Budget :=
  if fits : bytes ≤ budget.perWindow direction then
    .ok (budget.spendLoop direction bytes tick.1 tick.2 fits)
  else .error ⟨.frameSize, s!"a {direction} frame of {bytes} bytes exceeds the whole " ++
    s!"{budget.perWindow direction}-byte window allowance"⟩

theorem perWindow_spendLoop (budget : Budget) (direction : Direction) (bytes elapsed late : Nat)
    (fits : bytes ≤ budget.perWindow direction) :
    (budget.spendLoop direction bytes elapsed late fits).perWindow = budget.perWindow := by
  fun_induction spendLoop budget direction bytes elapsed late fits with
  | case1 => exact perWindow_refill ..
  | case2 _ _ ih => exact ih

theorem exists_spend (fits : bytes ≤ budget.perWindow direction) (tick : Nat × Nat) :
    ∃ after, budget.spend direction bytes tick = .ok after ∧ after.perWindow = budget.perWindow :=
  ⟨_, dif_pos fits, perWindow_spendLoop ..⟩

end Budget

/-! ## Frames -/

inductive FrameKind where
  | json | ptyRaw

def FrameKind.asU8 : FrameKind → UInt8
  | .json => 0x01
  | .ptyRaw => 0x02

def FrameKind.fromU8 (value : UInt8) : Option FrameKind :=
  if value = 0x01 then some .json else if value = 0x02 then some .ptyRaw else none

theorem FrameKind.fromU8_asU8 (kind : FrameKind) : fromU8 kind.asU8 = some kind := by
  cases kind <;> rfl

structure Frame where
  kind : FrameKind
  body : Bytes

def Frame.announced (frame : Frame) : Nat :=
  frame.body.length + 1

inductive Incoming where
  | frame (frame : Frame)
  | closed

/-- `read_frame` on the bytes that are still to come: its answer, the budget, and what it has not
read. -/
def readFrame (maxBody : Nat) (budget : Budget) (tick : Nat × Nat) (bytes : Bytes) :
    Except WireError Incoming × Budget × Bytes :=
  let ceiling := min maxBody FRAME_BODY_MAX_BYTES
  if bytes.length = 0 then (.ok .closed, budget, [])
  else if bytes.length < FRAME_LENGTH_PREFIX_BYTES then
    (.error (.io "read frame length"), budget, [])
  else
    let announced := ofBigEndian (bytes.take FRAME_LENGTH_PREFIX_BYTES)
    let rest := bytes.drop FRAME_LENGTH_PREFIX_BYTES
    if announced < FRAME_BODY_MIN_BYTES then
      (.error ⟨.frameSize, s!"frame body_length {announced} is below the " ++
        s!"{FRAME_BODY_MIN_BYTES}-byte minimum"⟩, budget, rest)
    else if ceiling < announced then
      (.error ⟨.frameSize, s!"frame body_length {announced} exceeds the " ++
        s!"{ceiling}-byte maximum"⟩, budget, rest)
    else
      match budget.spend .ingress (FRAME_LENGTH_PREFIX_BYTES + announced) tick with
      | .error error => (.error error, budget, rest)
      | .ok budget =>
        if rest.length < announced then (.error (.io "read frame body"), budget, [])
        else
          let kindByte := rest.headD 0
          match FrameKind.fromU8 kindByte with
          | none => (.error ⟨.handshake, s!"unknown frame kind 0x{Blob.hexLower [kindByte]}"⟩,
              budget, rest.drop announced)
          | some kind =>
            (.ok (.frame ⟨kind, (rest.take announced).tail⟩), budget, rest.drop announced)

/-- What `write_frame` puts on the stream. -/
def Frame.encode (frame : Frame) : Bytes :=
  toBigEndian FRAME_LENGTH_PREFIX_BYTES frame.announced ++ frame.kind.asU8 :: frame.body

/-- `write_frame`: what it writes, and the budget. -/
def writeFrame (budget : Budget) (tick : Nat × Nat) (frame : Frame) :
    Except WireError (Bytes × Budget) := do
  require (frame.announced < 2 ^ 32)
    ⟨.frameSize, s!"frame body {frame.body.length} bytes does not fit a u32 length"⟩
  require (frame.announced ≤ FRAME_BODY_MAX_BYTES)
    ⟨.frameSize, s!"frame body_length {frame.announced} exceeds the " ++
      s!"{FRAME_BODY_MAX_BYTES}-byte maximum"⟩
  let budget ← budget.spend .egress (FRAME_LENGTH_PREFIX_BYTES + frame.announced) tick
  return (frame.encode, budget)

/-! ## One frame -/

variable {frame : Frame} {frames : List Frame}

/-- The frame may be read: it is within the caller's and the protocol's maximum, and a window has
room for it. -/
structure Frame.Legal (maxBody : Nat) (budget : Budget) (direction : Direction) (frame : Frame) :
    Prop where
  short : frame.announced ≤ min maxBody FRAME_BODY_MAX_BYTES
  room : FRAME_LENGTH_PREFIX_BYTES + frame.announced ≤ budget.perWindow direction

theorem Frame.length_encode (frame : Frame) :
    frame.encode.length = FRAME_LENGTH_PREFIX_BYTES + frame.announced := by
  rw [encode, length_append, length_toBigEndian, length_cons, announced]

theorem announced_of_take (legal : frame.Legal maxBody budget direction) (rest : Bytes) :
    ofBigEndian ((toBigEndian FRAME_LENGTH_PREFIX_BYTES frame.announced ++
      rest).take FRAME_LENGTH_PREFIX_BYTES) = frame.announced := by
  have small : frame.announced < 256 ^ FRAME_LENGTH_PREFIX_BYTES :=
    lt_of_le_of_lt (le_trans legal.short (min_le_right ..)) (by decide)
  rw [take_left' (length_toBigEndian ..), ofBigEndian_toBigEndian small]

section

variable (legal : frame.Legal maxBody budget .ingress)
include legal

theorem readFrame_announced (tick : Nat × Nat) (rest : Bytes) :
    ∃ after : Budget, after.perWindow = budget.perWindow ∧ readFrame maxBody budget tick
          (toBigEndian FRAME_LENGTH_PREFIX_BYTES frame.announced ++ rest) =
        if rest.length < frame.announced then (.error (.io "read frame body"), after, [])
        else
          match FrameKind.fromU8 (rest.headD 0) with
          | none => (.error ⟨.handshake,
              s!"unknown frame kind 0x{Blob.hexLower [rest.headD 0]}"⟩, after,
              rest.drop frame.announced)
          | some kind => (.ok (.frame ⟨kind, (rest.take frame.announced).tail⟩), after,
              rest.drop frame.announced) := by
  obtain ⟨after, spent, eq⟩ := Budget.exists_spend legal.room tick
  refine ⟨after, eq, ?_⟩
  have length : (toBigEndian FRAME_LENGTH_PREFIX_BYTES frame.announced ++ rest).length =
      FRAME_LENGTH_PREFIX_BYTES + rest.length := by
    rw [length_append, length_toBigEndian]
  have four : FRAME_LENGTH_PREFIX_BYTES = 4 := rfl
  rw [readFrame, if_neg (by omega), if_neg (by omega)]
  simp only [announced_of_take legal rest]
  have enough : ¬ frame.announced < FRAME_BODY_MIN_BYTES := Nat.not_lt.mpr (Nat.le_add_left ..)
  rw [if_neg enough, if_neg (not_lt.mpr legal.short), spent]
  simp only [drop_left' (length_toBigEndian FRAME_LENGTH_PREFIX_BYTES _)]

/-- **A frame is read back**, and what follows it is left. -/
theorem readFrame_encode (tick : Nat × Nat) (rest : Bytes) :
    ∃ after : Budget, after.perWindow = budget.perWindow ∧
      readFrame maxBody budget tick (frame.encode ++ rest) = (.ok (.frame frame), after, rest) := by
  obtain ⟨after, eq, reads⟩ :=
    readFrame_announced legal tick (frame.kind.asU8 :: frame.body ++ rest)
  have length : (frame.kind.asU8 :: frame.body).length = frame.announced := rfl
  refine ⟨after, eq, ?_⟩
  rw [Frame.encode, append_assoc, reads, if_neg (by rw [length_append]; omega),
    take_left' length, drop_left' length, cons_append, headD_cons,
    FrameKind.fromU8_asU8]
  rfl

/-- **A frame that is cut short is an error.** -/
theorem readFrame_take (tick : Nat × Nat)
    (positive : 0 < cut) (inside : cut < frame.encode.length) :
    ∃ error after, readFrame maxBody budget tick (frame.encode.take cut) =
      (.error error, after, []) := by
  have length : (frame.encode.take cut).length = cut := length_take_of_le (le_of_lt inside)
  rw [Frame.length_encode] at inside
  rcases lt_or_ge cut FRAME_LENGTH_PREFIX_BYTES with early | late
  · rw [readFrame, length, if_neg (ne_of_gt positive), if_pos early]
    exact ⟨_, _, rfl⟩
  · have parts : frame.encode.take cut = toBigEndian FRAME_LENGTH_PREFIX_BYTES frame.announced ++
          (frame.kind.asU8 :: frame.body).take (cut - FRAME_LENGTH_PREFIX_BYTES) := by
      rw [Frame.encode, take_append, length_toBigEndian,
        take_of_length_le (by rw [length_toBigEndian]; exact late)]
    obtain ⟨after, -, reads⟩ := readFrame_announced legal tick
      ((frame.kind.asU8 :: frame.body).take (cut - FRAME_LENGTH_PREFIX_BYTES))
    have short : ((frame.kind.asU8 :: frame.body).take (cut - FRAME_LENGTH_PREFIX_BYTES)).length <
        frame.announced := by
      rw [length_take]
      omega
    rw [parts, reads, if_pos short]
    exact ⟨_, _, rfl⟩

end

/-- **A length past the maximum is refused where it stands**: nothing behind it is read, and
nothing is charged. -/
theorem readFrame_oversized {header : Bytes} (length : header.length = FRAME_LENGTH_PREFIX_BYTES)
    (beyond : min maxBody FRAME_BODY_MAX_BYTES < ofBigEndian header) (tick : Nat × Nat)
    (rest : Bytes) :
    readFrame maxBody budget tick (header ++ rest) =
      (.error ⟨.frameSize, s!"frame body_length {ofBigEndian header} exceeds the " ++
        s!"{min maxBody FRAME_BODY_MAX_BYTES}-byte maximum"⟩, budget, rest) := by
  have four : FRAME_LENGTH_PREFIX_BYTES = 4 := rfl
  have whole : (header ++ rest).length = FRAME_LENGTH_PREFIX_BYTES + rest.length := by
    rw [length_append, length]
  rw [readFrame, if_neg (by omega), if_neg (by omega)]
  simp only [take_left' length, drop_left' length]
  have enough : ¬ ofBigEndian header < FRAME_BODY_MIN_BYTES :=
    not_lt.mpr (zero_lt_of_lt beyond)
  rw [if_neg enough, if_pos beyond]

theorem writeFrame_eq_ok (legal : frame.Legal maxBody budget .egress) (tick : Nat × Nat) :
    ∃ after : Budget, after.perWindow = budget.perWindow ∧
      writeFrame budget tick frame = .ok (frame.encode, after) := by
  obtain ⟨after, spent, eq⟩ := Budget.exists_spend legal.room tick
  have short : frame.announced ≤ FRAME_BODY_MAX_BYTES :=
    le_trans legal.short (min_le_right ..)
  have small : frame.announced < 2 ^ 32 := lt_of_le_of_lt short (by decide)
  refine ⟨after, eq, ?_⟩
  rw [writeFrame, require, if_pos small, require, if_pos short, spent]
  rfl

/-! ## Streams of frames -/

theorem readFrame_shorter {after : Budget} {tick : Nat × Nat} {bytes rest : Bytes}
    (reads : readFrame maxBody budget tick bytes = (.ok (.frame frame), after, rest)) :
    rest.length < bytes.length := by
  have four : FRAME_LENGTH_PREFIX_BYTES = 4 := rfl
  unfold readFrame at reads
  dsimp only at reads
  repeat' split at reads
  all_goals cases reads
  rw [length_drop, length_drop]
  omega

/-- Read frames until the peer closes or an error ends the connection. -/
def readAll (maxBody : Nat) (budget : Budget) (ticks : Nat → Nat × Nat) (bytes : Bytes) :
    List Frame × Except WireError Unit :=
  match _reads : readFrame maxBody budget (ticks 0) bytes with
  | (.ok (.frame frame), after, rest) =>
    let more := readAll maxBody after (fun turn => ticks (turn + 1)) rest
    (frame :: more.1, more.2)
  | (.ok .closed, _, _) => ([], .ok ())
  | (.error error, _, _) => ([], .error error)
termination_by bytes.length
decreasing_by exact readFrame_shorter _reads

theorem readAll_eq (maxBody : Nat) (budget : Budget) (ticks : Nat → Nat × Nat) (bytes : Bytes) :
    readAll maxBody budget ticks bytes =
      match readFrame maxBody budget (ticks 0) bytes with
      | (.ok (.frame frame), after, rest) =>
        (frame :: (readAll maxBody after (fun turn => ticks (turn + 1)) rest).1,
          (readAll maxBody after (fun turn => ticks (turn + 1)) rest).2)
      | (.ok .closed, _, _) => ([], .ok ())
      | (.error error, _, _) => ([], .error error) := by
  rw [readAll]
  split
  next reads => rw [reads]
  next reads => rw [reads]
  next reads => rw [reads]

def writeAll (budget : Budget) (ticks : Nat → Nat × Nat) : List Frame → Except WireError Bytes
  | [] => .ok []
  | frame :: frames => do
    let (bytes, after) ← writeFrame budget (ticks 0) frame
    return bytes ++ (← writeAll after (fun turn => ticks (turn + 1)) frames)

theorem Frame.Legal.after {after : Budget}
    (legal : ∀ frame ∈ frames, frame.Legal maxBody budget direction)
    (eq : after.perWindow = budget.perWindow) :
    ∀ frame ∈ frames, frame.Legal maxBody after direction :=
  fun frame mem => ⟨(legal frame mem).short, eq ▸ (legal frame mem).room⟩

theorem writeAll_eq_ok (legal : ∀ frame ∈ frames, frame.Legal maxBody budget .egress)
    (ticks : Nat → Nat × Nat) :
    writeAll budget ticks frames = .ok (frames.flatMap Frame.encode) := by
  induction frames generalizing budget ticks with
  | nil => rfl
  | cons frame frames ih =>
    obtain ⟨after, eq, written⟩ := writeFrame_eq_ok (legal frame mem_cons_self) (ticks 0)
    rw [writeAll, written, ok_bind]
    dsimp only
    rw [ih (Frame.Legal.after (forall_mem_of_forall_mem_cons legal) eq)]
    rfl

theorem readAll_flatMap (legal : ∀ frame ∈ frames, frame.Legal maxBody budget .ingress)
    (ticks : Nat → Nat × Nat) (rest : Bytes) :
    ∃ (after : Budget) (later : Nat → Nat × Nat), after.perWindow = budget.perWindow ∧
      readAll maxBody budget ticks (frames.flatMap Frame.encode ++ rest) =
        (frames ++ (readAll maxBody after later rest).1, (readAll maxBody after later rest).2) := by
  induction frames generalizing budget ticks with
  | nil => exact ⟨budget, ticks, rfl, rfl⟩
  | cons frame frames ih =>
    obtain ⟨after, eq, reads⟩ := readFrame_encode (legal frame mem_cons_self) (ticks 0)
      (frames.flatMap Frame.encode ++ rest)
    obtain ⟨last, later, still, all⟩ := ih
      (Frame.Legal.after (forall_mem_of_forall_mem_cons legal) eq) (fun turn => ticks (turn + 1))
    refine ⟨last, later, still.trans eq, ?_⟩
    rw [flatMap_cons, append_assoc, readAll_eq, reads]
    simp only [all, cons_append]

/-- **The frame stream codec.**  Frames within the maximum, written back to back under a budget
with room for each of them, are read back as the same list, and then the stream is closed; a
stream cut inside a frame gives the frames before it and then an error; and a header that
announces more than the maximum is refused with everything behind it unread. -/
theorem frames_read_back {writer reader : Budget}
    (written : ∀ frame ∈ frames, frame.Legal maxBody writer .egress)
    (readable : ∀ frame ∈ frames, frame.Legal maxBody reader .ingress)
    (writes reads : Nat → Nat × Nat) :
    (∃ bytes, writeAll writer writes frames = .ok bytes ∧
      readAll maxBody reader reads bytes = (frames, .ok ()) ∧
      ∀ before frame after, frames = before ++ frame :: after → ∀ cut, 0 < cut →
        cut < frame.encode.length →
        bytes.take ((before.flatMap Frame.encode).length + cut) =
            before.flatMap Frame.encode ++ frame.encode.take cut ∧
          ∃ error, readAll maxBody reader reads
            (bytes.take ((before.flatMap Frame.encode).length + cut)) = (before, .error error)) ∧
    ∀ header rest : Bytes, header.length = FRAME_LENGTH_PREFIX_BYTES →
      min maxBody FRAME_BODY_MAX_BYTES < ofBigEndian header → ∀ tick, ∃ message,
        readFrame maxBody reader tick (header ++ rest) =
          (.error ⟨.frameSize, message⟩, reader, rest) := by
  refine ⟨⟨_, writeAll_eq_ok written writes, ?_, ?_⟩, fun header rest length beyond tick =>
    ⟨_, readFrame_oversized length beyond tick rest⟩⟩
  · obtain ⟨last, later, -, all⟩ := readAll_flatMap readable reads []
    rw [append_nil] at all
    rw [all, readAll_eq]
    exact congrArg (·, Except.ok ()) (append_nil frames)
  · rintro before frame after rfl cut positive inside
    have cutsThere : ((before ++ frame :: after).flatMap Frame.encode).take
        ((before.flatMap Frame.encode).length + cut) =
        before.flatMap Frame.encode ++ frame.encode.take cut := by
      rw [flatMap_append, flatMap_cons, take_length_add_append,
        take_append_of_le_length (Nat.le_of_lt inside)]
    refine ⟨cutsThere, ?_⟩
    obtain ⟨last, later, eq, all⟩ := readAll_flatMap
      (fun other mem => readable other (mem_append_left _ mem)) reads
      (frame.encode.take cut)
    have legal : frame.Legal maxBody last .ingress := by
      have own := readable frame (mem_append_right _ mem_cons_self)
      exact ⟨own.short, eq ▸ own.room⟩
    obtain ⟨error, _, ends⟩ := readFrame_take legal (later 0) positive inside
    have nothing : readAll maxBody last later (frame.encode.take cut) = ([], .error error) := by
      rw [readAll_eq, ends]
    exact ⟨error, by rw [cutsThere, all, nothing, append_nil]⟩

theorem frames_read_back_two : ∃ bytes error,
    writeAll ⟨fun _ => 8, 60, fun _ => 0⟩ (fun _ => (0, 0))
      [⟨.json, [1, 2]⟩, ⟨.ptyRaw, []⟩] = .ok bytes ∧
    readAll 16 ⟨fun _ => 8, 60, fun _ => 0⟩ (fun _ => (0, 0)) (bytes.take 9) =
      ([⟨.json, [1, 2]⟩], .error error) := by
  have legal (direction : Direction) : ∀ frame ∈ [(⟨.json, [1, 2]⟩ : Frame), ⟨.ptyRaw, []⟩],
      frame.Legal 16 ⟨fun _ => 8, 60, fun _ => 0⟩ direction := by
    intro frame mem
    rcases mem_pair.mp mem with rfl | rfl
    · exact ⟨by decide, (by decide : 7 ≤ 8)⟩
    · exact ⟨by decide, (by decide : 5 ≤ 8)⟩
  obtain ⟨⟨bytes, written, -, cuts⟩, -⟩ :=
    frames_read_back (legal .egress) (legal .ingress) (fun _ => (0, 0)) (fun _ => (0, 0))
  obtain ⟨-, error, ends⟩ := cuts [⟨.json, [1, 2]⟩] ⟨.ptyRaw, []⟩ [] rfl 2 (by decide) (by decide)
  exact ⟨bytes, error, written, ends⟩

end Gridwork.Wire
