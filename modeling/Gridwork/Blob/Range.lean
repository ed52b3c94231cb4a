import Gridwork.Blob.Committed
import Gridwork.Blob.Opening

/-!
# Ranged reads

A read of a held blob answers the slice that was asked for, cut to one chunk and to the end of
the blob.  Its arithmetic is done in 64 bits; `readPlan` follows it operation by operation and
gives up where one of them would leave the range, and `readPlan_eq` says that none does for a
blob that fits a container.

Two loops put a blob together from such reads, `ContextCasStore::get` and `read_blob` of the
recovery.  Both are `gather` with a request and a complaint of their own.  Other calls may move the
store between any two operations; as long as they leave the blob in place, the loops answer the
plaintext after as many reads as it has chunks (`reads_are_slices`).
-/

namespace Gridwork.Blob

open Lib List Option Fallible Program Nat FoundBlob
open Context (ContentClass)

/-! ## The arithmetic of a read -/

section Words

def addWord (left right : Nat) : Option Nat :=
  if left + right < 2 ^ 64 then some (left + right) else none

def subWord (left right : Nat) : Option Nat :=
  if right ≤ left then some (left - right) else none

def mulWord (left right : Nat) : Option Nat :=
  if left * right < 2 ^ 64 then some (left * right) else none

variable {left right byteSize : Nat}

theorem addWord_eq (small : left + right < 2 ^ 64) : addWord left right = some (left + right) :=
  if_pos small

theorem subWord_eq (below : right ≤ left) : subWord left right = some (left - right) :=
  if_pos below

theorem mulWord_eq (small : left * right < 2 ^ 64) : mulWord left right = some (left * right) :=
  if_pos small

/-- `u64::div_ceil`: the quotient, and one more where something is left. -/
def divCeilWord (left right : Nat) : Option Nat :=
  if left % right = 0 then some (left / right) else addWord (left / right) 1

def chunkCountWord (byteSize : Nat) : Option Nat :=
  (divCeilWord byteSize BLOB_CHUNK_BYTES).map (max 1)

def chunkOffsetWord (headerLen index : Nat) : Option Nat := do
  addWord headerLen (← mulWord index FRAMED_CHUNK_BYTES)

/-- The numbers a read computes: how much it answers, which chunks it opens and where they start,
and where in the opened bytes its answer lies. -/
structure Plan where
  (length finalIndex first last capacity : Nat)
  offsets : List Nat
  (start stop : Nat)

/-- The arithmetic of `read`, in its order.  There is no plan where the answer is empty. -/
def readPlan (size headerLen offset length : Nat) : Option (Option Plan) := do
  if size ≤ offset then return none
  let length := min (min length BLOB_CHUNK_BYTES) (← subWord size offset)
  if length = 0 then return none
  let finalIndex ← subWord (← chunkCountWord size) 1
  let first := offset / BLOB_CHUNK_BYTES
  let last := (← subWord (← addWord offset length) 1) / BLOB_CHUNK_BYTES
  let capacity ← addWord length BLOB_CHUNK_BYTES
  let offsets ← (List.range' first (last + 1 - first)).mapM (chunkOffsetWord headerLen)
  let start ← subWord offset (← mulWord first BLOB_CHUNK_BYTES)
  let stop ← addWord start length
  return some ⟨length, finalIndex, first, last, capacity, offsets, start, stop⟩

/-- The numbers `readFound` and `readRange` use, which know no width. -/
def rangePlan (size headerLen offset length : Nat) : Option Plan :=
  let length := clampLength size offset length
  let start := offset - offset / BLOB_CHUNK_BYTES * BLOB_CHUNK_BYTES
  if length = 0 then none
  else some ⟨length, chunkCount size - 1, offset / BLOB_CHUNK_BYTES,
    (offset + length - 1) / BLOB_CHUNK_BYTES, length + BLOB_CHUNK_BYTES,
    (touched BLOB_CHUNK_BYTES offset length).map (chunkOffset headerLen), start, start + length⟩

theorem divCeilWord_eq (positive : 0 < right) (small : left + 1 < 2 ^ 64) :
    divCeilWord left right = some ((left + (right - 1)) / right) := by
  have parts : left = right * (left / right) + left % right := (div_add_mod left right).symm
  have remains : left % right < right := mod_lt left positive
  have quotient : left / right ≤ left := div_le_self left right
  rw [divCeilWord]
  split
  next divides =>
    have ceiling : (left + (right - 1)) / right = left / right :=
      Nat.div_eq_of_lt_le (by rw [Nat.mul_comm]; omega) (by rw [Nat.succ_mul, Nat.mul_comm]; omega)
    rw [ceiling]
  next leaves =>
    have ceiling : (left + (right - 1)) / right = left / right + 1 :=
      Nat.div_eq_of_lt_le (by rw [Nat.succ_mul, Nat.mul_comm]; omega)
        (by rw [succ_mul, succ_mul, mul_comm]; omega)
    rw [ceiling, addWord_eq (by omega)]

theorem chunkCountWord_eq (small : byteSize + 1 < 2 ^ 64) :
    chunkCountWord byteSize = some (chunkCount byteSize) := by
  rw [chunkCountWord, divCeilWord_eq BLOB_CHUNK_BYTES_pos small, map_some, chunkCount, max_comm]

theorem chunkOffsetWord_eq {headerLen index : Nat}
    (small : headerLen + index * FRAMED_CHUNK_BYTES < 2 ^ 64) :
    chunkOffsetWord headerLen index = some (chunkOffset headerLen index) := by
  rw [chunkOffsetWord, mulWord_eq (by omega), chunkOffset, bind_eq_bind, bind_some,
    addWord_eq small]

theorem mapM_eq_some {Item Answer : Type} {compute : Item → Option Answer} {answer : Item → Answer}
    {items : List Item} (each : ∀ item ∈ items, compute item = some (answer item)) :
    items.mapM compute = some (items.map answer) := by
  induction items with
  | nil => rfl
  | cons item rest ih =>
    rw [mapM_cons, each item mem_cons_self,
      ih fun other mem => each other (mem_cons_of_mem _ mem)]
    rfl

/-- **No operation of a read overflows.**  For a blob of at most 2³² chunks and a header of at most
2³² bytes the numbers in 64 bits are the numbers themselves, whatever range is asked for. -/
theorem readPlan_eq {size headerLen : Nat} (fits : chunkCount size ≤ 2 ^ 32)
    (short : headerLen ≤ 2 ^ 32) (offset length : Nat) :
    readPlan size headerLen offset length = some (rangePlan size headerLen offset length) := by
  have positive := BLOB_CHUNK_BYTES_pos
  have width : BLOB_CHUNK_BYTES = 2 ^ 20 := rfl
  have small : size ≤ 2 ^ 52 := by
    have chunks := Nat.le_trans (le_chunkCount_mul size) (Nat.mul_le_mul_right _ fits)
    rw [width] at chunks
    omega
  rw [readPlan, rangePlan, clampLength]
  by_cases outside : size ≤ offset
  · rw [if_pos outside, Nat.sub_eq_zero_of_le outside, Nat.min_zero, if_pos rfl]
    rfl
  rw [if_neg outside, subWord_eq (Nat.le_of_not_le outside)]
  simp only [Option.pure_def, bind_eq_bind, bind_some]
  generalize cut : min (min length BLOB_CHUNK_BYTES) (size - offset) = count
  by_cases empty : count = 0
  · rw [if_pos empty, if_pos empty]
  have inside : offset + count ≤ size := by omega
  have startsIn : offset / BLOB_CHUNK_BYTES * BLOB_CHUNK_BYTES ≤ offset := Nat.div_mul_le_self ..
  have someChunk : 1 ≤ chunkCount size := Nat.le_max_right _ _
  have seeks : ∀ index ∈ touched BLOB_CHUNK_BYTES offset count,
      chunkOffsetWord headerLen index = some (chunkOffset headerLen index) := by
    intro index mem
    have before : index < 2 ^ 32 :=
      Nat.lt_of_le_of_lt (mem_touched mem)
        (Nat.lt_of_lt_of_le (div_lt_chunkCount (by omega)) fits)
    have framed : FRAMED_CHUNK_BYTES ≤ 2 ^ 21 := by decide
    have offsets := Nat.mul_le_mul (Nat.le_of_lt before) framed
    exact chunkOffsetWord_eq (by omega)
  rw [if_neg empty, if_neg empty, chunkCountWord_eq (by omega), bind_some,
    subWord_eq someChunk, bind_some, addWord_eq (by omega), bind_some,
    subWord_eq (by omega), bind_some, addWord_eq (by omega), bind_some,
    ← touched, mapM_eq_some seeks, bind_some, mulWord_eq (by omega), bind_some,
    subWord_eq startsIn, bind_some, addWord_eq (by omega), bind_some]

end Words

/-! ## Reads while others move the store -/

section Reads

variable {crypto : Crypto} {config : BlobConfig crypto} {address : BlobAddress}
  {row : BlobRow crypto} {sealing : Sealing crypto} {states : Nat → Store crypto}

/-- A read looks at the row, and at the container where there is anything to answer. -/
def readSteps (size offset length : Nat) : Nat :=
  if clampLength size offset length = 0 then 1 else 2

/-- **A held blob is read in slices**, whatever else happens to the store meanwhile. -/
theorem during_read (held : ∀ moment, HeldAs config address row sealing (states moment))
    (offset length : Nat) :
    during (system config) .plain (read config address offset length) states =
      some (.ok (slice sealing.plaintext offset
          (clampLength sealing.plaintext.length offset length)),
        readSteps sealing.plaintext.length offset length) := by
  obtain ⟨hit, opened, shape, finds, opens⟩ := (held 0).read_eq offset length
  rw [shape, during_op, show (system config).exec = exec config from rfl,
    (held 0).exec_selectBlob, bind_some, finds, readSteps]
  split
  next empty =>
    rw [empty, slice, take_zero]
    rfl
  next nonempty =>
    rw [during_op, show (system config).exec = exec config from rfl,
      (held _).exec_openContainer, bind_some, opens nonempty]
    rfl

end Reads

/-! ## The loops -/

section Loops

variable {crypto : Crypto} {states : Nat → Store crypto}

/-- Read until `size` bytes are there.  Every turn asks for something of what is missing; a read
that answers nothing ends the loop with a complaint. -/
def gather {ε : Type} (readAt : Nat → Nat → Fallible (signature crypto) ε Bytes)
    (ask : Nat → Nat) (stalled : Nat → ε) (size : Nat) (out : Bytes) :
    Fallible (signature crypto) ε Bytes :=
  if _short : out.length < size then do
    let part ← readAt out.length (ask (size - out.length))
    if _empty : part.length = 0 then Fallible.lift (.error (stalled out.length))
    else gather readAt ask stalled size (out ++ part)
  else pure out
termination_by size - out.length
decreasing_by
  rw [length_append]
  omega

/-- `read_blob` of the recovery, for the size a checkpoint row declares. -/
def readBlob (config : BlobConfig crypto) (address : BlobAddress) (size : Nat) :
    Action crypto Bytes :=
  gather (read config address) (min · BLOB_CHUNK_BYTES)
    (fun got => .integrity s!"records end at {got} of a declared {size} bytes") size []

/-- What `ContextCasStore::get` refuses with. -/
inductive ContextCasError where
  | notFound
  | wrongContentClass (digest : BlobAddress) (stored requested : ContentClass)
  | blob (error : BlobError)

/-- `ContextCasStore::get`, with what `class_row` answered for the digest.  Every content class has
a store of its own over the same rows and files. -/
def get (configs : ContentClass → BlobConfig crypto) (classRow : Option ContentClass)
    (digest : BlobAddress) (content : ContentClass) :
    Fallible (signature crypto) ContextCasError Bytes := do
  let stored ← Fallible.need classRow .notFound
  Fallible.check (stored = content) (.wrongContentClass digest stored content)
  let hit : Option BlobDescriptor ← (stat digest).mapError .blob
  let descriptor ← Fallible.need hit .notFound
  gather (fun offset length => (read (configs content) digest offset length).mapError .blob) id
    (fun _ => .blob (.storage "read context blob: the read stalled short of its size"))
    descriptor.byteSize []

def turns (bytes : Nat) : Nat :=
  (bytes + (BLOB_CHUNK_BYTES - 1)) / BLOB_CHUNK_BYTES

theorem turns_zero : turns 0 = 0 :=
  div_eq_of_lt (by have := BLOB_CHUNK_BYTES_pos; omega)

theorem turns_succ {bytes : Nat} (positive : 0 < bytes) :
    turns bytes = turns (bytes - min BLOB_CHUNK_BYTES bytes) + 1 := by
  have width := BLOB_CHUNK_BYTES_pos
  rcases le_total bytes BLOB_CHUNK_BYTES with last | more
  · rw [Nat.min_eq_right last, Nat.sub_self, turns_zero]
    exact Nat.div_eq_of_lt_le (by omega) (by omega)
  · rw [min_eq_left more, turns, turns, ← add_div_right _ width]
    congr 1
    omega

section Gathered

variable {ε : Type} {config : BlobConfig crypto} {kept : Store crypto → Prop} {plaintext : Bytes}
  {readAt : Nat → Nat → Fallible (signature crypto) ε Bytes} {ask : Nat → Nat}

variable (reads : ∀ {states : Nat → Store crypto}, (∀ moment, kept (states moment)) →
    ∀ offset length, Program.during (system config) .plain (readAt offset length) states =
      some (.ok (slice plaintext offset (clampLength plaintext.length offset length)),
        readSteps plaintext.length offset length))
  (asks : ∀ missing, min (ask missing) BLOB_CHUNK_BYTES = min missing BLOB_CHUNK_BYTES)
  (stalled : Nat → ε)

include reads asks

/-- **The loops end, after one read for every chunk.**  Every read gets further by a chunk or to the
end; more bytes than there are end the loop with its complaint. -/
theorem during_gather {size got : Nat}
    (held : ∀ moment, kept (states moment)) (within : got ≤ min size plaintext.length) :
    during (system config) .plain (gather readAt ask stalled size (plaintext.take got)) states =
      some (if size ≤ plaintext.length then .ok (plaintext.take size)
          else .error (stalled plaintext.length),
        2 * turns (min size plaintext.length - got) +
          if size ≤ plaintext.length then 0 else 1) := by
  have width := BLOB_CHUNK_BYTES_pos
  -- The measure is what is missing; a turn with nothing left to read is the last one.
  induction measured : min size plaintext.length - got using Nat.strong_induction_on
    generalizing got states with
  | _ missing ih =>
    have gotten : (plaintext.take got).length = got := length_take_of_le (by omega)
    rw [gather, gotten]
    by_cases short : got < size
    · rw [dif_pos short, during_bind (reads held got _)]
      have taken : clampLength plaintext.length got (ask (size - got)) =
          min BLOB_CHUNK_BYTES missing := by
        rw [clampLength, asks]
        omega
      rw [readSteps, taken]
      by_cases more : 0 < missing
      · have part : (slice plaintext got (min BLOB_CHUNK_BYTES missing)).length =
            min BLOB_CHUNK_BYTES missing := length_slice (by omega)
        have longer : plaintext.take got ++ slice plaintext got (min BLOB_CHUNK_BYTES missing) =
            plaintext.take (got + min BLOB_CHUNK_BYTES missing) := take_add.symm
        have left : min size plaintext.length - (got + min BLOB_CHUNK_BYTES missing) =
            missing - min BLOB_CHUNK_BYTES missing := by omega
        rw [part, dif_neg (by omega), if_neg (by omega), longer,
          ih _ (by omega) (fun moment => held _) (by omega) left, turns_succ more,
          map_some]
        exact congrArg (fun steps => some (_, steps)) (by omega)
      · have none : missing = 0 := by omega
        have beyond : ¬ size ≤ plaintext.length := by omega
        have atEnd : got = plaintext.length := by omega
        rw [none, min_zero, if_pos rfl, if_neg beyond, if_neg beyond, turns_zero,
          show slice plaintext got 0 = [] from take_zero, dif_pos length_nil, atEnd]
        rfl
    · have enough : size ≤ plaintext.length := by omega
      have whole : got = size := by omega
      rw [dif_neg short, if_pos enough, if_pos enough, show missing = 0 by omega, turns_zero, whole]
      rfl

theorem during_gather_whole (held : ∀ moment, kept (states moment)) :
    during (system config) .plain (gather readAt ask stalled plaintext.length []) states =
      some (.ok plaintext, 2 * turns plaintext.length) := by
  have gathered := during_gather reads asks stalled held (zero_le (min plaintext.length _))
  rwa [take_zero, Nat.min_self, Nat.sub_zero, if_pos (Nat.le_refl _),
    if_pos (le_refl _), take_length, add_zero] at gathered

end Gathered

section Held

variable {config : BlobConfig crypto} {address : BlobAddress} {row : BlobRow crypto}
  {sealing : Sealing crypto} {states : Nat → Store crypto}

section

variable (held : ∀ moment, HeldAs config address row sealing (states moment))
include held

theorem during_readBlob (size : Nat) :
    during (system config) .plain (readBlob config address size) states =
      some (if size ≤ sealing.plaintext.length then .ok (sealing.plaintext.take size)
          else .error (.integrity
            s!"records end at {sealing.plaintext.length} of a declared {size} bytes"),
        2 * turns (min size sealing.plaintext.length) +
          if size ≤ sealing.plaintext.length then 0 else 1) :=
  during_gather (fun kept offset length => during_read kept offset length)
    (fun missing => by rw [min_assoc, min_self]) _ held (zero_le _)

theorem during_stat : during (system config) .plain (stat address) states =
      some (.ok (some (descriptor ⟨row, (states 0).pinned address⟩ address)), 1) := by
  have alive : ¬ row.tombstoned = true := by
    rw [(held 0).live]
    exact Bool.false_ne_true
  rw [stat, during_op, show (system config).exec = exec config from rfl,
    (held 0).exec_selectBlob, bind_some]
  simp only [any_some, check_bind alive]
  rfl

end

variable {configs : ContentClass → BlobConfig crypto} {content : ContentClass}

theorem during_get (held : ∀ moment, HeldAs (configs content) address row sealing (states moment)) :
    during (system (configs content)) .plain (get configs (some content) address content) states =
      some (.ok sealing.plaintext, 1 + 2 * turns sealing.plaintext.length) := by
  have described : during (system (configs content)) .plain
      ((stat address).mapError ContextCasError.blob) states =
      some (.ok (some (descriptor ⟨row, (states 0).pinned address⟩ address)), 1) := by
    rw [during_mapError, during_stat held]
    rfl
  rw [get, need_bind, check_bind rfl, during_bind described, need_bind]
  have sized : (descriptor ⟨row, (states 0).pinned address⟩ address).byteSize =
      sealing.plaintext.length := (held 0).byteSize
  have reads {states : Nat → Store crypto}
      (kept : ∀ moment, HeldAs (configs content) address row sealing (states moment))
      (offset length : Nat) : during (system (configs content)) .plain
        ((read (configs content) address offset length).mapError ContextCasError.blob) states =
      some (.ok (slice sealing.plaintext offset
          (clampLength sealing.plaintext.length offset length)),
        readSteps sealing.plaintext.length offset length) := by
    rw [during_mapError, during_read kept]
    rfl
  rw [sized, add_comm 1]
  exact congrArg (Option.map _)
    (during_gather_whole reads (fun _ => rfl) _ fun moment => held (moment + 1))

/-- **Ranged reads are slices, and the loops over them answer the whole.**  While a blob is held,
whatever the other calls do to the rest of the store, a read of any range answers the part of it
that lies in the blob, cut to one chunk; the numbers it computes on the way are the same in 64
bits; and `read_blob` and `get` answer the plaintext, after one read for every chunk of it. -/
theorem reads_are_slices
    (held : ∀ moment, HeldAs (configs content) address row sealing (states moment)) :
    (∀ offset length, Program.during (system (configs content)) .plain
          (read (configs content) address offset length) states =
        some (.ok (slice sealing.plaintext offset
            (min (min length BLOB_CHUNK_BYTES) (sealing.plaintext.length - offset))),
          readSteps sealing.plaintext.length offset length) ∧
      (sealing.plaintext.length ≤ offset ∨ length = 0 →
        Program.during (system (configs content)) .plain
          (read (configs content) address offset length) states = some (.ok [], 1)) ∧
      readPlan row.byteSize sealing.aad.length offset length =
        some (rangePlan row.byteSize sealing.aad.length offset length)) ∧
    Program.during (system (configs content)) .plain
        (readBlob (configs content) address row.byteSize) states =
      some (.ok sealing.plaintext, 2 * turns sealing.plaintext.length) ∧
    Program.during (system (configs content)) .plain (get configs (some content) address content)
        states =
      some (.ok sealing.plaintext, 1 + 2 * turns sealing.plaintext.length) := by
  have fits : sealing.Fits := (held 0).fits
  have short : sealing.aad.length ≤ 2 ^ 32 := by
    have media := fits.mediaType
    have label := fits.kekId
    have fixed : FIXED_HEADER_BYTES ≤ 2 ^ 16 := by decide
    rw [Sealing.length_aad, headerLen]
    omega
  refine ⟨fun offset length => ⟨during_read held offset length, fun empty => ?_, ?_⟩, ?_,
    during_get held⟩
  · have nothing : clampLength sealing.plaintext.length offset length = 0 := by
      rw [clampLength]
      omega
    rw [during_read held, readSteps, if_pos nothing, nothing, slice, take_zero]
  · rw [(held 0).byteSize]
    exact readPlan_eq fits.count short offset length
  · rw [(held 0).byteSize, during_readBlob held, if_pos (Nat.le_refl _), if_pos (Nat.le_refl _),
      take_length, Nat.min_self, Nat.add_zero]

end Held

end Loops

namespace TwoChunks

def config : BlobConfig stamps := ⟨(), "k", 30, []⟩

def address : BlobAddress := addressOf (stamps.sha256 twoChunks.plaintext)

def row : BlobRow stamps :=
  ⟨"text/plain", BLOB_CHUNK_BYTES + 1, "k", 0, some (twoChunks.key config.kek)⟩

def store : Store stamps :=
  { (.initial : Store stamps) with
    blobs := AList.insert address row ∅
    containers := fun _ => some twoChunks.container }

theorem held : HeldAs config address row twoChunks store :=
  ⟨AList.lookup_insert ∅, rfl, rfl, rfl, rfl, length_replicate.symm,
    fits_twoChunks⟩

end TwoChunks

open TwoChunks in
/-- A read across the boundary of the two chunks. -/
theorem reads_are_slices_twoChunks : Program.during (system TwoChunks.config) .plain
      (read TwoChunks.config address (BLOB_CHUNK_BYTES - 1) 2) (fun _ => store) =
    some (.ok [7, 7], 2) := by
  have answers := @reads_are_slices _ address row twoChunks (fun _ => store)
    (fun _ => TwoChunks.config) .conformance fun _ => held
  refine (answers.1 (BLOB_CHUNK_BYTES - 1) 2).1.trans ?_
  have width : BLOB_CHUNK_BYTES + 1 - (BLOB_CHUNK_BYTES - 1) = 2 := rfl
  rw [show twoChunks.plaintext = List.replicate (BLOB_CHUNK_BYTES + 1) 7 from rfl,
    length_replicate, width, slice, drop_replicate, take_replicate, width]
  rfl

end Gridwork.Blob
