import Gridwork.Blob.Container
import Mathlib.Algebra.Order.BigOperators.Group.List

/-!
# Opening a whole container

`open` parses the header, unwraps the data key with the header's bytes as associated data, cuts
what follows into framed chunks and opens them in order, the last one as the last one.

`openWhole_container` is the round trip: a sealed container opens to its plaintext, in as many
chunks as its length asks for, each at its computed offset.  The other direction is about what was
done to a container.  `Authentic` is the assumption on the primitives, restricted to what one
sealing made: the wrapped key opens only with the header it was wrapped with, and a chunk only at
its own index with its own last flag.  Under it `seal_opens_alone` refuses every container of
`Tampered`.
-/

namespace Gridwork.Blob

open Lib List Option Nat

variable {crypto : Crypto} {chunk aad plaintext container last next : Bytes}
  {kept position more : Nat} {dek kek : crypto.Key} {streamNonce : Block STREAM_NONCE_BYTES}
  {sealing : Sealing crypto} {answer : Header × Bytes}

/-! ## Framing -/

/-- The loop over `read_chunk`: cut framed chunks off until nothing is left. -/
def framed (rest : Bytes) : Except BlobError (List Bytes) :=
  if rest = [] then .ok []
  else if rest.length < CHUNK_LEN_BYTES then .error (.integrity "truncated chunk length")
  else
    let length := ofBigEndian (rest.take CHUNK_LEN_BYTES)
    if rest.length < CHUNK_LEN_BYTES + length then
      .error (.integrity "chunk runs past the container")
    else do
      let later ← framed (rest.drop (CHUNK_LEN_BYTES + length))
      return slice rest CHUNK_LEN_BYTES length :: later
termination_by rest.length
decreasing_by
  have some : 0 < rest.length := length_pos_iff.mpr ‹_›
  rw [length_drop, CHUNK_LEN_BYTES]
  omega

theorem framed_nil : framed [] = .ok [] := by
  rw [framed, if_pos rfl]

def Framable (chunk : Bytes) : Prop :=
  chunk.length < 256 ^ CHUNK_LEN_BYTES

theorem framed_cons (framable : Framable chunk) (rest : Bytes) :
    framed (frame chunk ++ rest) = (framed rest).map (chunk :: ·) := by
  have lengths : (frame chunk ++ rest).length = CHUNK_LEN_BYTES + chunk.length + rest.length := by
    rw [length_append, length_frame]
  have some : frame chunk ++ rest ≠ [] := by
    intro nothing
    rw [nothing, CHUNK_LEN_BYTES] at lengths
    simp at lengths
    omega
  have declared : ofBigEndian ((frame chunk ++ rest).take CHUNK_LEN_BYTES) = chunk.length := by
    rw [frame, append_assoc, take_left' (length_toBigEndian ..), ofBigEndian_toBigEndian framable]
  have body : slice (frame chunk ++ rest) CHUNK_LEN_BYTES chunk.length = chunk := by
    rw [frame, append_assoc, slice_append_right 0 _ (by simp), slice_append_left rfl]
  have later : (frame chunk ++ rest).drop (CHUNK_LEN_BYTES + chunk.length) = rest :=
    drop_left' (length_frame chunk)
  rw [framed, if_neg some, if_neg (by omega)]
  dsimp only
  rw [declared, if_neg (by omega), later, body]
  cases framed rest with
  | error | ok chunks => rfl

theorem framed_flatten {chunks : List Bytes} (framable : ∀ chunk ∈ chunks, Framable chunk) :
    framed (chunks.map frame).flatten = .ok chunks := by
  induction chunks with
  | nil => exact framed_nil
  | cons chunk rest ih =>
    rw [map_cons, flatten_cons, framed_cons (framable chunk mem_cons_self),
      ih fun other mem => framable other (mem_cons_of_mem _ mem)]
    rfl

theorem framed_take_frame (framable : Framable chunk) (rest : Bytes)
    (positive : 0 < kept) (inside : kept < (frame chunk).length) {chunks : List Bytes} :
    framed ((frame chunk ++ rest).take kept) ≠ .ok chunks := by
  have length : ((frame chunk ++ rest).take kept).length = kept := by
    rw [length_take, length_append]
    omega
  have some : (frame chunk ++ rest).take kept ≠ [] := by
    intro nothing
    rw [nothing] at length
    simp at length
    omega
  rw [framed, if_neg some, length]
  split
  · simp
  · rename_i long
    have declared : ofBigEndian (((frame chunk ++ rest).take kept).take CHUNK_LEN_BYTES) =
        chunk.length := by
      rw [take_take, Nat.min_eq_left (by omega), frame, append_assoc,
        take_left' (length_toBigEndian ..), ofBigEndian_toBigEndian framable]
    dsimp only
    rw [declared, if_pos (by rwa [length_frame] at inside)]
    simp

theorem framed_take {chunks hit : List Bytes} (framable : ∀ chunk ∈ chunks, Framable chunk)
    (short : kept < (chunks.map frame).flatten.length)
    (cut : framed ((chunks.map frame).flatten.take kept) = .ok hit) :
    ∃ count, count < chunks.length ∧ hit = chunks.take count := by
  induction chunks generalizing kept hit with
  | nil => exact absurd short (not_lt_zero _)
  | cons chunk rest ih =>
    rw [map_cons, flatten_cons] at short cut
    have first := framable chunk mem_cons_self
    rcases Nat.eq_zero_or_pos kept with rfl | positive
    · rw [take_zero, framed_nil] at cut
      cases cut
      exact ⟨0, succ_pos _, rfl⟩
    · by_cases inside : kept < (frame chunk).length
      · exact absurd cut (framed_take_frame first _ positive inside)
      · rw [length_append] at short
        rw [take_append, take_of_length_le (by omega), framed_cons first] at cut
        cases later : framed ((rest.map frame).flatten.take (kept - (frame chunk).length)) with
        | error error =>
          rw [later] at cut
          cases cut
        | ok chunks =>
          rw [later] at cut
          cases cut
          obtain ⟨count, fewer, rfl⟩ := ih
            (fun other mem => framable other (mem_cons_of_mem _ mem))
            (by omega) later
          exact ⟨count + 1, succ_lt_succ fewer, rfl⟩

/-! ## Opening -/

/-- Open the chunks in order from a position on.  The stream's counter has 32 bits, and only the
last chunk may stand at its end. -/
def openChunks (aad : Bytes) (dek : crypto.Key) (streamNonce : Block STREAM_NONCE_BYTES) :
    Nat → List Bytes → Except BlobError Bytes
  | _, [] => .error (.integrity "container has no chunks")
  | position, [last] =>
    (crypto.openChunk aad dek streamNonce position true last).elim
      (.error (.integrity "final chunk failed authentication: tampered or truncated")) .ok
  | position, chunk :: next :: rest => do
    require (position < 2 ^ 32 - 1) (.integrity "chunk failed authentication")
    let part ← (crypto.openChunk aad dek streamNonce position false chunk).elim
      (.error (.integrity "chunk failed authentication")) .ok
    let later ← openChunks aad dek streamNonce (position + 1) (next :: rest)
    return part ++ later

theorem openChunks_single_ok : openChunks aad dek streamNonce position [last] = .ok plaintext ↔
      crypto.openChunk aad dek streamNonce position true last = some plaintext :=
  elim_ok

theorem openChunks_cons_ok {rest : List Bytes} :
    openChunks aad dek streamNonce position (chunk :: next :: rest) = .ok plaintext ↔
      position < 2 ^ 32 - 1 ∧ ∃ part later,
        crypto.openChunk aad dek streamNonce position false chunk = some part ∧
        openChunks aad dek streamNonce (position + 1) (next :: rest) = .ok later ∧
        plaintext = part ++ later := by
  simp only [openChunks, bind_ok, require_ok, exists_unit, elim_ok, pure_ok]
  constructor
  · rintro ⟨numbered, part, opened, later, opensLater, rfl⟩
    exact ⟨numbered, part, later, opened, opensLater, rfl⟩
  · rintro ⟨numbered, part, later, opened, opensLater, rfl⟩
    exact ⟨numbered, part, opened, later, opensLater, rfl⟩

/-- `open`: the header and the plaintext of a container, given the key material stored beside
it. -/
def openWhole (container : Bytes) (kek : crypto.Key) (key : KeyMaterial crypto) :
    Except BlobError (Header × Bytes) := do
  let (header, length) ← Header.decode container
  let aad := container.take length
  let dek ← unwrapDek key kek aad
  let chunks ← framed (container.drop length)
  let plaintext ← openChunks aad dek header.streamNonce 0 chunks
  require (plaintext.length = header.byteSize)
    (.integrity (s!"container holds {plaintext.length} plaintext bytes, header declares " ++
      s!"{header.byteSize}"))
  require (crypto.sha256 plaintext = header.digest)
    (.integrity "plaintext does not hash to the declared digest")
  return (header, plaintext)

namespace Sealing

def chunks (sealing : Sealing crypto) : List Bytes :=
  (List.range sealing.count).map sealing.chunk

theorem container_eq (sealing : Sealing crypto) :
    sealing.container = sealing.aad ++ (sealing.chunks.map frame).flatten := by
  rw [container, chunks, List.map_map]
  rfl

theorem framable_chunk (sealing : Sealing crypto) (index : Nat) : Framable (sealing.chunk index) :=
  lt_of_le_of_lt (length_sealPiece_le ..) (by decide)

theorem framable_of_mem_map (sealing : Sealing crypto) (indices : List Nat) :
    ∀ chunk ∈ indices.map sealing.chunk, Framable chunk := by
  intro chunk mem
  obtain ⟨index, -, rfl⟩ := List.mem_map.mp mem
  exact sealing.framable_chunk index

theorem count_pos (sealing : Sealing crypto) : 0 < sealing.count :=
  lt_of_lt_of_le one_pos (le_max_right ..)

theorem openChunks_range' (fits : sealing.Fits) (toEnd : position + (more + 1) = sealing.count) :
    openChunks sealing.aad sealing.dek sealing.streamNonce position
        ((List.range' position (more + 1)).map sealing.chunk) =
      .ok ((List.range' position (more + 1)).map
        (piece BLOB_CHUNK_BYTES sealing.plaintext)).flatten := by
  have opens {index : Nat} {last : Bool} (flag : (index == sealing.count - 1) = last) :
      crypto.openChunk sealing.aad sealing.dek sealing.streamNonce index last
        (sealing.chunk index) = some (piece BLOB_CHUNK_BYTES sealing.plaintext index) :=
    flag ▸ crypto.open_seal ..
  induction more generalizing position with
  | zero =>
    have isLast : (position == sealing.count - 1) = true := beq_iff_eq.mpr (by omega)
    simp only [zero_add, range'_one, map_cons, map_nil, openChunks,
      opens isLast, elim_some, flatten_cons, flatten_nil, append_nil]
  | succ more ih =>
    have notLast : (position == sealing.count - 1) = false := beq_false_of_ne (by omega)
    have numbered : position < 2 ^ 32 - 1 := by
      have few := fits.count
      omega
    have rest : position + 1 + (more + 1) = sealing.count := by omega
    have later := ih rest
    simp only [range'_succ, map_cons, flatten_cons] at later ⊢
    simp only [openChunks, opens notLast, elim_some, require, if_pos numbered, ok_bind, later]
    rfl

theorem flatten_plaintext (sealing : Sealing crypto) :
    ((List.range sealing.count).map (piece BLOB_CHUNK_BYTES sealing.plaintext)).flatten =
      sealing.plaintext := by
  rw [range_eq_range', flatten_pieces, zero_mul, slice, drop_zero]
  exact take_of_length_le (le_chunkCount_mul _)

theorem openChunks_chunks (fits : sealing.Fits) :
    openChunks sealing.aad sealing.dek sealing.streamNonce 0 sealing.chunks =
      .ok sealing.plaintext := by
  have positive := sealing.count_pos
  have whole : 0 + (sealing.count - 1 + 1) = sealing.count := by omega
  have opened := openChunks_range' fits whole
  rw [Nat.sub_add_cancel positive, ← range_eq_range', sealing.flatten_plaintext] at opened
  exact opened

theorem openWhole_own (fits : sealing.Fits) (rest : Bytes) :
    openWhole (sealing.aad ++ rest) kek (sealing.key kek) = (do
      let chunks ← framed rest
      let plaintext ← openChunks sealing.aad sealing.dek sealing.streamNonce 0 chunks
      require (plaintext.length = sealing.plaintext.length)
        (.integrity (s!"container holds {plaintext.length} plaintext bytes, header declares " ++
          s!"{sealing.plaintext.length}"))
      require (crypto.sha256 plaintext = crypto.sha256 sealing.plaintext)
        (.integrity "plaintext does not hash to the declared digest")
      return (sealing.header, plaintext)) := by
  have decoded : Header.decode (sealing.aad ++ rest) =
      .ok (sealing.header, headerLen sealing.mediaType sealing.kekId) :=
    Header.decode_encode_append fits.encodable rest
  have head : (sealing.aad ++ rest).take (headerLen sealing.mediaType sealing.kekId) =
      sealing.aad := take_left' sealing.length_aad
  have tail : (sealing.aad ++ rest).drop (headerLen sealing.mediaType sealing.kekId) = rest :=
    drop_left' sealing.length_aad
  simp only [openWhole, decoded, ok_bind, head, tail, unwrapDek_key]
  rfl

/-- **A sealed container opens to its plaintext.** -/
theorem openWhole_container (fits : sealing.Fits) :
    openWhole sealing.container kek (sealing.key kek) =
      .ok (sealing.header, sealing.plaintext) := by
  rw [container_eq, openWhole_own fits, chunks,
    framed_flatten (sealing.framable_of_mem_map _), ok_bind,
    ← chunks, openChunks_chunks fits]
  simp only [ok_bind, require, if_true]
  rfl

/-! ## Tampering -/

/-- What this sealing made opens only as it was made: the wrapped key with the header it was
wrapped with, and each chunk at its own index and with its own last flag.  A chunk opens to as many
bytes as it has besides its tag. -/
structure Authentic (sealing : Sealing crypto) (kek : crypto.Key) : Prop where
  wrap : ∀ aad dek, crypto.unwrapDek (crypto.wrapDek sealing.dek kek sealing.wrapNonce sealing.aad)
    kek sealing.wrapNonce aad = some dek → aad = sealing.aad
  chunk : ∀ index < sealing.count, ∀ position last message,
    crypto.openChunk sealing.aad sealing.dek sealing.streamNonce position last
      (sealing.chunk index) = some message → position = index ∧ last = (index == sealing.count - 1)
  length : ∀ position last ciphertext message,
    crypto.openChunk sealing.aad sealing.dek sealing.streamNonce position last ciphertext =
      some message → ciphertext.length = message.length + TAG_BYTES

/-- What can be done to a container: drop, duplicate or reorder chunks; cut the container off
anywhere; cut chunks short and frame them anew; or alter the header, whatever follows it. -/
inductive Tampered (sealing : Sealing crypto) : Bytes → Prop where
  | chunks {indices : List Nat} (own : ∀ index ∈ indices, index < sealing.count)
      (changed : indices ≠ List.range sealing.count) :
      Tampered sealing
        (sealing.aad ++ ((indices.map sealing.chunk).map frame).flatten)
  | truncated {kept : Nat} (short : kept < sealing.container.length) :
      Tampered sealing (sealing.container.take kept)
  | shortened (kept : Nat → Nat) {index : Nat} (inside : index < sealing.count)
      (short : kept index < (sealing.chunk index).length) :
      Tampered sealing (sealing.aad ++
        (((List.range sealing.count).map fun index =>
          (sealing.chunk index).take (kept index)).map frame).flatten)
  | header {head : Bytes} (body : Bytes) (eq : head.length = sealing.aad.length)
      (altered : head ≠ sealing.aad) : Tampered sealing (head ++ body)

theorem exists_rest_of_openWhole (authentic : sealing.Authentic kek)
    (opened : openWhole container kek (sealing.key kek) = .ok answer) :
    ∃ rest, container = sealing.aad ++ rest := by
  obtain ⟨⟨header, length⟩, -, continued⟩ := bind_ok.mp opened
  obtain ⟨dek, unwrapped, -⟩ := bind_ok.mp continued
  refine ⟨container.drop length, ?_⟩
  rw [← authentic.wrap _ _ (elim_ok.mp unwrapped), take_append_drop]

theorem exists_chunks_of_openWhole (fits : sealing.Fits) {rest : Bytes}
    (opened : openWhole (sealing.aad ++ rest) kek (sealing.key kek) = .ok answer) :
    ∃ chunks plaintext, framed rest = .ok chunks ∧
      openChunks sealing.aad sealing.dek sealing.streamNonce 0 chunks = .ok plaintext ∧
      plaintext.length = sealing.plaintext.length := by
  rw [openWhole_own fits] at opened
  obtain ⟨chunks, cut, continued⟩ := bind_ok.mp opened
  obtain ⟨plaintext, decrypted, checked⟩ := bind_ok.mp continued
  obtain ⟨done, sized, -⟩ := bind_ok.mp checked
  exact ⟨chunks, plaintext, cut, decrypted, require_ok.mp sized⟩

theorem eq_range'_of_openChunks (authentic : sealing.Authentic kek) {indices : List Nat}
    (own : ∀ index ∈ indices, index < sealing.count)
    (opened : openChunks sealing.aad sealing.dek sealing.streamNonce position
      (indices.map sealing.chunk) = .ok plaintext) :
    indices = List.range' position (sealing.count - position) := by
  induction indices generalizing position plaintext with
  | nil => cases opened
  | cons index rest ih =>
    have inside := own index mem_cons_self
    cases rest with
    | nil =>
      obtain ⟨rfl, isLast⟩ :=
        authentic.chunk index inside _ _ _ (openChunks_single_ok.mp opened)
      have isLast : position = sealing.count - 1 := beq_iff_eq.mp isLast.symm
      have one : sealing.count - position = 1 := by omega
      rw [one, range'_one]
    | cons next rest =>
      obtain ⟨-, part, later, opens, opensLater, -⟩ := openChunks_cons_ok.mp opened
      obtain ⟨rfl, notLast⟩ := authentic.chunk index inside _ _ _ opens
      have notLast : position ≠ sealing.count - 1 := beq_eq_false_iff_ne.mp notLast.symm
      have more : sealing.count - position = sealing.count - (position + 1) + 1 := by omega
      rw [more, range'_succ, ← ih
        (fun other mem => own other (mem_cons_of_mem _ mem)) opensLater]

theorem length_of_openChunks (authentic : sealing.Authentic kek) {chunks : List Bytes}
    (opened : openChunks sealing.aad sealing.dek sealing.streamNonce position chunks =
      .ok plaintext) :
    (chunks.map List.length).sum = plaintext.length + chunks.length * TAG_BYTES := by
  induction chunks generalizing position plaintext with
  | nil => cases opened
  | cons chunk rest ih =>
    cases rest with
    | nil =>
      have length := authentic.length _ _ _ _ (openChunks_single_ok.mp opened)
      simpa using length
    | cons next rest =>
      obtain ⟨-, part, later, opens, opensLater, rfl⟩ := openChunks_cons_ok.mp opened
      have first := authentic.length _ _ _ _ opens
      have others := ih opensLater
      have tags : (chunk :: next :: rest).length * TAG_BYTES =
          (next :: rest).length * TAG_BYTES + TAG_BYTES := succ_mul _ _
      rw [map_cons, sum_cons, others, first, length_append, tags]
      omega

/-- **Tampering is refused.** -/
theorem Tampered.refused (fits : sealing.Fits) (authentic : sealing.Authentic kek)
    (tampered : sealing.Tampered container) :
    openWhole container kek (sealing.key kek) ≠ .ok answer := by
  intro opened
  cases tampered with
  | @chunks indices own changed =>
    obtain ⟨chunks, plaintext, cut, decrypted, -⟩ := exists_chunks_of_openWhole fits opened
    rw [framed_flatten (sealing.framable_of_mem_map indices)] at cut
    cases cut
    have inOrder := eq_range'_of_openChunks authentic own decrypted
    exact changed (inOrder.trans range_eq_range'.symm)
  | @truncated kept short =>
    rw [container_eq, length_append] at short
    rw [container_eq] at opened
    by_cases inHeader : kept < sealing.aad.length
    · obtain ⟨rest, split⟩ := exists_rest_of_openWhole authentic opened
      have lengths := congrArg List.length split
      rw [length_take, length_append, length_append] at lengths
      omega
    · rw [take_append, take_of_length_le (not_lt.mp inHeader)] at opened
      obtain ⟨chunks, plaintext, cut, decrypted, -⟩ := exists_chunks_of_openWhole fits opened
      obtain ⟨count, fewer, rfl⟩ :=
        framed_take (sealing.framable_of_mem_map _) (by rw [← Sealing.chunks]; omega) cut
      rw [length_map, length_range] at fewer
      rw [← map_take, take_range, min_eq_left fewer.le] at decrypted
      have inOrder := eq_range'_of_openChunks authentic
        (fun index mem => (mem_range.mp mem).trans fewer) decrypted
      have lengths := congrArg List.length inOrder
      rw [length_range, length_range'] at lengths
      omega
  | @shortened kept index inside short =>
    obtain ⟨chunks, plaintext, cut, decrypted, sized⟩ := exists_chunks_of_openWhole fits opened
    rw [framed_flatten (by
      intro chunk mem
      obtain ⟨index, -, rfl⟩ := List.mem_map.mp mem
      exact lt_of_le_of_lt (length_take_le' ..) (sealing.framable_chunk index))] at cut
    cases cut
    -- the tags taken off are as many as before, so fewer bytes are left
    have shorter := length_of_openChunks authentic decrypted
    have whole := length_of_openChunks authentic (openChunks_chunks fits)
    have fewer : (((List.range sealing.count).map fun index =>
          (sealing.chunk index).take (kept index)).map List.length).sum <
        (sealing.chunks.map List.length).sum := by
      rw [Sealing.chunks, List.map_map, List.map_map]
      refine sum_lt_sum _ _ (fun other _ => length_take_le' ..) ⟨index, mem_range.mpr inside, ?_⟩
      simp only [Function.comp_apply, length_take]
      omega
    rw [shorter, whole, Sealing.chunks, length_map, length_map, sized] at fewer
    exact lt_irrefl _ fewer
  | @header head body eq altered =>
    obtain ⟨rest, split⟩ := exists_rest_of_openWhole authentic opened
    exact altered (append_inj_left split eq)

/-- **Round trip and refusal.**  Whatever fits a container is sealed into one that opens to the
plaintext and the media type.  Behind the header it is framed into `chunk_count` chunks, and the
chunk at an index starts at `chunk_offset`.  If the primitives are authentic about what was made
here, no tampered container opens. -/
theorem seal_opens_alone (sealing : Sealing crypto) (kek : crypto.Key) (fits : sealing.Fits) :
    ∃ result, sealWith sealing.plaintext sealing.mediaType kek sealing.kekId sealing.dek
        sealing.wrapNonce sealing.streamNonce = .ok result ∧
      (∃ header, openWhole result.container kek result.key = .ok (header, sealing.plaintext) ∧
        header.mediaType = sealing.mediaType) ∧
      (∃ chunks,
        framed (result.container.drop (headerLen sealing.mediaType sealing.kekId)) = .ok chunks ∧
        chunks.length = chunkCount sealing.plaintext.length ∧
        ∀ index chunk, chunks[index]? = some chunk → ∃ rest, result.container.drop
          (chunkOffset (headerLen sealing.mediaType sealing.kekId) index) = frame chunk ++ rest) ∧
      (sealing.Authentic kek → ∀ other, sealing.Tampered other →
        ∃ error, openWhole other kek result.key = .error error) := by
  refine ⟨⟨sealing.container, sealing.key kek, _⟩, sealing.sealWith_eq_ok.mpr ⟨fits, rfl⟩,
    ⟨sealing.header, openWhole_container fits, rfl⟩, ⟨sealing.chunks, ?_, ?_, ?_⟩, ?_⟩
  · dsimp only
    rw [container_eq, drop_left' sealing.length_aad]
    exact framed_flatten (sealing.framable_of_mem_map _)
  · rw [chunks, length_map, length_range, count]
  · intro index chunk hit
    rw [chunks, getElem?_map, map_eq_some_iff] at hit
    obtain ⟨number, isNumber, rfl⟩ := hit
    obtain ⟨inside, rfl⟩ := List.getElem?_eq_some_iff.mp isNumber
    rw [getElem_range, ← sealing.length_aad]
    exact sealing.drop_container (by simpa using inside)
  · intro authentic other tampered
    cases outcome : openWhole other kek (sealing.key kek) with
    | error error => exact ⟨error, rfl⟩
    | ok answer => exact absurd outcome (tampered.refused fits authentic)

end Sealing

/-! ## A blob of two chunks -/

/-- A tag that carries the position, as far as 2, and the last flag. -/
def stamp (position : Nat) (last : Bool) : Bytes :=
  UInt8.ofNat (min position 2) :: last.toUInt8 :: List.replicate (TAG_BYTES - 2) 0

theorem length_stamp (position : Nat) (last : Bool) : (stamp position last).length = TAG_BYTES := by
  rw [stamp, length_cons, length_cons, length_replicate, TAG_BYTES]

theorem stamp_inj {index : Nat} {last final : Bool} (inside : index < 2)
    (eq : stamp index last = stamp position final) : position = index ∧ final = last := by
  obtain ⟨places, flags, -⟩ : UInt8.ofNat (min index 2) = UInt8.ofNat (min position 2) ∧
      last.toUInt8 = final.toUInt8 ∧ _ := by simpa only [stamp, cons.injEq] using eq
  have places : min index 2 % 256 = min position 2 % 256 := congrArg UInt8.toNat places
  have told : ∀ last final : Bool, last.toUInt8 = final.toUInt8 → final = last := by decide
  exact ⟨by omega, told last final flags⟩

/-- Primitives that keep the header they wrapped a key with, and stamp what they seal. -/
def stamps : Crypto where
  Key := Unit
  Nonce := Unit
  Wrapped := Bytes
  sha256 _ := List.Vector.replicate DIGEST_BYTES 0
  wrapDek _ _ _ aad := aad
  unwrapDek wrapped _ _ aad := if aad = wrapped then some () else none
  sealChunk _ _ _ position last message := stamp position last ++ message
  openChunk _ _ _ position last ciphertext :=
    if ciphertext.take TAG_BYTES = stamp position last then some (ciphertext.drop TAG_BYTES)
    else none
  unwrap_wrap _ _ _ _ := if_pos rfl
  open_seal _ _ _ position last message := by
    rw [take_left' (length_stamp ..), if_pos rfl, drop_left' (length_stamp ..)]
  length_seal _ _ _ position last message := by
    rw [length_append, length_stamp, Nat.add_comm]

/-- One byte more than a chunk holds. -/
def twoChunks : Sealing stamps where
  plaintext := List.replicate (BLOB_CHUNK_BYTES + 1) 7
  mediaType := "text/plain"
  kekId := "k"
  dek := ()
  wrapNonce := ()
  streamNonce := List.Vector.replicate STREAM_NONCE_BYTES 7

theorem count_twoChunks : twoChunks.count = 2 := by
  simp only [Sealing.count, chunkCount, twoChunks, length_replicate]
  decide

theorem fits_twoChunks : twoChunks.Fits := by
  have two := count_twoChunks
  have media : (asBytes twoChunks.mediaType).length = 10 := rfl
  have label : (asBytes twoChunks.kekId).length = 1 := rfl
  exact ⟨by omega, by omega, by omega⟩

theorem authentic_twoChunks : twoChunks.Authentic () where
  wrap aad dek unwrapped := (ite_none_right_eq_some.mp unwrapped).1
  chunk := by
    intro index inside position last message opened
    obtain ⟨stamped, -⟩ := ite_none_right_eq_some.mp opened
    rw [Sealing.chunk, sealPiece, ← Sealing.count] at stamped
    rw [count_twoChunks] at inside stamped ⊢
    exact stamp_inj inside ((take_left' (length_stamp ..)).symm.trans stamped)
  length := by
    intro position last ciphertext message opened
    obtain ⟨eq, taken⟩ := ite_none_right_eq_some.mp opened
    have long := congrArg List.length eq
    cases taken
    rw [length_take, length_stamp] at long
    rw [length_drop]
    omega

/-- The two chunks behind the header, the second one first. -/
def reordered : Bytes :=
  twoChunks.aad ++ (([1, 0].map twoChunks.chunk).map frame).flatten

theorem seal_opens_alone_twoChunks : twoChunks.Fits ∧ twoChunks.Authentic () ∧
      twoChunks.count = 2 ∧
      ∃ result, sealWith twoChunks.plaintext twoChunks.mediaType () twoChunks.kekId twoChunks.dek
          twoChunks.wrapNonce twoChunks.streamNonce = .ok result ∧
        (∃ header, openWhole result.container () result.key = .ok (header, twoChunks.plaintext)) ∧
        ∃ error, openWhole reordered () result.key = .error error := by
  have two := count_twoChunks
  have swapped : twoChunks.Tampered reordered := by
    refine .chunks ?_ ?_
    · rw [two]
      decide
    · rw [two]
      decide
  obtain ⟨result, made, ⟨header, opened, -⟩, -, refused⟩ := twoChunks.seal_opens_alone () fits_twoChunks
  exact ⟨fits_twoChunks, authentic_twoChunks, two, result, made, ⟨header, opened⟩,
    refused authentic_twoChunks _ swapped⟩

end Gridwork.Blob
