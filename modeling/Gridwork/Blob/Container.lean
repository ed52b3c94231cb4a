import Gridwork.Context.Truth
import Gridwork.Kernel.Tables
import Gridwork.Lib.Bytes
import Mathlib.Data.Vector.Basic

/-!
# The blob container

A container is a header followed by the plaintext in chunks, each sealed under the blob's own
data key with the header as associated data and framed by its length.  All chunks but the last
have one size, so a reader finds the chunks of a range without reading those before them.  The
data key is not in the container: its wrapped form goes with the row.
-/

namespace Gridwork.Blob

open Lib List Option Nat
open Context (Digest isSha256Hex)
open Kernel (Instant)

abbrev Block (width : Nat) := List.Vector UInt8 width

abbrev BlobAddress := Digest

/-! ## Constants -/

def MAGIC : Bytes := [0x47, 0x57, 0x4B, 0x42, 0x4C, 0x4F, 0x42, 0x00]

def FORMAT_VERSION : Nat := 1

def TAG_BYTES : Nat := 16

def STREAM_NONCE_BYTES : Nat := 19

def CHUNK_LEN_BYTES : Nat := 4

def BLOB_CHUNK_BYTES : Nat := 1024 * 1024

theorem BLOB_CHUNK_BYTES_pos : 0 < BLOB_CHUNK_BYTES := by
  decide

def MAX_CIPHERTEXT_CHUNK_BYTES : Nat := BLOB_CHUNK_BYTES + TAG_BYTES

def FRAMED_CHUNK_BYTES : Nat := CHUNK_LEN_BYTES + MAX_CIPHERTEXT_CHUNK_BYTES

def DIGEST_BYTES : Nat := 32

def FIXED_HEADER_BYTES : Nat :=
  MAGIC.length + 2 + DIGEST_BYTES + 8 + STREAM_NONCE_BYTES + 2 + 2

/-! ## Primitives -/

inductive BlobError where
  | notFound | tombstoned
  | digestMismatch (expected actual : BlobAddress)
  | integrity (reason : String)
  | pinned
  | storage (reason : String)
  deriving DecidableEq

/-- The hash, the key wrap and the chunk cipher, and what opening has to do with sealing. -/
structure Crypto where
  (Key Nonce Wrapped : Type)
  sha256 : Bytes → Block DIGEST_BYTES
  wrapDek (dek kek : Key) (nonce : Nonce) (aad : Bytes) : Wrapped
  unwrapDek (wrapped : Wrapped) (kek : Key) (nonce : Nonce) (aad : Bytes) : Option Key
  sealChunk (aad : Bytes) (dek : Key) (streamNonce : Block STREAM_NONCE_BYTES) (position : Nat)
    (last : Bool) (message : Bytes) : Bytes
  openChunk (aad : Bytes) (dek : Key) (streamNonce : Block STREAM_NONCE_BYTES) (position : Nat)
    (last : Bool) (ciphertext : Bytes) : Option Bytes
  unwrap_wrap : ∀ dek kek nonce aad,
    unwrapDek (wrapDek dek kek nonce aad) kek nonce aad = some dek
  open_seal : ∀ aad dek streamNonce position last message,
    openChunk aad dek streamNonce position last
      (sealChunk aad dek streamNonce position last message) = some message
  length_seal : ∀ aad dek streamNonce position last message,
    (sealChunk aad dek streamNonce position last message).length = message.length + TAG_BYTES

/-- What was sealed opens only under the key, the nonce and the data it was sealed with. -/
structure Crypto.Exclusive (crypto : Crypto) : Prop where
  wrap : ∀ dek kek nonce aad otherKek otherNonce otherAad hit,
    crypto.unwrapDek (crypto.wrapDek dek kek nonce aad) otherKek otherNonce otherAad =
      some hit → otherKek = kek ∧ otherNonce = nonce ∧ otherAad = aad
  chunk : ∀ aad dek streamNonce position last message otherAad otherDek otherNonce otherPosition
      otherLast hit,
    crypto.openChunk otherAad otherDek otherNonce otherPosition otherLast
      (crypto.sealChunk aad dek streamNonce position last message) = some hit → otherDek = dek

def hexLower (bytes : Bytes) : String :=
  String.ofList (bytes.flatMap fun byte =>
    [Nat.digitChar (byte.toNat / 16), Nat.digitChar (byte.toNat % 16)])

theorem isSha256Hex_hexLower (digest : Block DIGEST_BYTES) :
    isSha256Hex (hexLower digest.toList) = true := by
  have digits : ∀ value < 16, ((digitChar value).isDigit ||
        ('a' ≤ digitChar value && digitChar value ≤ 'f')) = true := by
    decide
  have doubled : ∀ bytes : Bytes, (bytes.flatMap fun byte =>
        [digitChar (byte.toNat / 16), digitChar (byte.toNat % 16)]).length =
      bytes.length * 2 := by
    intro bytes
    simp [length_flatMap]
  rw [isSha256Hex, hexLower, String.toList_ofList, Bool.and_eq_true]
  constructor
  · rw [doubled, List.Vector.toList_length]
    rfl
  · rw [List.all_eq_true]
    intro char mem
    obtain ⟨byte, -, written⟩ := mem_flatMap.mp mem
    have small : byte.toNat < 256 := byte.toNat_lt
    rcases mem_pair.mp written with rfl | rfl
    · exact digits _ (by omega)
    · exact digits _ (mod_lt _ (by decide))

/-- `BlobAddress::from_digest` of a computed digest, which is always legal. -/
def addressOf (digest : Block DIGEST_BYTES) : BlobAddress :=
  ⟨hexLower digest.toList, isSha256Hex_hexLower digest⟩

/-! ## The header -/

def asBytes (text : String) : Bytes :=
  text.toUTF8.data.toList

def fromUtf8 (bytes : Bytes) : Option String :=
  String.fromUTF8? ⟨bytes.toArray⟩

theorem fromUtf8_asBytes (text : String) : fromUtf8 (asBytes text) = some text := by
  have valid : (⟨(asBytes text).toArray⟩ : ByteArray).IsValidUTF8 := by
    simpa [asBytes] using text.isValidUTF8
  rw [fromUtf8, String.fromUTF8?, dif_pos valid]
  rfl

theorem asBytes_of_fromUtf8 {bytes : Bytes} {text : String} (read : fromUtf8 bytes = some text) :
    asBytes text = bytes := by
  rw [fromUtf8, String.fromUTF8?] at read
  split at read
  · cases read
    rfl
  · cases read

def headerLen (mediaType kekId : String) : Nat :=
  FIXED_HEADER_BYTES + (asBytes mediaType).length + (asBytes kekId).length

structure Header where
  digest : Block DIGEST_BYTES
  byteSize : Nat
  (mediaType kekId : String)
  streamNonce : Block STREAM_NONCE_BYTES

def VERSION_AT : Nat := MAGIC.length

def DIGEST_AT : Nat := VERSION_AT + 2

def SIZE_AT : Nat := DIGEST_AT + DIGEST_BYTES

def NONCE_AT : Nat := SIZE_AT + 8

def MEDIA_LEN_AT : Nat := NONCE_AT + STREAM_NONCE_BYTES

def KEK_LEN_AT : Nat := MEDIA_LEN_AT + 2

namespace Header

/-- The bytes that open the container and serve as associated data. -/
def encode (header : Header) : Bytes :=
  MAGIC ++ (toBigEndian 2 FORMAT_VERSION ++ (header.digest.toList ++
    (toBigEndian 8 header.byteSize ++ (header.streamNonce.toList ++
      (toBigEndian 2 (asBytes header.mediaType).length ++
        (toBigEndian 2 (asBytes header.kekId).length ++
          (asBytes header.mediaType ++ asBytes header.kekId)))))))

def decode (bytes : Bytes) : Except BlobError (Header × Nat) :=
  if short : bytes.length < FIXED_HEADER_BYTES then
    .error (.integrity "container is shorter than a header")
  else do
    require (slice bytes 0 MAGIC.length = MAGIC) (.integrity "not a gwk blob container")
    let version := ofBigEndian (slice bytes VERSION_AT 2)
    require (version = FORMAT_VERSION)
      (.integrity s!"container format version {version}, expected {FORMAT_VERSION}")
    let digest : Block DIGEST_BYTES :=
      ⟨slice bytes DIGEST_AT DIGEST_BYTES, length_slice (by
        simp only [FIXED_HEADER_BYTES, DIGEST_AT, VERSION_AT] at short ⊢; omega)⟩
    let byteSize := ofBigEndian (slice bytes SIZE_AT 8)
    let streamNonce : Block STREAM_NONCE_BYTES :=
      ⟨slice bytes NONCE_AT STREAM_NONCE_BYTES, length_slice (by
        simp only [FIXED_HEADER_BYTES, NONCE_AT, SIZE_AT, DIGEST_AT, VERSION_AT] at short ⊢
        omega)⟩
    let mediaLen := ofBigEndian (slice bytes MEDIA_LEN_AT 2)
    let kekLen := ofBigEndian (slice bytes KEK_LEN_AT 2)
    require (FIXED_HEADER_BYTES + mediaLen + kekLen ≤ bytes.length)
      (.integrity "header runs past the container")
    let mediaType ← (fromUtf8 (slice bytes FIXED_HEADER_BYTES mediaLen)).elim
      (.error (.integrity "media type is not utf-8")) .ok
    let kekId ← (fromUtf8 (slice bytes (FIXED_HEADER_BYTES + mediaLen) kekLen)).elim
      (.error (.integrity "kek id is not utf-8")) .ok
    return (⟨digest, byteSize, mediaType, kekId, streamNonce⟩,
      FIXED_HEADER_BYTES + mediaLen + kekLen)

structure Encodable (header : Header) : Prop where
  byteSize : header.byteSize < 256 ^ 8
  mediaType : (asBytes header.mediaType).length < 256 ^ 2
  kekId : (asBytes header.kekId).length < 256 ^ 2

theorem length_encode (header : Header) :
    header.encode.length = headerLen header.mediaType header.kekId := by
  simp only [encode, headerLen, FIXED_HEADER_BYTES, length_append, length_toBigEndian,
    List.Vector.toList_length]
  omega

/-- The fields of a header follow one another without a gap. -/
theorem take_fields (bytes : Bytes) (mediaLen kekLen : Nat) :
    bytes.take (FIXED_HEADER_BYTES + mediaLen + kekLen) =
      slice bytes 0 MAGIC.length ++ (slice bytes VERSION_AT 2 ++
        (slice bytes DIGEST_AT DIGEST_BYTES ++ (slice bytes SIZE_AT 8 ++
          (slice bytes NONCE_AT STREAM_NONCE_BYTES ++ (slice bytes MEDIA_LEN_AT 2 ++
            (slice bytes KEK_LEN_AT 2 ++ (slice bytes FIXED_HEADER_BYTES mediaLen ++
              slice bytes (FIXED_HEADER_BYTES + mediaLen) kekLen))))))) := by
  have widths : FIXED_HEADER_BYTES + mediaLen + kekLen =
      8 + (2 + (32 + (8 + (19 + (2 + (2 + (mediaLen + kekLen))))))) := by
    rw [show FIXED_HEADER_BYTES = 73 from rfl]
    omega
  change slice bytes 0 _ = _
  rw [widths, slice_add, slice_add, slice_add, slice_add, slice_add, slice_add,
    slice_add, slice_add]
  rfl

/-- A header is read back as it was written, whatever follows it. -/
theorem decode_encode_append {header : Header} (encodable : header.Encodable) (rest : Bytes) :
    decode (header.encode ++ rest) = .ok (header, headerLen header.mediaType header.kekId) := by
  have taken : (header.encode ++ rest).take (headerLen header.mediaType header.kekId) =
      header.encode := take_left' header.length_encode
  have whole : headerLen header.mediaType header.kekId ≤ (header.encode ++ rest).length := by
    rw [length_append, length_encode]
    exact Nat.le_add_right ..
  generalize header.encode ++ rest = bytes at taken whole
  rw [headerLen] at whole taken
  have fixed {start count : Nat} (inside : start + count ≤ FIXED_HEADER_BYTES) :
      start + count ≤ bytes.length := by omega
  rw [take_fields, encode] at taken
  obtain ⟨magic, taken⟩ := slice_append_inj (fixed (by decide)) rfl taken
  obtain ⟨version, taken⟩ := slice_append_inj (fixed (by decide)) (length_toBigEndian ..) taken
  obtain ⟨digest, taken⟩ := slice_append_inj (fixed (by decide)) header.digest.2 taken
  obtain ⟨byteSize, taken⟩ := slice_append_inj (fixed (by decide)) (length_toBigEndian ..) taken
  obtain ⟨nonce, taken⟩ := slice_append_inj (fixed (by decide)) header.streamNonce.2 taken
  obtain ⟨mediaLen, taken⟩ := slice_append_inj (fixed (by decide)) (length_toBigEndian ..) taken
  obtain ⟨kekLen, taken⟩ := slice_append_inj (fixed (by decide)) (length_toBigEndian ..) taken
  obtain ⟨media, kek⟩ := slice_append_inj (by omega) rfl taken
  rw [decode, dif_neg (by omega)]
  simp only [magic, version, digest, byteSize, nonce, mediaLen, kekLen,
    ofBigEndian_toBigEndian (show FORMAT_VERSION < 256 ^ 2 by decide),
    ofBigEndian_toBigEndian encodable.byteSize, ofBigEndian_toBigEndian encodable.mediaType,
    ofBigEndian_toBigEndian encodable.kekId, media, kek, fromUtf8_asBytes, elim_some, require,
    if_pos whole, if_true]
  rfl

theorem decode_encode {header : Header} (encodable : header.Encodable) :
    decode header.encode = .ok (header, headerLen header.mediaType header.kekId) := by
  have decoded := decode_encode_append encodable []
  rwa [append_nil] at decoded

/-- What `decode` accepts are the bytes of the header it answers, and more. -/
theorem encode_of_decode {bytes : Bytes} {header : Header} {length : Nat}
    (decoded : decode bytes = .ok (header, length)) : header.Encodable ∧
      length = headerLen header.mediaType header.kekId ∧ bytes.take length = header.encode := by
  rw [decode] at decoded
  split at decoded
  next => cases decoded
  next long =>
    simp only [bind_ok, exists_unit, require_ok, elim_ok, pure_ok] at decoded
    obtain ⟨magic, version, whole, mediaType, media, kekId, kek, eq⟩ := decoded
    have fixed {start count : Nat} (inside : start + count ≤ FIXED_HEADER_BYTES) :
        start + count ≤ bytes.length := by omega
    have media := asBytes_of_fromUtf8 media
    have kek := asBytes_of_fromUtf8 kek
    have mediaLen := (congrArg List.length media).trans (length_slice (by omega))
    have kekLen := (congrArg List.length kek).trans (length_slice whole)
    cases eq
    refine ⟨⟨ofBigEndian_slice_lt (fixed (by decide)), ?_, ?_⟩, ?_, ?_⟩
    · exact mediaLen ▸ ofBigEndian_slice_lt (fixed (by decide))
    · exact kekLen ▸ ofBigEndian_slice_lt (fixed (by decide))
    · rw [headerLen, mediaLen, kekLen]
    · rw [take_fields, encode, mediaLen, kekLen, media, kek, magic, ← version,
        toBigEndian_slice (fixed (by decide)), toBigEndian_slice (fixed (by decide)),
        toBigEndian_slice (fixed (by decide)), toBigEndian_slice (fixed (by decide))]
      rfl

/-- **Headers and their bytes correspond.**  A header is read back whatever follows it, every byte
string that is read begins with the encoding of its header, and no two headers share one. -/
theorem header_round_trip :
    (∀ header : Header, header.Encodable → ∀ rest, decode (header.encode ++ rest) =
      .ok (header, headerLen header.mediaType header.kekId)) ∧
    (∀ bytes header length, decode bytes = .ok (header, length) → header.Encodable ∧
      length = headerLen header.mediaType header.kekId ∧ header.encode <+: bytes) ∧
    ∀ header other : Header, header.Encodable → other.Encodable →
      header.encode = other.encode → header = other := by
  refine ⟨fun _ => decode_encode_append, fun bytes header length decoded => ?_,
    fun header other encodable otherEncodable eq => ?_⟩
  · obtain ⟨encodable, isLength, taken⟩ := encode_of_decode decoded
    exact ⟨encodable, isLength, taken ▸ take_prefix _ _⟩
  · have decoded := decode_encode encodable
    rw [eq, decode_encode otherEncodable] at decoded
    cases decoded
    rfl

end Header

/-! ## Sealing -/

section Sealing

variable (crypto : Crypto) {dek kek : crypto.Key} {byteSize position : Nat}

def chunkCount (byteSize : Nat) : Nat :=
  max ((byteSize + (BLOB_CHUNK_BYTES - 1)) / BLOB_CHUNK_BYTES) 1

def chunkOffset (headerLen index : Nat) : Nat :=
  headerLen + index * FRAMED_CHUNK_BYTES

/-- What the row keeps so that its container can be opened. -/
structure KeyMaterial where
  wrapNonce : crypto.Nonce
  wrappedDek : crypto.Wrapped

/-- The container, and the key material that belongs in the row. -/
structure Sealed where
  container : Bytes
  key : KeyMaterial crypto
  digestHex : String

def frame (chunk : Bytes) : Bytes :=
  toBigEndian CHUNK_LEN_BYTES chunk.length ++ chunk

def pushChunk (chunk : Bytes) : Except BlobError Bytes := do
  require (chunk.length < 2 ^ 32) (.integrity "chunk is too large to frame")
  return frame chunk

variable {crypto}

/-- The chunk of a plaintext at an index, sealed; the last one is marked. -/
def sealPiece (aad : Bytes) (dek : crypto.Key) (streamNonce : Block STREAM_NONCE_BYTES)
    (plaintext : Bytes) (index : Nat) : Bytes :=
  crypto.sealChunk aad dek streamNonce index (index == chunkCount plaintext.length - 1)
    (piece BLOB_CHUNK_BYTES plaintext index)

def sealHeader (crypto : Crypto) (plaintext : Bytes) (mediaType kekId : String)
    (streamNonce : Block STREAM_NONCE_BYTES) : Header :=
  ⟨crypto.sha256 plaintext, plaintext.length, mediaType, kekId, streamNonce⟩

/-- `seal_with`.  An empty plaintext is one empty chunk.  The stream's counter has 32 bits, and
sealing a chunk past its end fails. -/
def sealWith (plaintext : Bytes) (mediaType : String) (kek : crypto.Key) (kekId : String)
    (dek : crypto.Key) (wrapNonce : crypto.Nonce) (streamNonce : Block STREAM_NONCE_BYTES) :
    Except BlobError (Sealed crypto) := do
  require ((asBytes mediaType).length ≤ 65535 ∧ (asBytes kekId).length ≤ 65535)
    (.integrity "media type or kek id is too long to encode")
  let header := sealHeader crypto plaintext mediaType kekId streamNonce
  let aad := header.encode
  let count := chunkCount plaintext.length
  require (count ≤ 2 ^ 32) (.integrity "chunk encryption failed")
  let chunks ← (List.range count).mapM fun index =>
    pushChunk (sealPiece aad dek streamNonce plaintext index)
  return ⟨aad ++ chunks.flatten, ⟨wrapNonce, crypto.wrapDek dek kek wrapNonce aad⟩,
    hexLower header.digest.toList⟩

theorem length_sealPiece_le (aad : Bytes) (dek : crypto.Key)
    (streamNonce : Block STREAM_NONCE_BYTES) (plaintext : Bytes) (index : Nat) :
    (sealPiece aad dek streamNonce plaintext index).length ≤ MAX_CIPHERTEXT_CHUNK_BYTES := by
  rw [sealPiece, crypto.length_seal]
  exact Nat.add_le_add_right (length_piece_le ..) _

theorem length_sealPiece {aad : Bytes}
    {streamNonce : Block STREAM_NONCE_BYTES} {plaintext : Bytes} {index : Nat}
    (inside : (index + 1) * BLOB_CHUNK_BYTES ≤ plaintext.length) :
    (sealPiece aad dek streamNonce plaintext index).length = MAX_CIPHERTEXT_CHUNK_BYTES := by
  rw [sealPiece, crypto.length_seal, length_piece inside, MAX_CIPHERTEXT_CHUNK_BYTES]

theorem length_frame (chunk : Bytes) : (frame chunk).length = CHUNK_LEN_BYTES + chunk.length := by
  rw [frame, length_append, length_toBigEndian]

theorem pushChunk_eq_ok {chunk : Bytes} (small : chunk.length ≤ MAX_CIPHERTEXT_CHUNK_BYTES) :
    pushChunk chunk = .ok (frame chunk) := by
  have fits : chunk.length < 2 ^ 32 := lt_of_le_of_lt small (by decide)
  rw [pushChunk, require, if_pos fits]
  rfl

theorem full_of_lt_chunkCount {index : Nat} (before : index + 1 < chunkCount byteSize) :
    (index + 1) * BLOB_CHUNK_BYTES ≤ byteSize := by
  have positive := BLOB_CHUNK_BYTES_pos
  have ceiling : index + 1 + 1 ≤ (byteSize + (BLOB_CHUNK_BYTES - 1)) / BLOB_CHUNK_BYTES := by
    rw [chunkCount] at before
    omega
  rw [le_div_iff_mul_le positive, succ_mul] at ceiling
  omega

theorem div_lt_chunkCount (inside : position < byteSize) :
    position / BLOB_CHUNK_BYTES < chunkCount byteSize := by
  have positive := BLOB_CHUNK_BYTES_pos
  have ceiling : position / BLOB_CHUNK_BYTES + 1 ≤
      (byteSize + (BLOB_CHUNK_BYTES - 1)) / BLOB_CHUNK_BYTES := by
    have below := div_mul_le_self position BLOB_CHUNK_BYTES
    rw [le_div_iff_mul_le positive, succ_mul]
    omega
  exact lt_of_lt_of_le ceiling (le_max_left _ _)

theorem le_chunkCount_mul (byteSize : Nat) : byteSize ≤ chunkCount byteSize * BLOB_CHUNK_BYTES := by
  have positive := BLOB_CHUNK_BYTES_pos
  have ceiling := lt_div_mul_add (a := byteSize + (BLOB_CHUNK_BYTES - 1)) positive
  have widened := mul_le_mul_right BLOB_CHUNK_BYTES
    (le_max_left ((byteSize + (BLOB_CHUNK_BYTES - 1)) / BLOB_CHUNK_BYTES) 1)
  rw [chunkCount]
  omega

/-- All that determines a container and its key material. -/
structure Sealing (crypto : Crypto) where
  plaintext : Bytes
  (mediaType kekId : String)
  dek : crypto.Key
  wrapNonce : crypto.Nonce
  streamNonce : Block STREAM_NONCE_BYTES

namespace Sealing

variable (sealing : Sealing crypto)

def header : Header :=
  sealHeader crypto sealing.plaintext sealing.mediaType sealing.kekId sealing.streamNonce

def aad : Bytes :=
  sealing.header.encode

def chunk (index : Nat) : Bytes :=
  sealPiece sealing.aad sealing.dek sealing.streamNonce sealing.plaintext index

def count : Nat :=
  chunkCount sealing.plaintext.length

def container : Bytes :=
  sealing.aad ++ ((List.range sealing.count).map fun index => frame (sealing.chunk index)).flatten

def key (kek : crypto.Key) : KeyMaterial crypto :=
  ⟨sealing.wrapNonce, crypto.wrapDek sealing.dek kek sealing.wrapNonce sealing.aad⟩

/-- It fits a container: texts within their length fields, and chunks within the counter. -/
structure Fits : Prop where
  mediaType : (asBytes sealing.mediaType).length ≤ 65535
  kekId : (asBytes sealing.kekId).length ≤ 65535
  count : sealing.count ≤ 2 ^ 32

theorem sealWith_eq_ok {result : Sealed crypto} :
    sealWith sealing.plaintext sealing.mediaType kek sealing.kekId sealing.dek sealing.wrapNonce
        sealing.streamNonce = .ok result ↔
      sealing.Fits ∧ result = ⟨sealing.container, sealing.key kek,
        hexLower (crypto.sha256 sealing.plaintext).toList⟩ := by
  have pushed (aad : Bytes) : (List.range (chunkCount sealing.plaintext.length)).mapM (fun index =>
        pushChunk (sealPiece aad sealing.dek sealing.streamNonce sealing.plaintext index)) =
      .ok ((List.range (chunkCount sealing.plaintext.length)).map fun index =>
        frame (sealPiece aad sealing.dek sealing.streamNonce sealing.plaintext index)) :=
    mapM_eq_ok fun index _ => pushChunk_eq_ok (length_sealPiece_le ..)
  simp only [sealWith, pushed, bind_ok, require_ok, exists_unit, pure_ok,
    Except.ok.injEq, exists_eq_left']
  constructor
  · rintro ⟨⟨media, label⟩, count, rfl⟩
    exact ⟨⟨media, label, count⟩, rfl⟩
  · rintro ⟨fits, rfl⟩
    exact ⟨⟨fits.mediaType, fits.kekId⟩, fits.count, rfl⟩

variable {sealing}

theorem Fits.encodable (fits : sealing.Fits) : sealing.header.Encodable := by
  have small : sealing.plaintext.length ≤ 2 ^ 32 * BLOB_CHUNK_BYTES :=
    le_trans (le_chunkCount_mul _) (mul_le_mul_right _ fits.count)
  exact ⟨lt_of_le_of_lt small (by decide), lt_of_le_of_lt fits.mediaType (by decide),
    lt_of_le_of_lt fits.kekId (by decide)⟩

theorem length_aad (sealing : Sealing crypto) :
    sealing.aad.length = headerLen sealing.mediaType sealing.kekId :=
  Header.length_encode sealing.header

end Sealing

end Sealing

/-! ## Reading a range -/

section Reading

variable {crypto : Crypto}

/-- `frame_error` of a read that ran off the end. -/
def frameError (context : String) : BlobError :=
  .integrity s!"{context}: the container ends before the chunk its header declares"

/-- `open_container` on the file's content: the header, and the bytes it was read from. -/
def openContainer (mediaType kekId : String) (container : Bytes) :
    Except BlobError (Header × Bytes) := do
  let expected := headerLen mediaType kekId
  let head := slice container 0 expected
  require (head.length = expected) (frameError "read container header")
  let (header, actual) ← Header.decode head
  require (actual = expected)
    (.integrity s!"container header is {actual} bytes, its row describes {expected}")
  return (header, head)

def unwrapDek (key : KeyMaterial crypto) (kek : crypto.Key) (aad : Bytes) :
    Except BlobError crypto.Key :=
  (crypto.unwrapDek key.wrappedDek kek key.wrapNonce aad).elim
    (.error (.integrity "unwrapping the data key failed: wrong kek or altered header")) .ok

/-- One turn of the loop in `read`: seek to a chunk, read it and open it. -/
def readChunk (container aad : Bytes) (dek : crypto.Key)
    (streamNonce : Block STREAM_NONCE_BYTES) (finalIndex index : Nat) :
    Except BlobError Bytes := do
  let offset := chunkOffset aad.length index
  let framed := slice container offset CHUNK_LEN_BYTES
  require (framed.length = CHUNK_LEN_BYTES) (frameError "read chunk length")
  let ciphertextLen := ofBigEndian framed
  require (ciphertextLen ≤ MAX_CIPHERTEXT_CHUNK_BYTES)
    (.integrity (s!"chunk {index} declares {ciphertextLen} ciphertext bytes, over the " ++
      s!"{MAX_CIPHERTEXT_CHUNK_BYTES} a chunk can hold"))
  let body := slice container (offset + CHUNK_LEN_BYTES) ciphertextLen
  require (body.length = ciphertextLen) (frameError "read chunk")
  require (index < 2 ^ 32) (.integrity "chunk index out of range")
  (crypto.openChunk aad dek streamNonce index (index == finalIndex) body).elim
    (.error (.integrity "chunk failed authentication: tampered or truncated")) .ok

/-- `read` behind its bounds: a range that is not empty and lies in the blob. -/
def readRange (kek : crypto.Key) (mediaType kekId : String) (size : Nat)
    (key : KeyMaterial crypto) (container : Bytes) (offset length : Nat) :
    Except BlobError Bytes := do
  let (header, aad) ← openContainer mediaType kekId container
  require (header.byteSize = size)
    (.integrity s!"container declares {header.byteSize} bytes, its row says {size}")
  let dek ← unwrapDek key kek aad
  let parts ← (touched BLOB_CHUNK_BYTES offset length).mapM
    (readChunk container aad dek header.streamNonce (chunkCount size - 1))
  let plaintext := parts.flatten
  let start := offset - offset / BLOB_CHUNK_BYTES * BLOB_CHUNK_BYTES
  let stop := start + length
  require (stop ≤ plaintext.length)
    (.integrity (s!"container yielded {plaintext.length} bytes where the requested range " ++
      s!"needs {stop}"))
  return slice plaintext start length

/-! ### A sealed container is read back -/

namespace Sealing

variable {sealing : Sealing crypto}

theorem openContainer_container (fits : sealing.Fits) :
    openContainer sealing.mediaType sealing.kekId sealing.container =
      .ok (sealing.header, sealing.aad) := by
  have head : slice sealing.container 0 (headerLen sealing.mediaType sealing.kekId) = sealing.aad :=
    slice_append_left sealing.length_aad.symm
  have decoded : Header.decode sealing.aad =
      .ok (sealing.header, headerLen sealing.mediaType sealing.kekId) :=
    Header.decode_encode fits.encodable
  simp only [openContainer, head, decoded, sealing.length_aad, require, if_true, ok_bind]
  rfl

theorem drop_container (sealing : Sealing crypto) {index : Nat} (inside : index < sealing.count) :
    ∃ rest, sealing.container.drop (chunkOffset sealing.aad.length index) =
      frame (sealing.chunk index) ++ rest := by
  let frames := (List.range sealing.count).map fun index => frame (sealing.chunk index)
  -- only the last chunk may be short, and it is not before any other
  have sized : ∀ item ∈ frames.take index, item.length = FRAMED_CHUNK_BYTES := by
    intro item mem
    rw [← map_take, take_range] at mem
    obtain ⟨prior, before, rfl⟩ := List.mem_map.mp mem
    have below := mem_range.mp before
    have notLast : prior + 1 < chunkCount sealing.plaintext.length := by
      rw [count] at inside below
      omega
    rw [length_frame, chunk, length_sealPiece (full_of_lt_chunkCount notLast)]
    rfl
  have present : index < frames.length := by
    simpa [frames] using inside
  refine ⟨(frames.drop (index + 1)).flatten, ?_⟩
  have split : sealing.container = sealing.aad ++ frames.flatten := rfl
  rw [split, chunkOffset, ← drop_drop, drop_left, drop_flatten frames index sized,
    drop_eq_getElem_cons present, flatten_cons]
  simp [frames]

theorem readChunk_container {index : Nat} (fits : sealing.Fits) (inside : index < sealing.count) :
    readChunk sealing.container sealing.aad sealing.dek sealing.streamNonce (sealing.count - 1)
      index = .ok (piece BLOB_CHUNK_BYTES sealing.plaintext index) := by
  obtain ⟨rest, hit⟩ := sealing.drop_container inside
  have small : (sealing.chunk index).length ≤ MAX_CIPHERTEXT_CHUNK_BYTES :=
    length_sealPiece_le ..
  have framed : (sealing.chunk index).length < 256 ^ CHUNK_LEN_BYTES :=
    lt_of_le_of_lt small (by decide)
  have numbered : index < 2 ^ 32 := lt_of_lt_of_le inside fits.count
  have lengthAt : slice sealing.container (chunkOffset sealing.aad.length index)
      CHUNK_LEN_BYTES = toBigEndian CHUNK_LEN_BYTES (sealing.chunk index).length := by
    rw [slice, hit, frame, append_assoc]
    exact take_left' (length_toBigEndian ..)
  have bodyAt : slice sealing.container
      (chunkOffset sealing.aad.length index + CHUNK_LEN_BYTES) (sealing.chunk index).length =
      sealing.chunk index := by
    rw [slice, ← drop_drop, hit, frame, append_assoc,
      drop_left' (length_toBigEndian ..), take_left]
  have opened : crypto.openChunk sealing.aad sealing.dek sealing.streamNonce index
      (index == sealing.count - 1) (sealing.chunk index) =
      some (piece BLOB_CHUNK_BYTES sealing.plaintext index) :=
    crypto.open_seal ..
  simp only [readChunk, lengthAt, ofBigEndian_toBigEndian framed, bodyAt, opened, require,
    length_toBigEndian, if_pos small, if_pos numbered, if_true, elim_some]
  rfl

theorem unwrapDek_key (sealing : Sealing crypto) (kek : crypto.Key) :
    unwrapDek (sealing.key kek) kek sealing.aad = .ok sealing.dek := by
  rw [unwrapDek, key, crypto.unwrap_wrap, elim_some]

/-- **A sealed container answers every range of its plaintext.** -/
theorem readRange_container {kek : crypto.Key} {offset length : Nat} (fits : sealing.Fits)
    (nonempty : 0 < length) (inside : offset + length ≤ sealing.plaintext.length) :
    readRange kek sealing.mediaType sealing.kekId sealing.plaintext.length (sealing.key kek)
      sealing.container offset length = .ok (slice sealing.plaintext offset length) := by
  have positive := BLOB_CHUNK_BYTES_pos
  have opened : (touched BLOB_CHUNK_BYTES offset length).mapM
      (readChunk sealing.container sealing.aad sealing.dek sealing.streamNonce
        (sealing.count - 1)) =
      .ok ((touched BLOB_CHUNK_BYTES offset length).map
        (piece BLOB_CHUNK_BYTES sealing.plaintext)) := by
    refine mapM_eq_ok fun index mem => readChunk_container fits ?_
    exact lt_of_le_of_lt (mem_touched mem) (div_lt_chunkCount (by omega))
  have sizeAgrees : sealing.header.byteSize = sealing.plaintext.length := rfl
  simp only [readRange, openContainer_container fits, unwrapDek_key, ok_bind, sizeAgrees, require,
    if_true]
  rw [show chunkCount sealing.plaintext.length - 1 = sealing.count - 1 from rfl,
    show sealing.header.streamNonce = sealing.streamNonce from rfl, opened, ok_bind,
    if_pos (le_length_touched positive nonempty inside), slice_touched positive nonempty]
  rfl

end Sealing

end Reading

end Gridwork.Blob
