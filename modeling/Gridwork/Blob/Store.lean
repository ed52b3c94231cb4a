import Gridwork.Blob.Container
import Gridwork.Kernel.Route
import Gridwork.Lib.Program
import Gridwork.Lib.Table

/-!
# The blob store

Containers lie on a filesystem; keys, pins and uploads are rows of a database.  Every call of
the store is a program over the operations of the two: one SQL statement or one file operation
is one atomic step, and between two of them other calls may act.

A failing disk or database is not modelled; a call may be given up between any two of its steps.
-/

namespace Gridwork.Blob

open Lib Table
open Kernel (Instant)

def UPLOAD_EXPIRY_SECS : Nat := 3600

def UPLOAD_ID_HEX_LEN : Nat := 32

def isUploadId (value : String) : Bool :=
  value.toList.length == UPLOAD_ID_HEX_LEN &&
    value.toList.all fun c => c.isDigit || ('a' ≤ c && c ≤ 'f')

/-! ## State -/

structure UploadRow where
  mediaType : String
  (byteSize written nextChunk : Nat)
  startedAt : Instant

/-- A committed blob.  The key goes when the blob is shredded: the table's check ties the two
together. -/
structure BlobRow (crypto : Crypto) where
  mediaType : String
  byteSize : Nat
  kekId : String
  createdAt : Instant
  key : Option (KeyMaterial crypto)

def BlobRow.tombstoned {crypto : Crypto} (row : BlobRow crypto) : Bool :=
  row.key.isNone

/-- An evidence row, as far as retention reads it. -/
structure EvidenceRow where
  ref : BlobAddress
  ptyRecording : Bool
  createdAt : Instant

structure ContextRow where
  digest : BlobAddress
  retentionClass : String
  createdAt : Instant

structure References where
  (events checkpoints : List BlobAddress)
  evidence : List EvidenceRow
  contexts : List ContextRow

structure BlobConfig (crypto : Crypto) where
  kek : crypto.Key
  kekId : String
  ptyRecordingRetentionDays : Nat
  contextRetention : List (String × Nat)

/-- The database and the directories.  An upload has one file; `uploadData` is what the file
holds and `uploadLinked` says whether its name is still there, so that a handle opened before
the name went still works. -/
structure Store (crypto : Crypto) where
  clock : Instant
  uploads : Table String UploadRow
  blobs : Table BlobAddress (BlobRow crypto)
  pins : List (BlobAddress × String)
  references : References
  minted : List String
  uploadData : String → Bytes
  uploadLinked : String → Bool
  staging : String → Option Bytes
  containers : BlobAddress → Option Bytes

namespace Store

variable {crypto : Crypto}

def initial : Store crypto where
  clock := 0
  uploads := ∅
  blobs := ∅
  pins := []
  references := ⟨[], [], [], []⟩
  minted := []
  uploadData _ := []
  uploadLinked _ := false
  staging _ := none
  containers _ := none

def blob (store : Store crypto) (address : BlobAddress) : Option (BlobRow crypto) :=
  store.blobs.lookup address

def upload (store : Store crypto) (id : String) : Option UploadRow :=
  store.uploads.lookup id

def putUpload (store : Store crypto) (id : String) (row : UploadRow) : Store crypto :=
  { store with uploads := store.uploads.insert id row }

def dropUploads (store : Store crypto) (ids : List String) : Store crypto :=
  { store with uploads := store.uploads.eraseAll ids }

def putBlob (store : Store crypto) (address : BlobAddress) (row : BlobRow crypto) : Store crypto :=
  { store with blobs := store.blobs.insert address row }

/-- The store without the rows of some blobs; their pins go with them. -/
def dropBlobs (store : Store crypto) (addresses : List BlobAddress) : Store crypto :=
  { store with
    blobs := store.blobs.eraseAll addresses
    pins := store.pins.filter fun pin => pin.1 ∉ addresses }

section

variable (store : Store crypto)
include store

theorem upload_putUpload (id other : String) (row : UploadRow) :
    (store.putUpload id row).upload other = if other = id then some row else store.upload other :=
  lookup_insert_eq ..

theorem upload_dropUploads (ids : List String) (id : String) :
    (store.dropUploads ids).upload id = if id ∈ ids then none else store.upload id :=
  lookup_eraseAll ..

theorem blob_putBlob (address other : BlobAddress) (row : BlobRow crypto) :
    (store.putBlob address row).blob other =
      if other = address then some row else store.blob other :=
  lookup_insert_eq ..

theorem blob_dropBlobs (addresses : List BlobAddress) (address : BlobAddress) :
    (store.dropBlobs addresses).blob address =
      if address ∈ addresses then none else store.blob address :=
  lookup_eraseAll ..

end

/-- `started_at < now() - make_interval(secs => UPLOAD_EXPIRY_SECS)`. -/
def expired (store : Store crypto) (row : UploadRow) : Bool :=
  row.startedAt < store.clock - UPLOAD_EXPIRY_SECS * 1000000

def pinned (store : Store crypto) (address : BlobAddress) : Bool :=
  store.pins.any fun pin => pin.1 == address

/-- `created_at >= now() - make_interval(days => days)`. -/
def within (store : Store crypto) (days : Nat) (createdAt : Instant) : Bool :=
  store.clock - days * 86400 * 1000000 ≤ createdAt

/-- `unreferenced!`: a live blob that no pin, event, checkpoint, evidence or classification
protects. -/
def unreferenced (config : BlobConfig crypto) (store : Store crypto) (address : BlobAddress) :
    Bool :=
  (store.blob address).any (fun row => !row.tombstoned) &&
  !store.pinned address &&
  !store.references.events.contains address &&
  !store.references.checkpoints.contains address &&
  !(store.references.evidence.any fun row => row.ref == address &&
    (!row.ptyRecording || store.within config.ptyRecordingRetentionDays row.createdAt) &&
    !(store.references.contexts.any fun context => context.digest == row.ref)) &&
  !(store.references.contexts.any fun row => row.digest == address &&
    match config.contextRetention.lookup row.retentionClass with
    | none => true
    | some days => store.within days row.createdAt)

end Store

/-- Bytes written into a file at an offset; a gap before them reads as zeros. -/
def writeAt (content : Bytes) (offset : Nat) (chunk : Bytes) : Bytes :=
  if chunk = [] then content
  else content.take offset ++ List.replicate (offset - content.length) 0 ++ chunk ++
    content.drop (offset + chunk.length)

/-! ## Operations -/

/-- The SQL statements, the sources of randomness and the file operations of the store. -/
inductive Op (crypto : Crypto) where
  | expireUploads
  | insertUpload (id mediaType : String) (byteSize : Nat)
  | selectUpload (id : String)
  | recordChunk (id : String) (written : Nat)
  | deleteUpload (id : String)
  | selectBlob (address : BlobAddress)
  | insertBlob (address : BlobAddress) (mediaType : String) (byteSize : Nat) (kekId : String)
      (key : KeyMaterial crypto)
  | insertPin (address : BlobAddress) (evidence : String)
  | deletePin (address : BlobAddress) (evidence : String)
  | deleteUnreferenced
  | tombstone (address : BlobAddress)
  | generateId | generateSecrets
  | createUploadFile (id : String)
  | openUploadFile (id : String)
  | writeUploadFile (id : String) (offset : Nat) (chunk : Bytes)
  | readUploadFile (id : String) (length : Nat)
  | removeUploadFile (id : String)
  | writeStaging (id : String) (container : Bytes)
  | renameStaging (id : String) (address : BlobAddress)
  | removeStaging (id : String)
  | openContainer (address : BlobAddress)
  | removeContainer (address : BlobAddress)

/-- What a commit seals under: a fresh data key and fresh nonces. -/
structure Secrets (crypto : Crypto) where
  dek : crypto.Key
  wrapNonce : crypto.Nonce
  streamNonce : Block STREAM_NONCE_BYTES

structure FoundUpload where
  row : UploadRow
  expired : Bool

structure FoundBlob (crypto : Crypto) where
  row : BlobRow crypto
  pinned : Bool

/-- What each operation answers.  A file that is opened is answered by its content: containers
are written under another name and renamed, so an open one does not change. -/
abbrev Op.Reply {crypto : Crypto} : Op crypto → Type
  | .expireUploads => List String
  | .insertUpload .. => Bool
  | .selectUpload _ => Option FoundUpload
  | .recordChunk .. => Unit
  | .deleteUpload _ => Bool
  | .selectBlob _ => Option (FoundBlob crypto)
  | .insertBlob .. => Bool
  | .insertPin .. => Bool
  | .deletePin .. => Unit
  | .deleteUnreferenced => List BlobAddress
  | .tombstone _ => Bool
  | .generateId => String
  | .generateSecrets => Secrets crypto
  | .createUploadFile _ => Unit
  | .openUploadFile _ => Bool
  | .writeUploadFile .. => Unit
  | .readUploadFile .. => Option Bytes
  | .removeUploadFile _ => Unit
  | .writeStaging .. => Unit
  | .renameStaging .. => Bool
  | .removeStaging _ => Unit
  | .openContainer _ => Option Bytes
  | .removeContainer _ => Unit

abbrev signature (crypto : Crypto) : Signature :=
  ⟨Op crypto, Op.Reply⟩

/-- What an operation does not determine: the random bytes it draws, and the order in which a
statement returns its rows. -/
inductive Choice (crypto : Crypto) where
  | plain
  | id (bytes : Block 16)
  | secrets (secrets : Secrets crypto)
  | uploads (ids : List String)
  | blobs (addresses : List BlobAddress)

section Exec

variable {crypto : Crypto} (config : BlobConfig crypto) {store after : Store crypto}
  {choice : Choice crypto} {mediaType id kekId evidence : String} {byteSize written length : Nat}
  {inserted updated renamed : Bool} {address : BlobAddress}

/-- What an operation does, and answers.  No id is minted twice. -/
def exec (store : Store crypto) : (op : Op crypto) → Choice crypto →
    Option (op.Reply × Store crypto)
  | .expireUploads, .uploads ids =>
    if ids.Perm (store.uploads.keys.filter fun id => (store.upload id).any store.expired) then
      some (ids, store.dropUploads ids)
    else none
  | .expireUploads, _ => none
  | .insertUpload id mediaType byteSize, _ =>
    match store.upload id with
    | some _ => some (false, store)
    | none => some (true, store.putUpload id ⟨mediaType, byteSize, 0, 0, store.clock⟩)
  | .selectUpload id, _ => some ((store.upload id).map fun row => ⟨row, store.expired row⟩, store)
  | .recordChunk id written, _ =>
    match store.upload id with
    | none => some ((), store)
    | some row => some ((), store.putUpload id
        { row with written := written, nextChunk := row.nextChunk + 1 })
  | .deleteUpload id, _ => some ((store.upload id).isSome, store.dropUploads [id])
  | .selectBlob address, _ =>
    some ((store.blob address).map fun row => ⟨row, store.pinned address⟩, store)
  | .insertBlob address mediaType byteSize kekId key, _ =>
    match store.blob address with
    | some _ => some (false, store)
    | none => some (true, store.putBlob address ⟨mediaType, byteSize, kekId, store.clock, some key⟩)
  | .insertPin address evidence, _ =>
    -- the foreign key refuses a pin of a blob that has no row
    match store.blob address with
    | none => some (false, store)
    | some _ => some (true,
        if (address, evidence) ∈ store.pins then store
        else { store with pins := store.pins ++ [(address, evidence)] })
  | .deletePin address evidence, _ =>
    some ((), { store with pins := store.pins.filter (· ≠ (address, evidence)) })
  | .deleteUnreferenced, .blobs addresses =>
    if addresses.Perm (store.blobs.keys.filter fun address => store.unreferenced config address)
    then some (addresses, store.dropBlobs addresses)
    else none
  | .deleteUnreferenced, _ => none
  | .tombstone address, _ =>
    match store.blob address with
    | none => some (false, store)
    | some row =>
      if row.tombstoned || store.pinned address then some (false, store)
      else some (true, store.putBlob address { row with key := none })
  | .generateId, .id bytes =>
    if hexLower bytes.toList ∈ store.minted then none
    else some (hexLower bytes.toList,
      { store with minted := hexLower bytes.toList :: store.minted })
  | .generateId, _ => none
  | .generateSecrets, .secrets secrets => some (secrets, store)
  | .generateSecrets, _ => none
  | .createUploadFile id, _ =>
    some ((), { store with
      uploadData := Function.update store.uploadData id []
      uploadLinked := Function.update store.uploadLinked id true })
  | .openUploadFile id, _ => some (store.uploadLinked id, store)
  | .writeUploadFile id offset chunk, _ =>
    some ((), { store with
      uploadData :=
        Function.update store.uploadData id (writeAt (store.uploadData id) offset chunk) })
  | .readUploadFile id length, _ =>
    some (if length ≤ (store.uploadData id).length then
      some ((store.uploadData id).take length) else none, store)
  | .removeUploadFile id, _ =>
    some ((), { store with uploadLinked := Function.update store.uploadLinked id false })
  | .writeStaging id container, _ =>
    some ((), { store with staging := Function.update store.staging id (some container) })
  | .renameStaging id address, _ =>
    match store.staging id with
    | none => some (false, store)
    | some container => some (true, { store with
        staging := Function.update store.staging id none
        containers := Function.update store.containers address (some container) })
  | .removeStaging id, _ =>
    some ((), { store with staging := Function.update store.staging id none })
  | .openContainer address, _ => some (store.containers address, store)
  | .removeContainer address, _ =>
    some ((), { store with containers := Function.update store.containers address none })

/-! ### What each operation may do

The operations with branches, taken apart; the others are read off `exec`. -/

variable {config}

theorem exec_expireUploads {ids : List String}
    (done : exec config store .expireUploads choice = some (ids, after)) :
    ids.Perm (store.uploads.keys.filter fun id => (store.upload id).any store.expired) ∧
      after = store.dropUploads ids := by
  cases choice with
  | uploads listed =>
    obtain ⟨stale, eq⟩ := Option.ite_none_right_eq_some.mp done
    cases eq
    exact ⟨stale, rfl⟩
  | _ => cases done

theorem exec_insertUpload (done : exec config store (.insertUpload id mediaType byteSize) choice =
      some (inserted, after)) :
    inserted = false ∧ after = store ∨ store.upload id = none ∧ inserted = true ∧
        after = store.putUpload id ⟨mediaType, byteSize, 0, 0, store.clock⟩ := by
  simp only [exec] at done
  cases hit : store.upload id with
  | none =>
    rw [hit] at done
    cases done
    exact .inr ⟨rfl, rfl, rfl⟩
  | some row =>
    rw [hit] at done
    cases done
    exact .inl ⟨rfl, rfl⟩

theorem exec_recordChunk {reply : Unit}
    (done : exec config store (.recordChunk id written) choice = some (reply, after)) :
    store.upload id = none ∧ after = store ∨
      ∃ row, store.upload id = some row ∧ after = store.putUpload id
        { row with written := written, nextChunk := row.nextChunk + 1 } := by
  simp only [exec] at done
  cases hit : store.upload id with
  | none =>
    rw [hit] at done
    cases done
    exact .inl ⟨rfl, rfl⟩
  | some row =>
    rw [hit] at done
    cases done
    exact .inr ⟨row, rfl, rfl⟩

theorem exec_insertBlob {key : KeyMaterial crypto}
    (done : exec config store (.insertBlob address mediaType byteSize kekId key) choice =
      some (inserted, after)) :
    (∃ row, store.blob address = some row) ∧ inserted = false ∧ after = store ∨
      store.blob address = none ∧ inserted = true ∧ after = store.putBlob address
        ⟨mediaType, byteSize, kekId, store.clock, some key⟩ := by
  simp only [exec] at done
  cases hit : store.blob address with
  | none =>
    rw [hit] at done
    cases done
    exact .inr ⟨rfl, rfl, rfl⟩
  | some row =>
    rw [hit] at done
    cases done
    exact .inl ⟨⟨row, rfl⟩, rfl, rfl⟩

theorem exec_insertPin
    (done : exec config store (.insertPin address evidence) choice = some (inserted, after)) :
    store.blob address = none ∧ inserted = false ∧ after = store ∨
      ∃ row pins, store.blob address = some row ∧ inserted = true ∧
        after = { store with pins := pins } ∧
        ∀ pin, pin ∈ pins ↔ pin ∈ store.pins ∨ pin = (address, evidence) := by
  simp only [exec] at done
  cases hit : store.blob address with
  | none =>
    rw [hit] at done
    cases done
    exact .inl ⟨rfl, rfl, rfl⟩
  | some row =>
    rw [hit] at done
    by_cases held : (address, evidence) ∈ store.pins
    · simp only [if_pos held] at done
      cases done
      refine .inr ⟨row, store.pins, rfl, rfl, rfl, fun pin => ⟨.inl, ?_⟩⟩
      rintro (mem | rfl)
      · exact mem
      · exact held
    · simp only [if_neg held] at done
      cases done
      exact .inr ⟨row, _, rfl, rfl, rfl, fun pin => by simp⟩

theorem exec_deleteUnreferenced {addresses : List BlobAddress}
    (done : exec config store .deleteUnreferenced choice = some (addresses, after)) :
    addresses.Perm (store.blobs.keys.filter fun address => store.unreferenced config address) ∧
      after = store.dropBlobs addresses := by
  cases choice with
  | blobs listed =>
    obtain ⟨swept, eq⟩ := Option.ite_none_right_eq_some.mp done
    cases eq
    exact ⟨swept, rfl⟩
  | _ => cases done

theorem exec_tombstone
    (done : exec config store (.tombstone address) choice = some (updated, after)) :
    updated = false ∧ after = store ∨
      ∃ row, store.blob address = some row ∧ row.tombstoned = false ∧
        store.pinned address = false ∧ updated = true ∧
        after = store.putBlob address { row with key := none } := by
  simp only [exec] at done
  cases hit : store.blob address with
  | none =>
    rw [hit] at done
    cases done
    exact .inl ⟨rfl, rfl⟩
  | some row =>
    rw [hit] at done
    by_cases refused : (row.tombstoned || store.pinned address) = true
    · simp only [if_pos refused] at done
      cases done
      exact .inl ⟨rfl, rfl⟩
    · simp only [if_neg refused] at done
      cases done
      simp only [Bool.or_eq_true, not_or, Bool.not_eq_true] at refused
      exact .inr ⟨row, rfl, refused.1, refused.2, rfl, rfl⟩

theorem exec_generateId (done : exec config store .generateId choice = some (id, after)) :
    id ∉ store.minted ∧ after = { store with minted := id :: store.minted } := by
  cases choice with
  | id bytes =>
    obtain ⟨unused, eq⟩ := Option.ite_none_left_eq_some.mp done
    cases eq
    exact ⟨unused, rfl⟩
  | _ => cases done

theorem exec_generateSecrets {secrets : Secrets crypto}
    (done : exec config store .generateSecrets choice = some (secrets, after)) : after = store := by
  cases choice with
  | secrets drawn =>
    cases done
    rfl
  | _ => cases done

theorem exec_readUploadFile {content : Bytes}
    (done : exec config store (.readUploadFile id length) choice = some (some content, after)) :
    content = (store.uploadData id).take length ∧ content.length = length := by
  obtain ⟨read, -⟩ := Prod.mk.inj (Option.some.inj done)
  obtain ⟨enough, eq⟩ := Option.ite_none_right_eq_some.mp read
  cases eq
  exact ⟨rfl, List.length_take_of_le enough⟩

theorem exec_renameStaging
    (done : exec config store (.renameStaging id address) choice = some (renamed, after)) :
    renamed = false ∧ after = store ∨
      ∃ container, store.staging id = some container ∧ renamed = true ∧ after = { store with
        staging := Function.update store.staging id none
        containers := Function.update store.containers address (some container) } := by
  simp only [exec] at done
  cases hit : store.staging id with
  | none =>
    rw [hit] at done
    cases done
    exact .inl ⟨rfl, rfl⟩
  | some container =>
    rw [hit] at done
    cases done
    exact .inr ⟨container, rfl, rfl, rfl⟩

end Exec

/-! ## Calls -/

/-- What the store knows about one committed blob. -/
structure BlobDescriptor where
  address : BlobAddress
  mediaType : String
  byteSize : Nat
  kekId : String
  createdAt : Instant
  (pinned tombstoned : Bool)
  deriving DecidableEq

section Calls

variable {crypto : Crypto} (config : BlobConfig crypto)

abbrev Action (crypto : Crypto) (Answer : Type) :=
  Fallible (signature crypto) BlobError Answer

open Fallible (check need lift)

abbrev op (verb : Op crypto) : Action crypto verb.Reply :=
  @Fallible.op (signature crypto) BlobError verb

def FoundBlob.descriptor (hit : FoundBlob crypto) (address : BlobAddress) : BlobDescriptor :=
  ⟨address, hit.row.mediaType, hit.row.byteSize, hit.row.kekId, hit.row.createdAt,
    hit.pinned, hit.row.tombstoned⟩

def uploadId (upload : String) : Action crypto Unit :=
  check (isUploadId upload) .notFound

def discardUploadFiles (id : String) : Action crypto Unit := do
  op (.removeUploadFile id)
  op (.removeStaging id)

def expireUploads : Action crypto Unit := do
  let stale : List String ← op .expireUploads
  stale.forM discardUploadFiles

/-- `readable`: the row, or the reason there is nothing to read. -/
def readable (address : BlobAddress) : Action crypto (FoundBlob crypto) := do
  let hit : Option (FoundBlob crypto) ← op (.selectBlob address)
  let row ← need hit .notFound
  check (¬ row.row.tombstoned) .tombstoned
  return row

def begin (mediaType : String) (byteSize : Nat) : Action crypto String := do
  check ((asBytes mediaType).length ≠ 0 ∧ (asBytes mediaType).length ≤ 65535)
    (.integrity "media type must be 1..=65535 bytes")
  check (byteSize < 2 ^ 63) (.integrity "declared size does not fit a signed 64-bit column")
  expireUploads
  let id : String ← op .generateId
  let inserted : Bool ← op (.insertUpload id mediaType byteSize)
  check inserted (.storage "begin upload")
  op (.createUploadFile id)
  return id

def writeChunk (upload : String) (sequence : Nat) (chunk : Bytes) : Action crypto Unit := do
  uploadId upload
  let hit : Option FoundUpload ← op (.selectUpload upload)
  let row ← need hit .notFound
  check (¬ row.expired) .notFound
  check (sequence = row.row.nextChunk)
    (.integrity s!"chunk {sequence} is out of order: expected {row.row.nextChunk}")
  check (chunk.length < 2 ^ 63) (.integrity "chunk does not fit a signed 64-bit count")
  let after := row.row.written + chunk.length
  check (after < 2 ^ 63) (.integrity "upload size overflowed")
  check (after ≤ row.row.byteSize)
    (.integrity (s!"chunk {sequence} would bring the upload to {after} bytes, past the " ++
      s!"{row.row.byteSize} it declared"))
  let opened : Bool ← op (.openUploadFile upload)
  check opened (.storage "open upload file")
  op (.writeUploadFile upload row.row.written chunk)
  op (.recordChunk upload after)

def commitExisting (upload : String) (address : BlobAddress) (mediaType : String)
    (existing : FoundBlob crypto) : Action crypto (BlobDescriptor × Bool) := do
  discardUploadFiles upload
  let _ ← op (.deleteUpload upload)
  check (¬ existing.row.tombstoned) .tombstoned
  check (existing.row.mediaType = mediaType)
    (.integrity (s!"{address.asStr} is already stored as {debugStr existing.row.mediaType}; " ++
      s!"this upload declares {debugStr mediaType}"))
  return (existing.descriptor address, true)

/-- The end of a commit that wrote its row, or lost the race for it: close the upload, and read
the row back. -/
def closeCommit (upload : String) (address : BlobAddress) (inserted : Bool) :
    Action crypto (BlobDescriptor × Bool) := do
  let _ ← op (.deleteUpload upload)
  discardUploadFiles upload
  let hit : Option (FoundBlob crypto) ← op (.selectBlob address)
  let stored ← need hit .notFound
  return (stored.descriptor address, !inserted)

def recordBlob (upload : String) (address : BlobAddress) (row : UploadRow)
    (key : KeyMaterial crypto) : Action crypto (BlobDescriptor × Bool) := do
  let inserted : Bool ← op (.insertBlob address row.mediaType row.byteSize config.kekId key)
  closeCommit upload address inserted

/-- The end of a commit that found no row: seal, publish the container, then write the row. -/
def commitNew (upload : String) (address : BlobAddress) (row : UploadRow) (plaintext : Bytes) :
    Action crypto (BlobDescriptor × Bool) := do
  let secrets : Secrets crypto ← op .generateSecrets
  let sealed ← lift (sealWith plaintext row.mediaType config.kek config.kekId secrets.dek
    secrets.wrapNonce secrets.streamNonce)
  op (.writeStaging upload sealed.container)
  let renamed : Bool ← op (.renameStaging upload address)
  check renamed (.storage "publish container")
  recordBlob config upload address row sealed.key

def commit (upload : String) (address : BlobAddress) : Action crypto (BlobDescriptor × Bool) := do
  uploadId upload
  let hit : Option FoundUpload ← op (.selectUpload upload)
  let row ← need hit .notFound
  check (¬ row.expired) .notFound
  check (row.row.written = row.row.byteSize)
    (.integrity s!"upload holds {row.row.written} of the {row.row.byteSize} bytes it declared")
  let opened : Bool ← op (.openUploadFile upload)
  check opened (.storage "open upload file")
  let staged : Option Bytes ← op (.readUploadFile upload row.row.written)
  let plaintext ← need staged (.storage "read staged plaintext")
  check (addressOf (crypto.sha256 plaintext) = address)
    (.digestMismatch address (addressOf (crypto.sha256 plaintext)))
  let existing : Option (FoundBlob crypto) ← op (.selectBlob address)
  match existing with
  | some existing => commitExisting upload address row.row.mediaType existing
  | none => commitNew config upload address row.row plaintext

def abort (upload : String) : Action crypto Unit := do
  uploadId upload
  let deleted : Bool ← op (.deleteUpload upload)
  discardUploadFiles upload
  check deleted .notFound

/-- How many bytes `read` answers: the length asked for, at most a chunk and at most what is
left behind the offset. -/
def clampLength (size offset length : Nat) : Nat :=
  min (min length BLOB_CHUNK_BYTES) (size - offset)

def readFound (address : BlobAddress) (offset length : Nat) (hit : FoundBlob crypto) :
    Action crypto Bytes := do
  let key ← need hit.row.key .tombstoned
  if clampLength hit.row.byteSize offset length = 0 then return []
  else
    let opened : Option Bytes ← op (.openContainer address)
    let container ← need opened (.storage "open container")
    lift (readRange config.kek hit.row.mediaType hit.row.kekId hit.row.byteSize key container
      offset (clampLength hit.row.byteSize offset length))

def read (address : BlobAddress) (offset length : Nat) : Action crypto Bytes := do
  let hit ← readable address
  readFound config address offset length hit

def stat (address : BlobAddress) : Action crypto (Option BlobDescriptor) := do
  let hit : Option (FoundBlob crypto) ← op (.selectBlob address)
  check (¬ hit.any fun row => row.row.tombstoned) .tombstoned
  return hit.map fun row => row.descriptor address

def pin (address : BlobAddress) (evidence : String) : Action crypto Unit := do
  let _ ← readable address
  let inserted : Bool ← op (.insertPin address evidence)
  check inserted (.storage "pin blob")

def unpin (address : BlobAddress) (evidence : String) : Action crypto Unit := do
  let hit : Option (FoundBlob crypto) ← op (.selectBlob address)
  check hit.isSome .notFound
  op (.deletePin address evidence)

def sweep : Action crypto (List BlobAddress) := do
  expireUploads
  let swept : List BlobAddress ← op .deleteUnreferenced
  swept.forM fun address => op (.removeContainer address)
  return swept

def shred (address : BlobAddress) : Action crypto Unit := do
  let hit : Option (FoundBlob crypto) ← op (.selectBlob address)
  let row ← need hit .notFound
  if row.row.tombstoned then return ()
  else
    check (¬ row.pinned) .pinned
    let updated : Bool ← op (.tombstone address)
    check updated .pinned
    op (.removeContainer address)

end Calls

/-! ## The system -/

inductive Call where
  | begin (mediaType : String) (byteSize : Nat)
  | writeChunk (upload : String) (sequence : Nat) (chunk : Bytes)
  | commit (upload : String) (address : BlobAddress)
  | abort (upload : String)
  | read (address : BlobAddress) (offset length : Nat)
  | stat (address : BlobAddress)
  | pin (address : BlobAddress) (evidence : String)
  | unpin (address : BlobAddress) (evidence : String)
  | sweep
  | shred (address : BlobAddress)
  deriving DecidableEq

inductive Outcome where
  | done
  | upload (id : String)
  | committed (descriptor : BlobDescriptor) (duplicate : Bool)
  | bytes (content : Bytes)
  | described (descriptor : Option BlobDescriptor)
  | swept (addresses : List BlobAddress)
  deriving DecidableEq

abbrev Answer := Except BlobError Outcome

variable {crypto : Crypto} (config : BlobConfig crypto) {call : Call}

def code : Call → Action crypto Outcome
  | .begin mediaType byteSize => do return Outcome.upload (← begin mediaType byteSize)
  | .writeChunk upload sequence chunk => do
    writeChunk upload sequence chunk
    return Outcome.done
  | .commit upload address => do
    let stored ← commit config upload address
    return Outcome.committed stored.1 stored.2
  | .abort upload => do
    abort upload
    return Outcome.done
  | .read address offset length => do
    return Outcome.bytes (← read config address offset length)
  | .stat address => do return Outcome.described (← stat address)
  | .pin address evidence => do
    pin address evidence
    return Outcome.done
  | .unpin address evidence => do
    unpin address evidence
    return Outcome.done
  | .sweep => do return Outcome.swept (← sweep)
  | .shred address => do
    shred address
    return Outcome.done

/-- What happens outside the store: time passes, and other tables change. -/
inductive Outside where
  | pass (duration : Nat)
  | refer (references : References)

def disturb (store : Store crypto) : Outside → Store crypto
  | .pass duration => { store with clock := store.clock + duration }
  | .refer references => { store with references := references }

def system : System (signature crypto) (Store crypto) Call Answer (Choice crypto) Outside :=
  ⟨exec config, disturb, code config⟩

/-! ## What a call may perform -/

/-- The calls that some operations belong to: pins, and what is done to uploads. -/
def Call.may {crypto : Crypto} (call : Call) : Op crypto → Prop
  | .insertPin address evidence => call = .pin address evidence
  | .deletePin address evidence => call = .unpin address evidence
  | .generateId => ∃ mediaType byteSize, call = .begin mediaType byteSize
  | .insertUpload .. => ∃ mediaType byteSize, call = .begin mediaType byteSize
  | .createUploadFile _ => ∃ mediaType byteSize, call = .begin mediaType byteSize
  | .writeUploadFile upload _ _ => ∃ sequence chunk, call = .writeChunk upload sequence chunk
  | .recordChunk upload _ => ∃ sequence chunk, call = .writeChunk upload sequence chunk
  | .readUploadFile upload _ => ∃ address, call = .commit upload address
  | .selectUpload upload => (∃ sequence chunk, call = .writeChunk upload sequence chunk) ∨
      ∃ address, call = .commit upload address
  | .openUploadFile upload => (∃ sequence chunk, call = .writeChunk upload sequence chunk) ∨
      ∃ address, call = .commit upload address
  | _ => True

section May

open Fallible

theorem may_discardUploadFiles (id : String) :
    Fallible.Only call.may (discardUploadFiles id : Action crypto Unit) :=
  only_bind (only_op trivial) fun _ => only_op trivial

theorem may_expireUploads : Fallible.Only call.may (expireUploads : Action crypto Unit) :=
  only_bind (only_op trivial) fun _ => only_forM may_discardUploadFiles

theorem may_readable (address : BlobAddress) :
    Fallible.Only call.may (readable address : Action crypto _) :=
  only_bind (only_op trivial) fun _ => only_bind trivial fun _ => only_bind trivial fun _ => trivial

theorem may_begin (mediaType : String) (byteSize : Nat) :
    Fallible.Only (Call.begin mediaType byteSize).may
      (begin mediaType byteSize : Action crypto _) :=
  only_bind trivial fun _ => only_bind trivial fun _ => only_bind may_expireUploads fun _ =>
    only_bind (only_op ⟨_, _, rfl⟩) fun _ => only_bind (only_op ⟨_, _, rfl⟩) fun _ =>
      only_bind trivial fun _ => only_bind (only_op ⟨_, _, rfl⟩) fun _ => trivial

section

variable (upload : String)
include upload

theorem may_writeChunk (sequence : Nat) (chunk : Bytes) :
    Fallible.Only (Call.writeChunk upload sequence chunk).may
      (writeChunk upload sequence chunk : Action crypto Unit) :=
  only_bind trivial fun _ => only_bind (only_op (.inl ⟨_, _, rfl⟩)) fun _ =>
    only_bind trivial fun _ => only_bind trivial fun _ => only_bind trivial fun _ =>
      only_bind trivial fun _ => only_bind trivial fun _ => only_bind trivial fun _ =>
        only_bind (only_op (.inl ⟨_, _, rfl⟩)) fun _ => only_bind trivial fun _ =>
          only_bind (only_op ⟨_, _, rfl⟩) fun _ => only_op ⟨_, _, rfl⟩

section

variable (address : BlobAddress)
include address

theorem may_commitExisting (mediaType : String) (existing : FoundBlob crypto) :
    Fallible.Only call.may (commitExisting upload address mediaType existing) :=
  only_bind (may_discardUploadFiles upload) fun _ => only_bind (only_op trivial) fun _ =>
    only_bind trivial fun _ => only_bind trivial fun _ => trivial

theorem may_closeCommit (inserted : Bool) :
    Fallible.Only call.may (closeCommit upload address inserted : Action crypto _) :=
  only_bind (only_op trivial) fun _ => only_bind (may_discardUploadFiles upload) fun _ =>
    only_bind (only_op trivial) fun _ => only_bind trivial fun _ => trivial

theorem may_commitNew (row : UploadRow)
    (plaintext : Bytes) : Fallible.Only call.may (commitNew config upload address row plaintext) :=
  only_bind (only_op trivial) fun _ => only_bind trivial fun _ =>
    only_bind (only_op trivial) fun _ =>
    only_bind (only_op trivial) fun _ => only_bind trivial fun _ =>
      only_bind (only_op trivial) fun _ => may_closeCommit upload address _

theorem may_commit :
    Fallible.Only (Call.commit upload address).may (commit config upload address) := by
  refine only_bind trivial fun _ => only_bind (only_op (.inr ⟨_, rfl⟩)) fun _ =>
    only_bind trivial fun _ => only_bind trivial fun _ => only_bind trivial fun _ =>
      only_bind (only_op (.inr ⟨_, rfl⟩)) fun _ => only_bind trivial fun _ =>
        only_bind (only_op ⟨_, rfl⟩) fun _ => only_bind trivial fun _ => only_bind trivial fun _ =>
          only_bind (only_op trivial) fun existing => ?_
  cases existing with
  | none => exact may_commitNew config upload address _ _
  | some existing => exact may_commitExisting upload address _ existing

end

end

theorem may_read (address : BlobAddress) (offset length : Nat) :
    Fallible.Only call.may (read config address offset length) := by
  refine only_bind (may_readable address) fun hit => only_bind trivial fun key => ?_
  split
  next => exact trivial
  next => exact only_bind (only_op trivial) fun _ => only_bind trivial fun _ => trivial

theorem may_shred (address : BlobAddress) :
    Fallible.Only call.may (shred address : Action crypto Unit) := by
  refine only_bind (only_op trivial) fun _ => only_bind trivial fun row => ?_
  split
  next => exact trivial
  next =>
    exact only_bind trivial fun _ => only_bind (only_op trivial) fun _ => only_bind trivial fun _ =>
      only_op trivial

/-- **A call performs its own operations only.** -/
theorem may_code (call : Call) : (code config call).Only call.may := by
  cases call with
  | begin mediaType byteSize => exact only_bind (may_begin mediaType byteSize) fun _ => trivial
  | writeChunk upload sequence chunk =>
    exact only_bind (may_writeChunk upload sequence chunk) fun _ => trivial
  | commit upload address => exact only_bind (may_commit config upload address) fun _ => trivial
  | abort upload =>
    exact only_bind (only_bind trivial fun _ => only_bind (only_op trivial) fun _ =>
      only_bind (may_discardUploadFiles upload) fun _ => trivial) fun _ => trivial
  | read address offset length =>
    exact only_bind (may_read config address offset length) fun _ => trivial
  | stat address =>
    exact only_bind (only_bind (only_op trivial) fun _ => only_bind trivial fun _ => trivial)
      fun _ => trivial
  | pin address evidence =>
    exact only_bind (only_bind (may_readable address) fun _ => only_bind (only_op rfl) fun _ =>
      trivial) fun _ => trivial
  | unpin address evidence =>
    exact only_bind (only_bind (only_op trivial) fun _ => only_bind trivial fun _ => only_op rfl)
      fun _ => trivial
  | sweep =>
    exact only_bind (only_bind may_expireUploads fun _ => only_bind (only_op trivial) fun _ =>
      only_bind (only_forM fun _ => only_op trivial) fun _ => trivial) fun _ => trivial
  | shred address => exact only_bind (may_shred address) fun _ => trivial

end May

end Gridwork.Blob
