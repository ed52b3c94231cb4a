import Gridwork.Blob.Store

/-!
# Rows and containers

A commit publishes a blob in two steps: it renames the container into place, and then writes
the row with the key that opens it.  The two belong together as long as nobody else renames a
container to that place in between, and nobody removes it behind the row's back.

`Careful` is the discipline that makes it so: a commit looks for an existing row only while no
other commit of the address or the upload is between its look and its row, and while no sweep
that has deleted the row has still to remove the container.  Under it every live row has its
own container in place, in every state of every run (`Sound`).
-/

namespace Gridwork.Blob

open Lib List Function Bool Store Option BlobRow

/-- The store, the calls under way, and what happened so far. -/
abbrev Seen (crypto : Crypto) := View (signature crypto) (Store crypto) Call Answer

variable {crypto : Crypto} {other index byteSize : Nat} {view : Seen crypto}
  {after store : Store crypto} {sealing : Sealing crypto} {key : KeyMaterial crypto}
  {upload mediaType kekId : String} {address : BlobAddress} {swept : List BlobAddress}
  {renamed inserted updated : Bool}

/-- A commit that has seen no row for its address and has not written one yet. -/
structure Publishes (view : Seen crypto) (index : Nat) (upload : String) (address : BlobAddress) :
    Prop where
  running : view.running index = some (.commit upload address)
  looked : .performed index (Op.selectBlob address) none ∈ view.history
  unwritten : ∀ mediaType byteSize kekId key reply,
    .performed index (Op.insertBlob address mediaType byteSize kekId key) reply ∉ view.history

/-- A sweep that has deleted a row and has not removed the container yet. -/
structure Unlinks (view : Seen crypto) (index : Nat) (address : BlobAddress) : Prop where
  running : view.running index = some .sweep
  deleted : ∃ swept : List BlobAddress,
    .performed index Op.deleteUnreferenced swept ∈ view.history ∧ address ∈ swept
  unremoved : .performed index (Op.removeContainer address) () ∉ view.history

/-- A commit's first look for an existing row happens while nobody else publishes or unlinks the
container. -/
def Careful (view : Seen crypto) (index : Nat) (verb : Op crypto) : Prop :=
  ∀ upload address, verb = .selectBlob address →
    view.running index = some (.commit upload address) →
    (∀ reply, .performed index (Op.selectBlob address) reply ∉ view.history) →
    ∀ other, (∀ otherUpload otherAddress, Publishes view other otherUpload otherAddress →
      otherUpload ≠ upload ∧ otherAddress ≠ address) ∧ ¬ Unlinks view other address

def Call.removes : Call → Bool
  | .sweep => true
  | .shred _ => true
  | _ => false

def Quiet (view : Seen crypto) : Prop :=
  ∀ index call, .issued index call ∈ view.history → call.removes = false

section Sound

variable (config : BlobConfig crypto)

/-- A row's key material is that of a sealing, whose container is in place and whose plaintext a
commit read from a staged upload. -/
structure StoredAs (view : Seen crypto) (address : BlobAddress) (row : BlobRow crypto)
    (key : KeyMaterial crypto) (sealing : Sealing crypto) : Prop where
  fits : sealing.Fits
  container : view.state.containers address = some sealing.container
  key : key = sealing.key config.kek
  mediaType : row.mediaType = sealing.mediaType
  kekId : row.kekId = sealing.kekId
  byteSize : row.byteSize = sealing.plaintext.length
  address : addressOf (crypto.sha256 sealing.plaintext) = address
  staged : ∃ index upload length,
    .performed index (Op.readUploadFile upload length) (some sealing.plaintext) ∈ view.history

/-- What holds at all times of rows, containers and the calls that publish or unlink them. -/
structure Sound (view : Seen crypto) : Prop where
  orderly : view.Orderly
  stored : ∀ address row key, view.state.blob address = some row → row.key = some key →
    ∃ sealing, StoredAs config view address row key sealing
  alone : ∀ first second upload otherUpload address otherAddress,
    Publishes view first upload address → Publishes view second otherUpload otherAddress →
    upload = otherUpload ∨ address = otherAddress → first = second
  unpublished : ∀ index upload address, Publishes view index upload address →
    view.state.blob address = none
  unlinked : ∀ index address, Unlinks view index address →
    view.state.blob address = none ∧ ∀ other upload, ¬ Publishes view other upload address

/-- What a call relies on while others move: its own position stays, the place it publishes to
is left alone, and tombstones stay; as long as there is no sweep and no shred, live rows stay
with their containers. -/
structure Rely (index : Nat) (view later : Seen crypto) : Prop where
  running : later.running index = view.running index
  own : ∀ verb reply, .performed index verb reply ∈ later.history ↔
    .performed index verb reply ∈ view.history
  grown : view.history <+: later.history
  tombs : ∀ address row, view.state.blob address = some row → row.key = none →
    later.state.blob address = some row
  place : ∀ upload address, Publishes view index upload address →
    later.state.containers address = view.state.containers address
  staging : ∀ upload address, Publishes view index upload address →
    later.state.staging upload = view.state.staging upload ∨ later.state.staging upload = none
  kept : Quiet later → ∀ address row key, view.state.blob address = some row →
    row.key = some key → later.state.blob address = some row ∧
      later.state.containers address = view.state.containers address

end Sound

theorem Quiet.prior {later : Seen crypto} (quiet : Quiet later)
    (grown : view.history <+: later.history) : Quiet view :=
  fun index call issued => quiet index call (grown.subset issued)

theorem Rely.publishes {later : Seen crypto} (relied : Rely index view later) :
    Publishes later index upload address ↔ Publishes view index upload address := by
  constructor
  · rintro ⟨running, looked, unwritten⟩
    exact ⟨relied.running ▸ running, (relied.own _ _).mp looked,
      fun _ _ _ _ _ written => unwritten _ _ _ _ _ ((relied.own _ _).mpr written)⟩
  · rintro ⟨running, looked, unwritten⟩
    exact ⟨relied.running.trans running, (relied.own _ _).mpr looked,
      fun _ _ _ _ _ written => unwritten _ _ _ _ _ ((relied.own _ _).mp written)⟩

theorem Rely.refl (index : Nat) (view : Seen crypto) : Rely index view view where
  running := rfl
  own _ _ := Iff.rfl
  grown := prefix_refl _
  tombs _ _ hit _ := hit
  place _ _ _ := rfl
  staging _ _ _ := .inl rfl
  kept _ _ _ _ hit _ := ⟨hit, rfl⟩

theorem Rely.trans (index : Nat) (first second third : Seen crypto)
    (early : Rely index first second) (late : Rely index second third) :
    Rely index first third where
  running := late.running.trans early.running
  own verb reply := (late.own verb reply).trans (early.own verb reply)
  grown := early.grown.trans late.grown
  tombs address row hit shredded :=
    late.tombs address row (early.tombs address row hit shredded) shredded
  place upload address publishes :=
    (late.place upload address (early.publishes.mpr publishes)).trans
      (early.place upload address publishes)
  staging upload address publishes := by
    rcases late.staging upload address (early.publishes.mpr publishes) with eq | gone
    · rw [eq]
      exact early.staging upload address publishes
    · exact .inr gone
  kept quiet address row key hit live := by
    obtain ⟨still, container⟩ := early.kept (quiet.prior late.grown) address row key hit live
    obtain ⟨last, lastContainer⟩ := late.kept quiet address row key still live
    exact ⟨last, lastContainer.trans container⟩

variable {call : Call}

theorem own_perform {verb : Op crypto} {reply : verb.Reply} (ne : other ≠ index)
    (sought : Op crypto) (answered : sought.Reply) :
    .performed other sought answered ∈ (view.perform index verb reply after).history ↔
      .performed other sought answered ∈ view.history := by
  constructor
  · intro hit
    rcases mem_snoc.mp hit with prior | ⟨⟨⟩⟩
    · exact prior
    · exact absurd rfl ne
  · exact mem_append_left _

theorem Rely.perform {verb : Op crypto} {reply : verb.Reply} (ne : other ≠ index)
    (tombs : ∀ address row, view.state.blob address = some row → row.key = none →
      after.blob address = some row)
    (place : ∀ upload address, Publishes view other upload address →
      after.containers address = view.state.containers address)
    (staging : ∀ upload address, Publishes view other upload address →
      after.staging upload = view.state.staging upload ∨ after.staging upload = none)
    (kept : Quiet view → ∀ address row key, view.state.blob address = some row →
      row.key = some key → after.blob address = some row ∧
        after.containers address = view.state.containers address) :
    Rely other view (view.perform index verb reply after) where
  running := rfl
  own := own_perform ne
  grown := prefix_append _ _
  tombs := tombs
  place := place
  staging := staging
  kept quiet := kept (quiet.prior (prefix_append _ _))

/-! ## Positions -/

section Moves

variable {config : BlobConfig crypto} {verb : Op crypto} {reply : verb.Reply}

theorem Publishes.of_perform
    (publishes : Publishes (view.perform index verb reply after) other upload address)
    (noLook : other = index → verb ≠ .selectBlob address) :
    Publishes view other upload address := by
  refine ⟨publishes.running, ?_, fun _ _ _ _ _ written =>
    publishes.unwritten _ _ _ _ _ (mem_append_left _ written)⟩
  rcases mem_snoc.mp publishes.looked with prior | ⟨⟨⟩⟩
  · exact prior
  · exact absurd rfl (noLook rfl)

theorem Publishes.perform (publishes : Publishes view index upload address)
    (noRow : ∀ mediaType byteSize kekId key,
      verb ≠ .insertBlob address mediaType byteSize kekId key) :
    Publishes (view.perform index verb reply after) index upload address := by
  refine ⟨publishes.running, mem_append_left _ publishes.looked,
    fun mediaType byteSize kekId key inserted written => ?_⟩
  rcases mem_snoc.mp written with prior | ⟨⟨⟩⟩
  · exact publishes.unwritten _ _ _ _ _ prior
  · exact noRow _ _ _ _ rfl

theorem Unlinks.of_perform
    (unlinks : Unlinks (view.perform index verb reply after) other address)
    (noDelete : other = index → verb ≠ .deleteUnreferenced) :
    Unlinks view other address := by
  obtain ⟨swept, deleted, mem⟩ := unlinks.deleted
  refine ⟨unlinks.running, ⟨swept, ?_, mem⟩, fun removed =>
    unlinks.unremoved (mem_append_left _ removed)⟩
  rcases mem_snoc.mp deleted with prior | ⟨⟨⟩⟩
  · exact prior
  · exact absurd rfl (noDelete rfl)

variable {row : BlobRow crypto}

theorem StoredAs.later {later : Seen crypto} (stored : StoredAs config view address row key sealing)
    (container : later.state.containers address = view.state.containers address)
    (grown : view.history <+: later.history) : StoredAs config later address row key sealing := by
  obtain ⟨reader, upload, length, staged⟩ := stored.staged
  exact { stored with
    container := container.trans stored.container
    staged := ⟨reader, upload, length, grown.subset staged⟩ }

/-- A step that brings no call into a new position, keeps what is stored, and leaves the places
free that are being published or unlinked. -/
theorem Sound.moved {later : Seen crypto} (sound : Sound config view) (orderly : later.Orderly)
    (publishes : ∀ index upload address, Publishes later index upload address →
      Publishes view index upload address)
    (unlinks : ∀ index address, Unlinks later index address → Unlinks view index address)
    (stored : ∀ address row key, later.state.blob address = some row → row.key = some key →
      ∃ sealing, StoredAs config later address row key sealing)
    (free : ∀ address, view.state.blob address = none →
      (∃ index upload, Publishes later index upload address) ∨
        (∃ index, Unlinks later index address) →
      later.state.blob address = none) :
    Sound config later := by
  refine ⟨orderly, stored, ?_, fun index upload address here => ?_, fun index address here => ?_⟩
  · intro first second upload otherUpload address otherAddress one two shared
    exact sound.alone _ _ _ _ _ _ (publishes _ _ _ one) (publishes _ _ _ two) shared
  · exact free address (sound.unpublished index upload address (publishes _ _ _ here))
      (.inl ⟨index, upload, here⟩)
  · obtain ⟨gone, unpublished⟩ := sound.unlinked index address (unlinks _ _ here)
    exact ⟨free address gone (.inr ⟨index, here⟩),
      fun other upload there => unpublished other upload (publishes _ _ _ there)⟩

theorem Sound.still {later : Seen crypto} (sound : Sound config view) (orderly : later.Orderly)
    (blobs : later.state.blobs = view.state.blobs)
    (containers : later.state.containers = view.state.containers)
    (grown : view.history <+: later.history)
    (publishes : ∀ index upload address, Publishes later index upload address →
      Publishes view index upload address)
    (unlinks : ∀ index address, Unlinks later index address → Unlinks view index address) :
    Sound config later := by
  have eq : ∀ address, later.state.blob address = view.state.blob address := by
    intro address
    rw [blob, blob, blobs]
  refine sound.moved orderly publishes unlinks (fun address row key hit live => ?_)
    (fun address gone _ => (eq address).trans gone)
  obtain ⟨sealing, stored⟩ := sound.stored address row key (eq address ▸ hit) live
  exact ⟨sealing, stored.later (by rw [containers]) grown⟩

/-! ## Operations that leave rows and containers alone -/

/-- An operation that touches neither rows nor containers, and at most removes a staged
container. -/
def Op.still : Op crypto → Bool
  | .selectBlob _ | .insertBlob .. | .deleteUnreferenced | .tombstone _ | .writeStaging ..
  | .renameStaging .. | .removeContainer _ => false
  | _ => true

structure Untouched (before after : Store crypto) : Prop where
  blobs : after.blobs = before.blobs
  containers : after.containers = before.containers
  staging : ∀ id, after.staging id = before.staging id ∨ after.staging id = none

theorem Untouched.refl (store : Store crypto) : Untouched store store :=
  ⟨rfl, rfl, fun _ => .inl rfl⟩

def Op.leavesPins : Op crypto → Bool
  | .insertBlob .. | .insertPin .. | .deletePin .. | .deleteUnreferenced | .tombstone _ => false
  | _ => true

def Op.spares (id : String) : Op crypto → Prop
  | .selectUpload other => other ≠ id
  | .insertUpload other _ _ => other ≠ id
  | .createUploadFile other => other ≠ id
  | .writeUploadFile other _ _ => other ≠ id
  | .recordChunk other _ => other ≠ id
  | _ => True

/-- What an operation leaves alone: rows and pins, rows and containers, or an upload. -/
structure Frame (verb : Op crypto) (store after : Store crypto) : Prop where
  pins : verb.leavesPins = true → after.pins = store.pins ∧ after.blobs = store.blobs
  still : verb.still = true → after.blobs = store.blobs ∧
    after.containers = store.containers ∧
    ∀ id, after.staging id = store.staging id ∨ after.staging id = none
  upload : ∀ id, verb.spares id → id ∈ store.minted → id ∈ after.minted ∧
    after.uploadData id = store.uploadData id ∧
    (after.upload id = store.upload id ∨ after.upload id = none)

theorem exec_frame {choice : Choice crypto}
    (done : exec config store verb choice = some (reply, after)) :
    Frame verb store after := by
  have eq (verb : Op crypto) : Frame verb store store :=
    ⟨fun _ => ⟨rfl, rfl⟩, fun _ => ⟨rfl, rfl, fun _ => .inl rfl⟩,
      fun _ _ minted => ⟨minted, rfl, .inl rfl⟩⟩
  have dropped (ids : List String) (id : String) : (store.dropUploads ids).upload id =
      store.upload id ∨ (store.dropUploads ids).upload id = none := by
    rw [upload_dropUploads]
    split
    · exact .inr rfl
    · exact .inl rfl
  have put {id other : String} (row : UploadRow) (ne : other ≠ id) :
      (store.putUpload other row).upload id = store.upload id := by
    rw [upload_putUpload, if_neg ne.symm]
  cases verb with
  | expireUploads =>
    obtain ⟨-, rfl⟩ := exec_expireUploads done
    exact { eq _ with upload := fun id _ minted => ⟨minted, rfl, dropped reply id⟩ }
  | deleteUpload other =>
    cases done
    exact { eq _ with upload := fun id _ minted => ⟨minted, rfl, dropped [other] id⟩ }
  | insertUpload =>
    rcases exec_insertUpload done with ⟨-, rfl⟩ | ⟨-, -, rfl⟩
    · exact eq _
    · exact { eq _ with
        upload := fun id spares minted => ⟨minted, rfl, .inl (put _ spares)⟩ }
  | recordChunk =>
    rcases exec_recordChunk done with ⟨-, rfl⟩ | ⟨row, -, rfl⟩
    · exact eq _
    · exact { eq _ with
        upload := fun id spares minted => ⟨minted, rfl, .inl (put _ spares)⟩ }
  | insertBlob =>
    rcases exec_insertBlob done with ⟨-, -, rfl⟩ | ⟨-, -, rfl⟩
    · exact eq _
    · exact ⟨(absurd · false_ne_true), (absurd · false_ne_true), (eq _).upload⟩
  | tombstone =>
    rcases exec_tombstone done with ⟨-, rfl⟩ | ⟨row, -, -, -, -, rfl⟩
    · exact eq _
    · exact ⟨(absurd · false_ne_true), (absurd · false_ne_true), (eq _).upload⟩
  | deleteUnreferenced =>
    obtain ⟨-, rfl⟩ := exec_deleteUnreferenced done
    exact ⟨(absurd · false_ne_true), (absurd · false_ne_true), (eq _).upload⟩
  | insertPin =>
    rcases exec_insertPin done with ⟨-, -, rfl⟩ | ⟨row, pins, -, -, rfl, -⟩
    · exact eq _
    · exact { eq _ with pins := (absurd · false_ne_true) }
  | deletePin =>
    cases done
    exact { eq _ with pins := (absurd · false_ne_true) }
  | generateId =>
    obtain ⟨-, rfl⟩ := exec_generateId done
    exact { eq _ with
      upload := fun id _ minted => ⟨mem_cons_of_mem _ minted, rfl, .inl rfl⟩ }
  | generateSecrets =>
    rw [exec_generateSecrets done]
    exact eq _
  | createUploadFile | writeUploadFile =>
    cases done
    exact { eq _ with upload := fun id spares minted =>
      ⟨minted, update_of_ne (Ne.symm spares) .., .inl rfl⟩ }
  | renameStaging =>
    rcases exec_renameStaging done with ⟨-, rfl⟩ | ⟨container, -, -, rfl⟩
    · exact eq _
    · exact { eq _ with still := (absurd · false_ne_true) }
  | writeStaging | removeContainer =>
    cases done
    exact { eq _ with still := (absurd · false_ne_true) }
  | removeStaging id =>
    cases done
    refine { eq _ with still := fun _ => ⟨rfl, rfl, fun other => ?_⟩ }
    by_cases isId : other = id
    · exact .inr (isId ▸ update_self ..)
    · exact .inl (update_of_ne isId ..)
  | _ =>
    cases done
    exact { eq _ with }

theorem exec_still {choice : Choice crypto} (still : verb.still = true)
    (done : exec config store verb choice = some (reply, after)) : Untouched store after := by
  obtain ⟨blobs, containers, staging⟩ := (exec_frame done).still still
  exact ⟨blobs, containers, staging⟩

/-- What a step keeps: the invariant, and what the others rely on. -/
def Keeps (config : BlobConfig crypto) (view : Seen crypto) (index : Nat) (verb : Op crypto)
    (reply : verb.Reply) (after : Store crypto) : Prop :=
  Sound config (view.perform index verb reply after) ∧
    ∀ other, other ≠ index → Rely other view (view.perform index verb reply after)

/-- An operation that does not touch rows and containers, or a look by a call that is not a
commit. -/
def harmless (call : Call) (verb : Op crypto) : Prop :=
  verb.still = true ∨
    (∃ address, verb = .selectBlob address) ∧ ∀ upload address, call ≠ .commit upload address

theorem Keeps.of_untouched (sound : Sound config view) (here : view.running index = some call)
    (untouched : Untouched view.state after)
    (noLook : ∀ upload address, call = .commit upload address → verb ≠ .selectBlob address)
    (noDelete : verb ≠ .deleteUnreferenced) :
    Keeps config view index verb reply after := by
  have eq : ∀ address, after.blob address = view.state.blob address := by
    intro address
    rw [blob, blob, untouched.blobs]
  constructor
  · refine sound.still (sound.orderly.perform here ..) untouched.blobs untouched.containers
      (prefix_append _ _) (fun other upload address publishes => ?_)
      (fun other address unlinks => unlinks.of_perform fun _ => noDelete)
    refine publishes.of_perform fun own => noLook upload address ?_
    have running := publishes.running
    rw [own] at running
    exact some.inj (here.symm.trans running)
  · intro other ne
    exact .perform ne (fun address row hit _ => (eq address).trans hit)
      (fun _ _ _ => by rw [untouched.containers]) (fun upload _ _ => untouched.staging upload)
      (fun _ address row key hit _ =>
        ⟨(eq address).trans hit, by rw [untouched.containers]⟩)

theorem Keeps.of_harmless (verb : Op crypto) {reply : verb.Reply}
    (choice : Choice crypto) (sound : Sound config view)
    (here : view.running index = some call) (quiet : harmless call verb)
    (done : exec config view.state verb choice = some (reply, after)) :
    Keeps config view index verb reply after := by
  rcases quiet with still | ⟨⟨address, rfl⟩, notCommit⟩
  · refine .of_untouched sound here (exec_still still done) (fun _ _ _ look => ?_)
      (fun sweeping => ?_)
    · rw [look] at still
      cases still
    · rw [sweeping] at still
      cases still
  · cases done
    exact .of_untouched sound here (.refl _) (fun upload address isCommit => absurd isCommit
      (notCommit upload address)) (by rintro ⟨⟩)

/-! ## The steps of a commit -/

variable (choice : Choice crypto)

/-- Nobody else publishes under the upload or the address, and nobody unlinks the address. -/
def Clear (view : Seen crypto) (index : Nat) (upload : String) (address : BlobAddress) : Prop :=
  ∀ other, other ≠ index →
    (∀ otherUpload otherAddress, Publishes view other otherUpload otherAddress →
      otherUpload ≠ upload ∧ otherAddress ≠ address) ∧ ¬ Unlinks view other address

section

variable (sound : Sound config view)
include sound

theorem Keeps.select {hit : Option (FoundBlob crypto)}
    (here : view.running index = some (.commit upload address))
    (done : exec config view.state (.selectBlob address) choice = some (hit, after))
    (free : Publishes (view.perform index (.selectBlob address) hit after) index upload address →
      view.state.blob address = none ∧ Clear view index upload address) :
    Keeps config view index (.selectBlob address) hit after := by
  obtain ⟨-, rfl⟩ := Prod.mk.inj (some.inj done)
  generalize movedIs : view.perform index (.selectBlob address) hit view.state = moved at free
  -- a call that publishes afterwards did so before, or is the one that looked
  have positions : ∀ other otherUpload otherAddress,
      Publishes moved other otherUpload otherAddress →
      Publishes view other otherUpload otherAddress ∧ other ≠ index ∨
        other = index ∧ otherUpload = upload ∧ otherAddress = address := by
    subst movedIs
    intro other otherUpload otherAddress publishes
    by_cases own : other = index
    · subst own
      have eq := some.inj (here.symm.trans publishes.running)
      cases eq
      exact .inr ⟨rfl, rfl, rfl⟩
    · exact .inl ⟨publishes.of_perform fun eq => absurd eq own, own⟩
  have unlinks : ∀ other otherAddress, Unlinks moved other otherAddress →
      Unlinks view other otherAddress := by
    subst movedIs
    exact fun other otherAddress unlinks => unlinks.of_perform fun _ => by rintro ⟨⟩
  have state : moved.state = view.state := movedIs ▸ rfl
  have grown : view.history <+: moved.history := movedIs ▸ prefix_append _ _
  unfold Keeps
  rw [movedIs]
  refine ⟨⟨movedIs ▸ sound.orderly.perform here .., fun other row key present live => ?_, ?_,
    fun other otherUpload otherAddress publishes => ?_, fun other otherAddress unlinking => ?_⟩,
    fun other ne => ?_⟩
  · rw [state] at present
    obtain ⟨sealing, stored⟩ := sound.stored other row key present live
    exact ⟨sealing, stored.later (by rw [state]) grown⟩
  · intro one two firstUpload secondUpload firstAddress secondAddress first second shared
    rcases positions _ _ _ first with ⟨firstOld, firstOther⟩ | ⟨rfl, rfl, rfl⟩
    · rcases positions _ _ _ second with ⟨secondOld, -⟩ | ⟨rfl, rfl, rfl⟩
      · exact sound.alone _ _ _ _ _ _ firstOld secondOld shared
      · obtain ⟨uploads, addresses⟩ := ((free second).2 one firstOther).1 _ _ firstOld
        rcases shared with eq | eq
        · exact absurd eq uploads
        · exact absurd eq addresses
    · rcases positions _ _ _ second with ⟨secondOld, secondOther⟩ | ⟨rfl, rfl, rfl⟩
      · obtain ⟨uploads, addresses⟩ := ((free first).2 two secondOther).1 _ _ secondOld
        rcases shared with eq | eq
        · exact absurd eq.symm uploads
        · exact absurd eq.symm addresses
      · rfl
  · rw [state]
    rcases positions _ _ _ publishes with ⟨old, -⟩ | ⟨rfl, rfl, rfl⟩
    · exact sound.unpublished _ _ _ old
    · exact (free publishes).1
  · obtain ⟨gone, unpublished⟩ := sound.unlinked other otherAddress (unlinks _ _ unlinking)
    refine ⟨by rw [state]; exact gone, fun publisher otherUpload publishes => ?_⟩
    rcases positions _ _ _ publishes with ⟨old, -⟩ | ⟨rfl, rfl, rfl⟩
    · exact unpublished publisher otherUpload old
    · have sweeping : other ≠ publisher := by
        rintro rfl
        cases some.inj (here.symm.trans (unlinks _ _ unlinking).running)
      exact ((free publishes).2 other sweeping).2 (unlinks _ _ unlinking)
  · subst movedIs
    exact .perform ne (fun _ _ hit _ => hit) (fun _ _ _ => rfl) (fun _ _ _ => .inl rfl)
      (fun _ _ _ _ hit _ => ⟨hit, rfl⟩)

section

variable (publishes : Publishes view index upload address)
include publishes

theorem Keeps.writeStaging {container : Bytes} {reply : Unit}
   
    (done : exec config view.state (.writeStaging upload container) choice = some (reply, after)) :
    Keeps config view index (.writeStaging upload container) reply after := by
  cases done
  constructor
  · exact sound.still (sound.orderly.perform publishes.running ..) rfl rfl (prefix_append _ _)
      (fun _ _ _ moved => moved.of_perform fun _ => by rintro ⟨⟩)
      (fun _ _ moved => moved.of_perform fun _ => by rintro ⟨⟩)
  · intro other ne
    refine .perform ne (fun _ _ hit _ => hit) (fun _ _ _ => rfl)
      (fun otherUpload otherAddress elsewhere => .inl ?_) (fun _ _ _ _ hit _ => ⟨hit, rfl⟩)
    refine update_of_ne (fun eq => ne ?_) ..
    exact sound.alone _ _ _ _ _ _ elsewhere publishes (.inl eq)

theorem Keeps.renameStaging
   
    (done : exec config view.state (.renameStaging upload address) choice = some (renamed, after)) :
    Keeps config view index (.renameStaging upload address) renamed after := by
  have vacant := sound.unpublished index upload address publishes
  rcases exec_renameStaging done with ⟨-, rfl⟩ | ⟨container, -, -, rfl⟩
  · exact .of_untouched sound publishes.running (.refl _) (fun _ _ _ => by rintro ⟨⟩) (by rintro ⟨⟩)
  have elsewhere : ∀ other row, view.state.blob other = some row → other ≠ address := by
    rintro other row hit rfl
    rw [vacant] at hit
    cases hit
  constructor
  · refine sound.moved (sound.orderly.perform publishes.running ..)
      (fun _ _ _ moved => moved.of_perform fun _ => by rintro ⟨⟩)
      (fun _ _ moved => moved.of_perform fun _ => by rintro ⟨⟩)
      (fun other row key hit live => ?_) (fun _ gone _ => gone)
    obtain ⟨sealing, stored⟩ := sound.stored other row key hit live
    exact ⟨sealing, stored.later (update_of_ne (elsewhere other row hit) ..) (prefix_append _ _)⟩
  · intro other ne
    refine .perform ne (fun _ _ hit _ => hit)
      (fun otherUpload otherAddress there => update_of_ne (fun eq => ne ?_) ..)
      (fun otherUpload otherAddress there => .inl (update_of_ne (fun eq => ne ?_) ..))
      (fun _ held row key hit _ =>
        ⟨hit, update_of_ne (elsewhere held row hit) ..⟩)
    · exact sound.alone _ _ _ _ _ _ there publishes (.inr eq)
    · exact sound.alone _ _ _ _ _ _ there publishes (.inl eq)

theorem Keeps.insertBlob
   
    (stored : ∀ row, row.mediaType = mediaType → row.kekId = kekId → row.byteSize = byteSize →
      StoredAs config view address row key sealing)
    (done : exec config view.state (.insertBlob address mediaType byteSize kekId key) choice =
      some (inserted, after)) :
    Keeps config view index (.insertBlob address mediaType byteSize kekId key) inserted after ∧
      ∃ row, after.blob address = some row ∧ row.key = some key := by
  have vacant := sound.unpublished index upload address publishes
  rcases exec_insertBlob done with ⟨⟨row, present⟩, -, -⟩ | ⟨-, rfl, rfl⟩
  · rw [vacant] at present
    cases present
  generalize newIs : mk mediaType byteSize kekId view.state.clock (some key) = new
  have lookup := fun other => view.state.blob_putBlob address other new
  have elsewhere : ∀ other row, view.state.blob other = some row → other ≠ address := by
    rintro other row hit rfl
    rw [vacant] at hit
    cases hit
  have mine : ∀ other otherUpload, Publishes view other otherUpload address → other = index :=
    fun other otherUpload there => sound.alone _ _ _ _ _ _ there publishes (.inr rfl)
  have kept : ∀ other row, view.state.blob other = some row →
      (view.state.putBlob address new).blob other = some row :=
    fun other row hit => (lookup other).trans ((if_neg (elsewhere other row hit)).trans hit)
  refine ⟨⟨?_, fun other ne => ?_⟩, new, (lookup address).trans (if_pos rfl), newIs ▸ rfl⟩
  · refine sound.moved (sound.orderly.perform publishes.running ..)
      (fun _ _ _ moved => moved.of_perform fun _ => by rintro ⟨⟩)
      (fun _ _ moved => moved.of_perform fun _ => by rintro ⟨⟩)
      (fun other row otherKey hit live => ?_) (fun other gone busy => (lookup other).trans ?_)
    · have cases := (lookup other).symm.trans hit
      split at cases
      next eq =>
        subst eq
        obtain rfl := some.inj cases
        have sameKey : some key = some otherKey := by rw [← live, ← newIs]
        cases sameKey
        refine ⟨sealing, (stored new ?_ ?_ ?_).later rfl (prefix_append _ _)⟩
        all_goals rw [← newIs]
      next =>
        obtain ⟨sealed, before⟩ := sound.stored other row otherKey cases live
        exact ⟨sealed, before.later rfl (prefix_append _ _)⟩
    · split
      next eq =>
        subst eq
        rcases busy with ⟨publisher, otherUpload, moved⟩ | ⟨sweeper, moved⟩
        · -- the only call that was publishing here has just written its row
          have own := mine publisher otherUpload (moved.of_perform fun _ => by rintro ⟨⟩)
          subst own
          exact absurd mem_concat_self (moved.unwritten _ _ _ _ _)
        · exact absurd publishes ((sound.unlinked sweeper _
            (moved.of_perform fun _ => by rintro ⟨⟩)).2 index upload)
      next => exact gone
  · exact .perform ne (fun other row hit _ => kept other row hit) (fun _ _ _ => rfl)
      (fun _ _ _ => .inl rfl) (fun _ other row _ hit _ => ⟨kept other row hit, rfl⟩)

end

/-! ## The steps of sweep and shred -/

theorem Sound.not_quiet (here : view.running index = some call)
    (removes : call.removes = true) : ¬ Quiet view := by
  intro quiet
  rw [quiet index call (sound.orderly.issued index call here)] at removes
  cases removes

end

theorem live_of_swept
    (listed : swept.Perm (store.blobs.keys.filter fun address => store.unreferenced config address))
    (mem : address ∈ swept) : ∃ row, store.blob address = some row ∧ row.tombstoned = false := by
  have unreferenced := (mem_filter.mp (listed.mem_iff.mp mem)).2
  simp only [Store.unreferenced, and_eq_true, Option.any_eq_true] at unreferenced
  obtain ⟨⟨⟨⟨⟨⟨row, hit, live⟩, -⟩, -⟩, -⟩, -⟩, -⟩ := unreferenced
  exact ⟨row, hit, by simpa using live⟩

theorem BlobRow.not_tombstoned (live : row.tombstoned = false) : row.key ≠ none := by
  intro shredded
  rw [tombstoned, shredded] at live
  cases live

theorem Keeps.deleteUnreferenced (sound : Sound config view)
    (here : view.running index = some .sweep)
    (done : exec config view.state .deleteUnreferenced choice = some (swept, after)) :
    Keeps config view index .deleteUnreferenced swept after := by
  obtain ⟨listed, rfl⟩ := exec_deleteUnreferenced done
  have lookup := view.state.blob_dropBlobs swept
  have publishes : ∀ other upload address,
      Publishes (view.perform index .deleteUnreferenced swept (view.state.dropBlobs swept)) other
        upload address → Publishes view other upload address :=
    fun _ _ _ moved => moved.of_perform fun _ => by rintro ⟨⟩
  have gone : ∀ other, view.state.blob other = none →
      (view.state.dropBlobs swept).blob other = none := by
    intro other none
    rw [lookup, none, ite_self]
  constructor
  · refine ⟨sound.orderly.perform here .., fun other row key hit live => ?_, ?_,
      fun other upload address moved =>
        gone address (sound.unpublished _ _ _ (publishes _ _ _ moved)),
      fun other address moved => ?_⟩
    · have kept := (lookup other).symm.trans hit
      split at kept
      next => cases kept
      next =>
        obtain ⟨sealing, stored⟩ := sound.stored other row key kept live
        exact ⟨sealing, stored.later rfl (prefix_append _ _)⟩
    · intro one two firstUpload secondUpload firstAddress secondAddress first second shared
      exact sound.alone _ _ _ _ _ _ (publishes _ _ _ first) (publishes _ _ _ second) shared
    · -- the sweep may unlink what it swept, and nobody publishes where there was a row
      by_cases mem : address ∈ swept
      · refine ⟨(lookup address).trans (if_pos mem), fun publisher upload there => ?_⟩
        obtain ⟨row, hit, -⟩ := live_of_swept listed mem
        rw [sound.unpublished publisher upload address (publishes _ _ _ there)] at hit
        cases hit
      · obtain ⟨deleted, performed, among⟩ := moved.deleted
        have prior : Unlinks view other address := by
          refine ⟨moved.running, ⟨deleted, ?_, among⟩, fun removed =>
            moved.unremoved (mem_append_left _ removed)⟩
          rcases mem_snoc.mp performed with before | ⟨⟨⟩⟩
          · exact before
          · exact absurd among mem
        obtain ⟨vacant, unpublished⟩ := sound.unlinked other address prior
        exact ⟨gone address vacant,
          fun publisher upload there => unpublished publisher upload (publishes _ _ _ there)⟩
  · intro other ne
    refine .perform ne (fun held row hit shredded => ?_) (fun _ _ _ => rfl)
      (fun _ _ _ => .inl rfl) (fun quiet => absurd quiet (sound.not_quiet here rfl))
    have unswept : held ∉ swept := by
      intro mem
      obtain ⟨present, eq, live⟩ := live_of_swept listed mem
      rw [hit] at eq
      cases eq
      exact not_tombstoned live shredded
    rw [lookup, if_neg unswept]
    exact hit

theorem Keeps.tombstone (sound : Sound config view)
    (here : view.running index = some (.shred address))
    (done : exec config view.state (.tombstone address) choice = some (updated, after)) :
    Keeps config view index (.tombstone address) updated after ∧
      (updated = true → ∃ row, after.blob address = some row ∧ row.key = none) := by
  rcases exec_tombstone done with ⟨rfl, rfl⟩ | ⟨row, hit, live, -, rfl, rfl⟩
  · exact ⟨.of_untouched sound here (.refl _) (fun _ _ _ => by rintro ⟨⟩) (by rintro ⟨⟩),
      by rintro ⟨⟩⟩
  have lookup := fun other => view.state.blob_putBlob address other { row with key := none }
  refine ⟨⟨?_, fun other ne => ?_⟩, fun _ => ⟨_, (lookup address).trans (if_pos rfl), rfl⟩⟩
  · refine sound.moved (sound.orderly.perform here ..)
      (fun _ _ _ moved => moved.of_perform fun _ => by rintro ⟨⟩)
      (fun _ _ moved => moved.of_perform fun _ => by rintro ⟨⟩)
      (fun other otherRow key present alive => ?_) (fun other vacant _ => (lookup other).trans ?_)
    · have cases := (lookup other).symm.trans present
      split at cases
      next =>
        cases cases
        cases alive
      next =>
        obtain ⟨sealing, stored⟩ := sound.stored other otherRow key cases alive
        exact ⟨sealing, stored.later rfl (prefix_append _ _)⟩
    · have elsewhere : other ≠ address := by
        rintro rfl
        rw [hit] at vacant
        cases vacant
      rw [if_neg elsewhere]
      exact vacant
  · refine .perform ne (fun held otherRow present shredded => ?_) (fun _ _ _ => rfl)
      (fun _ _ _ => .inl rfl) (fun quiet => absurd quiet (sound.not_quiet here rfl))
    have elsewhere : held ≠ address := by
      rintro rfl
      rw [hit] at present
      cases present
      exact not_tombstoned live shredded
    rw [lookup, if_neg elsewhere]
    exact present

theorem Keeps.removeContainer {reply : Unit} (sound : Sound config view)
    (here : view.running index = some call) (removes : call.removes = true)
    (dead : ∀ row, view.state.blob address = some row → row.key = none)
    (unpublished : ∀ other upload, ¬ Publishes view other upload address)
    (done : exec config view.state (.removeContainer address) choice = some (reply, after)) :
    Keeps config view index (.removeContainer address) reply after := by
  cases done
  constructor
  · refine sound.moved (sound.orderly.perform here ..)
      (fun _ _ _ moved => moved.of_perform fun _ => by rintro ⟨⟩)
      (fun _ _ moved => moved.of_perform fun _ => by rintro ⟨⟩)
      (fun other row key hit live => ?_) (fun _ vacant _ => vacant)
    obtain ⟨sealing, stored⟩ := sound.stored other row key hit live
    have elsewhere : other ≠ address := by
      rintro rfl
      rw [dead row hit] at live
      cases live
    exact ⟨sealing, stored.later (update_of_ne elsewhere ..) (prefix_append _ _)⟩
  · intro other ne
    refine .perform ne (fun _ _ hit _ => hit)
      (fun upload held publishes => update_of_ne (fun eq => ?_) ..)
      (fun _ _ _ => .inl rfl) (fun quiet => absurd quiet (sound.not_quiet here removes))
    subst eq
    exact unpublished other upload publishes

end Moves

end Gridwork.Blob
