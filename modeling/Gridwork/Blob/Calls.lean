import Gridwork.Blob.Stored

/-!
# The calls of the blob store

Every call of the store keeps to the discipline of `Blob.Stored`: the programs are gone through
operation by operation, and each step is one of the steps shown there (`upheld`).  Beside the
rows and containers the discipline keeps what callers were told: a commit that succeeded left a
live row, and a read of what was committed before answered it.
-/

namespace Gridwork.Blob

open Lib List Function Option Fallible Keeps Program.Ensures Prod View BlobRow

/-! ## What calls were told -/

variable {crypto : Crypto} {address : BlobAddress} {plaintext : Bytes} {answer : Answer}
  {view : Seen crypto} {index offset length other : Nat} {verb : Op crypto}
  {reply : verb.Reply} {after : Store crypto} {Result Result' : Type}
  {key : KeyMaterial crypto} {sealing : Sealing crypto} {upload mediaType : String}
  {row : UploadRow} {program : Action crypto Result} {outcome : Result → Outcome}
  {post : Except BlobError Result → Seen crypto → Prop} {hit existing : FoundBlob crypto}

def Live (store : Store crypto) (address : BlobAddress) : Prop :=
  ∃ row key, store.blob address = some row ∧ row.key = some key

/-- A commit of the address had returned before the call was issued. -/
def CommittedBefore (view : Seen crypto) (index : Nat) (address : BlobAddress) : Prop :=
  ∃ committer upload outcome,
    .returned committer (.commit upload address) (.ok outcome) ∈ view.history.take index

/-- The bytes hash to the address, and a commit read them from a staged upload. -/
def Staged (view : Seen crypto) (address : BlobAddress) (plaintext : Bytes) : Prop :=
  addressOf (crypto.sha256 plaintext) = address ∧ ∃ index upload length,
    .performed index (Op.readUploadFile upload length) (some plaintext) ∈ view.history

/-- The answer is the range asked for of bytes staged for the address. -/
def AnswersRange (view : Seen crypto) (address : BlobAddress) (offset length : Nat)
    (answer : Answer) : Prop :=
  ∃ plaintext, Staged view address plaintext ∧ answer =
    .ok (.bytes (slice plaintext offset (clampLength plaintext.length offset length)))

/-- As long as there is no sweep and no shred: what was committed is there, and reads of it were
answered. -/
structure Told (view : Seen crypto) : Prop where
  committed : Quiet view → ∀ index upload address outcome,
    .returned index (.commit upload address) (.ok outcome) ∈ view.history →
    Live view.state address
  answered : Quiet view → ∀ index address offset length answer,
    .returned index (.read address offset length) answer ∈ view.history →
    CommittedBefore view index address → AnswersRange view address offset length answer

theorem Staged.later {later : Seen crypto}
    (staged : Staged view address plaintext) (grown : view.history <+: later.history) :
    Staged later address plaintext := by
  obtain ⟨hashed, index, upload, length, read⟩ := staged
  exact ⟨hashed, index, upload, length, grown.subset read⟩

theorem AnswersRange.later {later : Seen crypto}
    (answers : AnswersRange view address offset length answer)
    (grown : view.history <+: later.history) : AnswersRange later address offset length answer := by
  obtain ⟨plaintext, staged, eq⟩ := answers
  exact ⟨plaintext, staged.later grown, eq⟩

theorem CommittedBefore.prior {later : Seen crypto}
    (before : CommittedBefore later index address) (grown : view.history <+: later.history)
    (known : index ≤ view.history.length) : CommittedBefore view index address := by
  obtain ⟨committer, upload, outcome, returned⟩ := before
  obtain ⟨rest, appended⟩ := grown
  rw [← appended, take_append_of_le_length known] at returned
  exact ⟨committer, upload, outcome, returned⟩

variable {moment : Moment (signature crypto) Call Answer}

theorem Told.append {later : Seen crypto} (told : Told view) (orderly : view.Orderly)
    (appended : later.history = view.history ++ [moment])
    (kept : Quiet later → ∀ address, Live view.state address → Live later.state address)
    (commits : ∀ index upload address outcome,
      moment = .returned index (.commit upload address) (.ok outcome) → Quiet later →
      Live later.state address)
    (reads : ∀ index address offset length answer,
      moment = .returned index (.read address offset length) answer → Quiet later →
      CommittedBefore later index address → AnswersRange later address offset length answer) :
    Told later := by
  have grown : view.history <+: later.history := appended ▸ prefix_append _ _
  refine ⟨fun quiet index upload address outcome returned => ?_,
    fun quiet index address offset length answer returned before => ?_⟩
  · rw [appended] at returned
    rcases mem_snoc.mp returned with prior | last
    · exact kept quiet address
        (told.committed (quiet.prior grown) index upload address outcome prior)
    · exact commits index upload address outcome last.symm quiet
  · rw [appended] at returned
    rcases mem_snoc.mp returned with prior | last
    · have known := Nat.le_of_lt (orderly.past _ prior)
      exact (told.answered (quiet.prior grown) index address offset length answer prior
        (before.prior grown known)).later grown
    · exact reads index address offset length answer last.symm quiet before

theorem Rely.live {later : Seen crypto} (relied : Rely index view later)
    (quiet : Quiet later) (live : Live view.state address) :
    Live later.state address := by
  obtain ⟨row, key, hit, keyed⟩ := live
  exact ⟨row, key, (relied.kept quiet address row key hit keyed).1, keyed⟩

/-! ## The discipline -/

section Discipline

variable (config : BlobConfig crypto)

/-- Rows and containers belong together, and calls were told the truth. -/
def rule : Discipline (signature crypto) (Store crypto) Call Answer where
  invariant view := Sound config view ∧ Told view
  rely := Rely
  careful := Careful
  admits _ _ := True
  refl := Rely.refl
  trans := Rely.trans

/-- What a call's answer promises: a commit that succeeded left a live row, and a read of what
was committed before answers it. -/
def Promise (index : Nat) (call : Call) (answer : Answer) (view : Seen crypto) : Prop :=
  (∀ upload address outcome, call = .commit upload address → answer = .ok outcome → Quiet view →
    Live view.state address) ∧
  (∀ address offset length, call = .read address offset length → Quiet view →
    CommittedBefore view index address → AnswersRange view address offset length answer)

variable {config} {call : Call}

theorem Keeps.rule (keeps : Keeps config view index verb reply after)
    (holds : (rule config).invariant view) :
    (rule config).invariant (view.perform index verb reply after) ∧
      ∀ other, other ≠ index →
        (rule config).rely other view (view.perform index verb reply after) := by
  obtain ⟨sound, relied⟩ := keeps
  refine ⟨⟨sound, holds.2.append holds.1.orderly rfl (fun quiet address live => ?_)
    (fun _ _ _ _ other => by cases other) (fun _ _ _ _ _ other => by cases other)⟩, relied⟩
  exact (relied (index + 1) (by omega)).live quiet live

/-! ## Calls that leave rows and containers alone -/

/-- What a call's program ensures under the discipline. -/
abbrev Ensures (config : BlobConfig crypto) (index : Nat) (call : Call)
    (program : Action crypto Result) (post : Except BlobError Result → Seen crypto → Prop)
    (view : Seen crypto) : Prop :=
  Fallible.Ensures (rule config) (system config) index call program post view

theorem ensures_of_harmless {program : Program (signature crypto) Result}
    (only : program.Only (harmless call)) :
    program.Ensures (Blob.rule config) (system config) index call (fun _ _ => True) view := by
  refine Program.Only.ensures (fun _ => True) ?_ (fun _ _ _ _ => trivial) only trivial
  intro view verb choice reply after quiet holds here _ _ done
  obtain ⟨kept, relied⟩ :=
    (of_harmless verb choice holds.1 here quiet done).rule holds
  exact ⟨kept, relied, trivial⟩

def Call.silent : Call → Bool
  | .commit .. | .read .. => false
  | _ => true

section Harmless

theorem only_still (still : verb.still = true) :
    Fallible.Only (harmless call) (op verb) :=
  only_op (.inl still)

theorem only_look (silent : call.silent = true) :
    Fallible.Only (harmless call) (op (.selectBlob address) : Action crypto _) :=
  only_op (.inr ⟨⟨address, rfl⟩, by rintro _ _ rfl; cases silent⟩)

theorem still_discardUploadFiles (id : String) :
    Fallible.Only (fun verb : Op crypto => verb.still = true)
      (discardUploadFiles id : Action crypto Unit) :=
  only_bind (only_op rfl) fun _ => only_op rfl

theorem still_expireUploads : Fallible.Only (fun verb : Op crypto => verb.still = true)
      (expireUploads : Action crypto Unit) :=
  only_bind (only_op rfl) fun _ => only_forM still_discardUploadFiles

theorem only_begin (mediaType : String) (byteSize : Nat) :
    Fallible.Only (harmless call) (begin mediaType byteSize : Action crypto String) :=
  only_bind trivial fun _ => only_bind trivial fun _ =>
    only_bind (still_expireUploads.mono fun _ => .inl) fun _ =>
    only_bind (only_still rfl) fun _ => only_bind (only_still rfl) fun _ =>
      only_bind trivial fun _ => only_bind (only_still rfl) fun _ => trivial

theorem only_writeChunk (upload : String) (sequence : Nat) (chunk : Bytes) :
    Fallible.Only (harmless call) (writeChunk upload sequence chunk : Action crypto Unit) :=
  only_bind trivial fun _ => only_bind (only_still rfl) fun _ => only_bind trivial fun _ =>
    only_bind trivial fun _ => only_bind trivial fun _ => only_bind trivial fun _ =>
      only_bind trivial fun _ => only_bind trivial fun _ => only_bind (only_still rfl) fun _ =>
        only_bind trivial fun _ => only_bind (only_still rfl) fun _ => only_still rfl

theorem only_abort (upload : String) :
    Fallible.Only (harmless call) (abort upload : Action crypto Unit) :=
  only_bind trivial fun _ => only_bind (only_still rfl) fun _ =>
    only_bind ((still_discardUploadFiles upload).mono fun _ => .inl) fun _ => trivial

theorem only_readable (address : BlobAddress) (silent : call.silent = true) :
    Fallible.Only (harmless call) (readable address : Action crypto _) :=
  only_bind (only_look silent) fun _ => only_bind trivial fun _ => only_bind trivial fun _ =>
    trivial

theorem only_stat (address : BlobAddress) (silent : call.silent = true) :
    Fallible.Only (harmless call) (stat address : Action crypto _) :=
  only_bind (only_look silent) fun _ => only_bind trivial fun _ => trivial

theorem only_pin (address : BlobAddress) (evidence : String) (silent : call.silent = true) :
    Fallible.Only (harmless call) (pin address evidence : Action crypto Unit) :=
  only_bind (only_readable address silent) fun _ => only_bind (only_still rfl) fun _ => trivial

theorem only_unpin (address : BlobAddress) (evidence : String) (silent : call.silent = true) :
    Fallible.Only (harmless call) (unpin address evidence : Action crypto Unit) :=
  only_bind (only_look silent) fun _ => only_bind trivial fun _ => only_still rfl

end Harmless

/-! ## Reading -/

section Read

def ReadPost (index : Nat) (address : BlobAddress) (offset length : Nat)
    (outcome : Except BlobError Bytes) (view : Seen crypto) : Prop :=
  Quiet view → CommittedBefore view index address →
    AnswersRange view address offset length (outcome.map Outcome.bytes)

theorem readRange_stored {row : BlobRow crypto}
    (stored : StoredAs config view address row key sealing)
    (nonempty : clampLength row.byteSize offset length ≠ 0) :
    readRange config.kek row.mediaType row.kekId row.byteSize key sealing.container offset
      (clampLength row.byteSize offset length) =
    .ok (slice sealing.plaintext offset (clampLength sealing.plaintext.length offset length)) := by
  rw [stored.byteSize] at nonempty
  rw [stored.mediaType, stored.kekId, stored.byteSize, stored.key]
  refine Sealing.readRange_container stored.fits (Nat.pos_of_ne_zero nonempty) ?_
  rw [clampLength] at nonempty ⊢
  omega

theorem ensures_readable {rest : FoundBlob crypto → Action crypto Result}
    (notCommit : ∀ upload address, call ≠ .commit upload address)
    (missing : ∀ later last error, Rely index view later → ¬ Live later.state address →
      later.history <+: last.history → post (.error error) last)
    (present : ∀ later moved row key, Rely index view later → Sound config later →
      later.state.blob address = some row → row.key = some key →
      moved.state = later.state → later.history <+: moved.history →
      Ensures config index call (rest ⟨row, later.state.pinned address⟩) post moved) :
    Ensures config index call (readable address >>= rest) post view := by
  unfold readable
  simp only [Fallible.bind_assoc, Fallible.pure_bind]
  refine ensures_op fun later relied holds here _ choice hit after done => ?_
  obtain ⟨kept, others⟩ :=
    (of_harmless (.selectBlob address) choice holds.1 here (.inr ⟨⟨address, rfl⟩, notCommit⟩)
      done).rule holds
  refine ⟨kept, others, ?_⟩
  obtain ⟨foundIs, rfl⟩ := mk.inj (some.inj done)
  have grown : later.history <+:
      (later.perform index (.selectBlob address) hit later.state).history :=
    prefix_append _ _
  have failed : ¬ Live later.state address → ∀ error,
      Ensures config index call (lift (.error error)) post
        (later.perform index (.selectBlob address) hit later.state) :=
    fun absent error last further _ _ =>
      missing later last error relied absent (grown.trans further.grown)
  refine ensures_need (fun none => failed ?_ _) fun value some => ?_
  · rintro ⟨row, key, there, -⟩
    rw [← foundIs, there] at none
    cases none
  · rw [← foundIs] at some
    obtain ⟨row, there, rfl⟩ := map_eq_some_iff.mp some
    cases keyed : row.key with
    | none =>
      refine ensures_check (fun _ => failed ?_ _) fun live => absurd ?_ live
      · rintro ⟨other, key, hit, live⟩
        rw [there] at hit
        cases hit
        rw [keyed] at live
        cases live
      · rw [tombstoned, keyed, isNone_none]
    | some key =>
      refine ensures_check (fun dead => absurd ?_ dead) fun _ =>
        present later _ row key relied holds.1 there keyed rfl grown
      rw [tombstoned, keyed]
      exact Bool.false_ne_true

theorem ensures_readFound (present : view.state.blob address = some hit.row)
    (keyed : hit.row.key = some key)
    (stored : StoredAs config view address hit.row key sealing) :
    Ensures config index (.read address offset length)
      (readFound config address offset length hit) (ReadPost index address offset length)
      view := by
  have notCommit : ∀ upload other, Call.read address offset length ≠ .commit upload other := by
    rintro upload other ⟨⟩
  have staged : Staged view address sealing.plaintext := ⟨stored.address, stored.staged⟩
  unfold readFound
  refine ensures_need (fun none => ?_) fun value some => ?_
  · rw [keyed] at none
    cases none
  rw [keyed] at some
  cases some
  split
  next empty =>
    intro last further _ _ _ _
    refine ⟨sealing.plaintext, staged.later further.grown, ?_⟩
    rw [← stored.byteSize, empty, slice, take_zero]
    rfl
  next nonempty =>
    refine ensures_op fun later relied holds here _ choice opened after done => ?_
    obtain ⟨kept, others⟩ :=
      (of_harmless (.openContainer address) choice holds.1 here (.inl rfl) done).rule holds
    refine ⟨kept, others, ?_⟩
    obtain ⟨rfl, rfl⟩ := mk.inj (some.inj done)
    have whole : ∀ {last : Seen crypto}, Rely index (later.perform index (.openContainer address)
        (later.state.containers address) later.state) last → later.history <+: last.history :=
      fun further => (prefix_append _ _).trans further.grown
    -- without sweeps and shreds the container opened is the one sealed with the row
    have inPlace : Quiet later → later.state.containers address = some sealing.container :=
      fun quiet => (relied.kept quiet address hit.row key present keyed).2.trans stored.container
    refine ensures_need (fun none last further _ _ quiet _ => ?_)
      fun container some last further _ _ quiet _ => ?_
    · rw [inPlace (quiet.prior (whole further))] at none
      cases none
    · rw [inPlace (quiet.prior (whole further))] at some
      cases some
      refine ⟨sealing.plaintext, staged.later (relied.grown.trans (whole further)), ?_⟩
      rw [readRange_stored stored nonempty]
      rfl

theorem ensures_read (known : index < view.history.length)
    (committed : Quiet view → CommittedBefore view index address → Live view.state address) :
    Ensures config index (.read address offset length)
      (read config address offset length) (ReadPost index address offset length) view := by
  refine ensures_readable (by rintro upload other ⟨⟩) ?_ ?_
  · intro later last error relied absent grown quiet before
    have quietLater := quiet.prior grown
    have live := committed (quietLater.prior relied.grown)
      (before.prior (relied.grown.trans grown) (Nat.le_of_lt known))
    exact absurd (relied.live quietLater live) absent
  · intro later moved row key relied sound present keyed state grown
    obtain ⟨sealing, stored⟩ := sound.stored address row key present keyed
    exact ensures_readFound (state ▸ present) keyed (stored.later (by rw [state]) grown)

end Read

/-! ## Committing -/

section Commit

def CommitPost (address : BlobAddress) (outcome : Except BlobError (BlobDescriptor × Bool))
    (view : Seen crypto) : Prop :=
  ∀ value, outcome = .ok value → Quiet view → Live view.state address

theorem commit_fails (error : BlobError) :
    Ensures config index call (lift (.error error)) (CommitPost address) view := by
  rintro later - - - value ⟨⟩

theorem ensures_still {rest : verb.Reply → Action crypto Result}
    (still : verb.still = true)
    (continues : ∀ later reply after, Rely index view later → later.running index = some call →
      Untouched later.state after → (∃ choice, exec config later.state verb choice =
        some (reply, after)) →
      Ensures config index call (rest reply) post (later.perform index verb reply after)) :
    Ensures config index call (op verb >>= rest) post view := by
  refine ensures_op fun later relied holds here _ choice reply after done => ?_
  obtain ⟨kept, others⟩ :=
    (of_harmless verb choice holds.1 here (.inl still) done).rule holds
  exact ⟨kept, others,
    continues later reply after relied here (exec_still still done) ⟨choice, done⟩⟩

def Kept (address : BlobAddress) (view : Seen crypto) : Prop :=
  Quiet view → Live view.state address

theorem Kept.later {later : Seen crypto} (kept : Kept address view)
    (relied : Rely index view later) : Kept address later :=
  fun quiet => relied.live quiet (kept (quiet.prior relied.grown))

theorem Kept.perform (kept : Kept address view)
    (keeps : Keeps config view index verb reply after) :
    Kept address (view.perform index verb reply after) :=
  kept.later (keeps.2 (index + 1) (by omega))

theorem ensures_closing {first : Action crypto Result}
    {rest : Result → Action crypto Result'} {post : Except BlobError Result' → Seen crypto → Prop}
    (only : Fallible.Only (fun verb : Op crypto => verb.still = true) first)
    (fact : Seen crypto → Prop)
    (stable : ∀ before later, Rely index before later → fact before → fact later)
    (own : ∀ before verb reply after,
      Keeps config before index verb reply after → verb.still = true → fact before →
      fact (before.perform index verb reply after))
    (failed : ∀ error last, Ensures config index call (lift (.error error)) post last)
    (holds : fact view)
    (continues : ∀ value last, fact last → Ensures config index call (rest value) post last) :
    Ensures config index call (first >>= rest) post view := by
  refine ensures_bind (mono (Program.Only.ensures fact ?_ stable only holds)
    fun outcome last _ _ held => ⟨fun value _ => continues value last held,
      fun error _ => failed error last⟩)
  intro before verb choice reply after still sound here _ held done
  have keeps := of_harmless verb choice sound.1 here (.inl still) done
  obtain ⟨kept, others⟩ := keeps.rule sound
  exact ⟨kept, others, own before verb reply after keeps still held⟩

theorem ensures_commitExisting (hit : existing.row.key ≠ none → Kept address view) :
    Ensures config index call
      (commitExisting upload address mediaType existing) (CommitPost address) view := by
  have closing : Fallible.Only (fun verb : Op crypto => verb.still = true) (do
      discardUploadFiles upload
      op (.deleteUpload upload) : Action crypto Bool) :=
    Fallible.only_bind (still_discardUploadFiles upload) fun _ => Fallible.only_op rfl
  unfold commitExisting
  rw [← Fallible.bind_assoc]
  refine ensures_closing closing (fun last => existing.row.key ≠ none → Kept address last)
    (fun _ _ relied held live => (held live).later relied)
    (fun _ _ _ _ keeps _ held live => (held live).perform keeps) (fun error _ => commit_fails error)
    hit fun _ last held => ?_
  refine ensures_check (fun _ => commit_fails _) fun live => ?_
  refine ensures_check (fun _ => commit_fails _) fun _ => ?_
  intro later relied _ _ value _ quiet
  refine (held fun shredded => live ?_).later relied quiet
  rw [tombstoned, shredded, isNone_none]

def Wrote (index : Nat) (address : BlobAddress) (view : Seen crypto) : Prop :=
  ∃ mediaType byteSize kekId key reply,
    .performed index (Op.insertBlob address mediaType byteSize kekId key) reply ∈ view.history

theorem Wrote.later {later : Seen crypto} (wrote : Wrote index address view)
    (grown : view.history <+: later.history) : Wrote index address later := by
  obtain ⟨mediaType, byteSize, kekId, key, reply, written⟩ := wrote
  exact ⟨mediaType, byteSize, kekId, key, reply, grown.subset written⟩

theorem ensures_closeCommit {inserted : Bool} (kept : Kept address view)
    (wrote : Wrote index address view) :
    Ensures config index (.commit upload address)
      (closeCommit upload address inserted) (CommitPost address) view := by
  have closing : Fallible.Only (fun verb : Op crypto => verb.still = true) (do
      let _ ← op (.deleteUpload upload)
      discardUploadFiles upload : Action crypto Unit) :=
    Fallible.only_bind (Fallible.only_op rfl) fun _ => still_discardUploadFiles upload
  unfold closeCommit
  rw [← Fallible.bind_assoc]
  refine ensures_closing closing (fun last => Kept address last ∧ Wrote index address last)
    (fun _ _ relied held => ⟨held.1.later relied, held.2.later relied.grown⟩)
    (fun _ _ _ _ keeps _ held => ⟨held.1.perform keeps, held.2.later (prefix_append _ _)⟩)
    (fun error _ => commit_fails error) ⟨kept, wrote⟩ fun _ last held => ?_
  refine ensures_op fun later relied holds here _ choice hit after done => ?_
  have keeps : Keeps config later index (.selectBlob address) hit after := by
    refine .select choice holds.1 here done fun publishes => ?_
    obtain ⟨mediaType, byteSize, kekId, key, reply, written⟩ := held.2.later relied.grown
    exact absurd (mem_append_left _ written) (publishes.unwritten _ _ _ _ _)
  obtain ⟨sound, others⟩ := keeps.rule holds
  refine ⟨sound, others, ?_⟩
  refine ensures_need (fun _ => commit_fails _) fun stored _ => ?_
  intro final further _ _ value _ quiet
  exact ((held.1.later relied).perform keeps).later further quiet

theorem ensures_recordBlob (publishes : Publishes view index upload address)
    (inPlace : view.state.containers address = some sealing.container) (fits : sealing.Fits)
    (staged : Staged view address sealing.plaintext) (mediaType : row.mediaType = sealing.mediaType)
    (kekId : config.kekId = sealing.kekId) (size : row.byteSize = sealing.plaintext.length) :
    Ensures config index (.commit upload address)
      (recordBlob config upload address row (sealing.key config.kek))
        (CommitPost address) view := by
  unfold recordBlob
  refine ensures_op fun later relied holds _ _ choice inserted after done => ?_
  have inPlace := (relied.place upload address publishes).trans inPlace
  have staged := staged.later relied.grown
  have stored : ∀ stored : BlobRow crypto, stored.mediaType = row.mediaType →
      stored.kekId = config.kekId → stored.byteSize = row.byteSize →
      StoredAs config later address stored (sealing.key config.kek) sealing := by
    intro stored sameType sameLabel sameSize
    exact ⟨fits, inPlace, rfl, sameType.trans mediaType, sameLabel.trans kekId,
      sameSize.trans size, staged.1, staged.2⟩
  obtain ⟨keeps, new, present, keyed⟩ :=
    insertBlob choice holds.1 (relied.publishes.mpr publishes) stored done
  obtain ⟨sound, others⟩ := keeps.rule holds
  refine ⟨sound, others, ensures_closeCommit (fun _ => ⟨new, _, present, keyed⟩) ?_⟩
  exact ⟨_, _, _, _, _, mem_concat_self⟩

theorem ensures_commitNew (publishes : Publishes view index upload address)
    (staged : Staged view address plaintext) (size : row.byteSize = plaintext.length) :
    Ensures config index (.commit upload address)
      (commitNew config upload address row plaintext) (CommitPost address) view := by
  unfold commitNew
  -- the secrets
  refine ensures_still rfl fun first secrets after relied here untouched _ => ?_
  have publishes : Publishes (first.perform index .generateSecrets secrets after) index upload
      address := (relied.publishes.mpr publishes).perform (by rintro _ _ _ _ ⟨⟩)
  have staged : Staged (first.perform index .generateSecrets secrets after) address plaintext :=
    staged.later (relied.grown.trans (prefix_append _ _))
  refine ensures_lift (fun error _ => commit_fails error) fun sealed sealedOk => ?_
  let sealing : Sealing crypto := ⟨plaintext, row.mediaType, config.kekId, secrets.dek,
    secrets.wrapNonce, secrets.streamNonce⟩
  obtain ⟨fits, rfl⟩ := sealing.sealWith_eq_ok.mp sealedOk
  -- the staged container
  refine ensures_op fun second relied holds _ _ choice reply after done => ?_
  have publishes := relied.publishes.mpr publishes
  have staged := staged.later relied.grown
  obtain ⟨sound, others⟩ :=
    (writeStaging choice holds.1 publishes done).rule holds
  refine ⟨sound, others, ?_⟩
  obtain ⟨-, rfl⟩ := mk.inj (some.inj done)
  generalize writtenIs : second.perform index (.writeStaging upload sealing.container) reply _ =
    written
  have inStaging : written.state.staging upload = some sealing.container :=
    writtenIs ▸ update_self ..
  have publishes : Publishes written index upload address :=
    writtenIs ▸ publishes.perform (by rintro _ _ _ _ ⟨⟩)
  have staged : Staged written address plaintext :=
    staged.later (writtenIs ▸ prefix_append _ _)
  -- the container goes into place
  refine ensures_op fun third relied holds _ _ choice renamed after done => ?_
  replace done : exec config third.state (.renameStaging upload address) choice =
    some (renamed, after) := done
  have inStaging : third.state.staging upload = some sealing.container ∨
      third.state.staging upload = none :=
    (relied.staging upload address publishes).imp_left fun eq => eq.trans inStaging
  have publishes := relied.publishes.mpr publishes
  have staged := staged.later relied.grown
  obtain ⟨sound, others⟩ :=
    (renameStaging choice holds.1 publishes done).rule holds
  refine ⟨sound, others, ensures_check (fun _ => commit_fails _) fun isRenamed => ?_⟩
  rcases exec_renameStaging done with ⟨rfl, -⟩ | ⟨container, hit, -, rfl⟩
  · cases isRenamed
  have own : container = sealing.container := by
    rcases inStaging with eq | gone
    · rw [eq] at hit
      exact (some.inj hit).symm
    · rw [gone] at hit
      cases hit
  subst own
  exact ensures_recordBlob (publishes.perform (by rintro _ _ _ _ ⟨⟩)) (update_self ..) fits
    (staged.later (prefix_append _ _)) rfl rfl size

def Begun (index : Nat) (view : Seen crypto) : Prop :=
  ∀ sought answered, .performed index sought answered ∈ view.history → sought.still = true

section

variable (begun : Begun index view)
include begun

theorem Begun.later {later : Seen crypto} (relied : Rely index view later) : Begun index later :=
  fun sought answered performed => begun sought answered ((relied.own sought answered).mp performed)

theorem Begun.perform (still : verb.still = true) :
    Begun index (view.perform index verb reply after) := by
  intro sought answered performed
  rcases mem_snoc.mp performed with prior | ⟨⟨⟩⟩
  · exact begun sought answered prior
  · exact still

theorem ensures_look
    (staged : Staged view address plaintext) (size : row.byteSize = plaintext.length) :
    Ensures config index (.commit upload address)
      (do
        let existing : Option (FoundBlob crypto) ← op (.selectBlob address)
        match existing with
        | some existing => commitExisting upload address row.mediaType existing
        | none => commitNew config upload address row plaintext)
      (CommitPost address) view := by
  refine ensures_op fun later relied holds here careful choice hit after done => ?_
  replace done : exec config later.state (.selectBlob address) choice = some (hit, after) := done
  have begun := begun.later relied
  have unlooked : ∀ reply, .performed index (Op.selectBlob address) reply ∉ later.history := by
    intro reply performed
    cases begun _ _ performed
  have keeps : Keeps config later index (.selectBlob address) hit after := by
    refine .select choice holds.1 here done fun publishes => ⟨?_, fun other _ => ?_⟩
    · -- the look that found nothing is this one
      obtain ⟨foundIs, -⟩ := mk.inj (some.inj done)
      rcases mem_snoc.mp publishes.looked with prior | last
      · exact absurd prior (unlooked _)
      · have eq : hit = none := by
          cases last
          rfl
        rw [eq] at foundIs
        exact map_eq_none_iff.mp foundIs
    · exact careful upload address rfl here unlooked other
  obtain ⟨sound, others⟩ := keeps.rule holds
  refine ⟨sound, others, ?_⟩
  cases hit with
  | some existing =>
    refine ensures_commitExisting fun live => ?_
    obtain ⟨foundIs, rfl⟩ := mk.inj (some.inj done)
    obtain ⟨present, there, rfl⟩ := map_eq_some_iff.mp foundIs
    obtain ⟨key, keyed⟩ := ne_none_iff_exists'.mp live
    exact fun _ => ⟨present, key, there, keyed⟩
  | none =>
    refine ensures_commitNew ⟨here, mem_concat_self, ?_⟩
      (staged.later (relied.grown.trans (prefix_append _ _))) size
    intro mediaType byteSize kekId key inserted written
    rcases mem_snoc.mp written with prior | ⟨⟨⟩⟩
    cases begun _ _ prior

theorem ensures_commit : Ensures config index (.commit upload address)
      (commit config upload address) (CommitPost address) view := by
  unfold commit
  refine ensures_check (fun _ => commit_fails _) fun _ => ?_
  refine ensures_still rfl fun first hit after relied _ _ _ => ?_
  have begun : Begun index (first.perform index (.selectUpload upload) hit after) :=
    (begun.later relied).perform rfl
  refine ensures_need (fun _ => commit_fails _) fun row _ => ?_
  refine ensures_check (fun _ => commit_fails _) fun _ => ?_
  refine ensures_check (fun _ => commit_fails _) fun complete => ?_
  refine ensures_still rfl fun second opened after relied _ _ _ => ?_
  have begun : Begun index (second.perform index (.openUploadFile upload) opened after) :=
    (begun.later relied).perform rfl
  refine ensures_check (fun _ => commit_fails _) fun _ => ?_
  refine ensures_still rfl fun third content after relied _ _ done => ?_
  obtain ⟨choice, done⟩ := done
  have begun : Begun index
      (third.perform index (.readUploadFile upload row.row.written) content after) :=
    (begun.later relied).perform rfl
  refine ensures_need (fun _ => commit_fails _) fun plaintext read => ?_
  subst read
  refine ensures_check (fun _ => commit_fails _) fun hashed => ?_
  refine ensures_look begun ⟨hashed, _, _, _, mem_concat_self⟩ ?_
  exact complete.symm.trans (exec_readUploadFile done).2.symm

end

end Commit

/-! ## Sweeping and shredding -/

section Removal

theorem ensures_unlink {swept remaining : List BlobAddress} (distinct : remaining.Nodup)
    (deleted : .performed index Op.deleteUnreferenced swept ∈ view.history)
    (among : ∀ address ∈ remaining, address ∈ swept)
    (left : ∀ address ∈ remaining, .performed index (Op.removeContainer address) () ∉
      view.history) :
    Ensures config index .sweep
      (remaining.forM fun address => op (.removeContainer address)) (fun _ _ => True) view := by
  induction remaining generalizing view with
  | nil => exact fun _ _ _ _ => trivial
  | cons address rest ih =>
    rw [nodup_cons] at distinct
    refine ensures_op fun later relied holds here _ choice reply after done => ?_
    have unlinks : Unlinks later index address :=
      ⟨here, ⟨swept, relied.grown.subset deleted, among address mem_cons_self⟩,
        fun removed => left address mem_cons_self ((relied.own _ _).mp removed)⟩
    obtain ⟨vacant, unpublished⟩ := holds.1.unlinked index address unlinks
    obtain ⟨sound, others⟩ := (removeContainer choice holds.1 here rfl
      (fun row hit => by rw [vacant] at hit; cases hit) unpublished done).rule holds
    refine ⟨sound, others, ih distinct.2 (mem_append_left _ (relied.grown.subset deleted))
      (fun other mem => among other (mem_cons_of_mem _ mem)) ?_⟩
    intro other mem removed
    rcases mem_snoc.mp removed with prior | ⟨⟨⟩⟩
    · exact left other (mem_cons_of_mem _ mem) ((relied.own _ _).mp prior)
    · exact distinct.1 mem

theorem ensures_sweep (begun : Begun index view) : Ensures config index .sweep
      (sweep : Action crypto (List BlobAddress)) (fun _ _ => True) view := by
  unfold sweep
  refine ensures_closing still_expireUploads (Begun index) (fun _ _ relied begun =>
    begun.later relied)
    (fun _ _ _ _ _ still begun => begun.perform still) (fun _ _ _ _ _ _ => trivial) begun
    fun _ last begun => ?_
  refine ensures_op fun later relied holds here _ choice swept after done => ?_
  replace done : exec config later.state .deleteUnreferenced choice = some (swept, after) := done
  obtain ⟨sound, others⟩ := (deleteUnreferenced choice holds.1 here done).rule holds
  have distinct : swept.Nodup := by
    obtain ⟨listed, -⟩ := exec_deleteUnreferenced done
    exact listed.nodup_iff.mpr (later.state.blobs.keys_nodup.filter _)
  refine ⟨sound, others, ensures_bind (mono (ensures_unlink distinct
    mem_concat_self (fun _ mem => mem) ?_)
    fun _ _ _ _ _ => ⟨fun _ _ _ _ _ _ => trivial, fun _ _ _ _ _ _ => trivial⟩)⟩
  intro address _ removed
  rcases mem_snoc.mp removed with prior | ⟨⟨⟩⟩
  cases (begun.later relied) _ _ prior

theorem ensures_shred : Ensures config index (.shred address)
      (shred address) (fun _ _ => True) view := by
  have notCommit : ∀ upload other, Call.shred address ≠ .commit upload other := by
    rintro upload other ⟨⟩
  unfold shred
  refine ensures_op fun first relied holds here _ choice hit after done => ?_
  obtain ⟨sound, others⟩ := (of_harmless (.selectBlob address) choice holds.1 here
    (.inr ⟨⟨address, rfl⟩, notCommit⟩) done).rule holds
  refine ⟨sound, others, ensures_need (fun _ _ _ _ _ => trivial) fun row _ => ?_⟩
  split
  · exact fun _ _ _ _ => trivial
  refine ensures_check (fun _ _ _ _ _ => trivial) fun _ => ?_
  refine ensures_op fun second relied holds here _ choice updated after done => ?_
  obtain ⟨keeps, dead⟩ := tombstone choice holds.1 here done
  obtain ⟨sound, others⟩ := keeps.rule holds
  refine ⟨sound, others, ensures_check (fun _ _ _ _ _ => trivial) fun isUpdated => ?_⟩
  obtain ⟨tomb, present, shredded⟩ := dead isUpdated
  intro third relied holds here _ choice reply after done
  have present := relied.tombs address tomb present shredded
  obtain ⟨sound, others⟩ := (removeContainer choice holds.1 here rfl
    (fun row hit => by rw [present] at hit; cases hit; exact shredded)
    (fun other upload publishes => by
      rw [holds.1.unpublished other upload address publishes] at present
      cases present) done).rule holds
  exact ⟨sound, others, fun _ _ _ _ => trivial⟩

end Removal

/-! ## Runs -/

variable {more : List (Moment (signature crypto) Call Answer)}

theorem Rely.aside {later : Seen crypto} (running : later.running other = view.running other)
    (appended : later.history = view.history ++ more)
    (unperformed : ∀ verb reply, .performed other verb reply ∉ more)
    (blobs : later.state.blobs = view.state.blobs)
    (containers : later.state.containers = view.state.containers)
    (staging : later.state.staging = view.state.staging) : Rely other view later := by
  have eq : ∀ address, later.state.blob address = view.state.blob address := by
    intro address
    rw [Store.blob, Store.blob, blobs]
  exact {
    running := running
    own := fun verb reply => by
      rw [appended, mem_append]
      exact or_iff_left (unperformed verb reply)
    grown := appended ▸ prefix_append _ _
    tombs := fun address row hit _ => (eq address).trans hit
    place := fun _ _ _ => by rw [containers]
    staging := fun _ _ _ => .inl (by rw [staging])
    kept := fun _ address row key hit _ => ⟨(eq address).trans hit, by rw [containers]⟩ }

theorem Sound.aside {later : Seen crypto} (sound : Sound config view) (orderly : later.Orderly)
    (appended : later.history = view.history ++ more)
    (unperformed : ∀ other verb reply, .performed other verb reply ∉ more)
    (running : ∀ other call, other < view.fresh → later.running other = some call →
      view.running other = some call) (blobs : later.state.blobs = view.state.blobs)
    (containers : later.state.containers = view.state.containers) : Sound config later := by
  have grown : view.history <+: later.history := appended ▸ prefix_append _ _
  refine sound.still orderly blobs containers grown
    (fun other upload address publishes => ?_) (fun other address unlinks => ?_)
  · have looked := performed_of_aside appended unperformed publishes.looked
    exact ⟨running other _ (sound.orderly.past _ looked) publishes.running, looked,
      fun _ _ _ _ _ written => publishes.unwritten _ _ _ _ _ (grown.subset written)⟩
  · obtain ⟨swept, deleted, mem⟩ := unlinks.deleted
    have deleted := performed_of_aside appended unperformed deleted
    exact ⟨running other _ (sound.orderly.past _ deleted) unlinks.running,
      ⟨swept, deleted, mem⟩, fun removed => unlinks.unremoved (grown.subset removed)⟩

theorem Promise.of_silent (silent : call.silent = true) : Promise index call answer view := by
  constructor
  · rintro _ _ _ rfl
    cases silent
  · rintro _ _ _ rfl
    cases silent

theorem begun_issue (orderly : view.Orderly) (call : Call) : Begun view.fresh (view.issue call) :=
  fun sought answered performed => absurd performed (orderly.unperformed call sought answered)

theorem ensures_silent (ensures : Ensures config index call program (fun _ _ => True) view)
    (silent : call.silent = true) :
    Ensures config index call (do return outcome (← program)) (Promise index call) view :=
  ensures_bind (mono ensures fun _ _ _ _ _ =>
    ⟨fun _ _ _ _ _ _ => .of_silent silent, fun _ _ _ _ _ _ => .of_silent silent⟩)

theorem ensures_other (only : Fallible.Only (harmless call) program) (silent : call.silent = true) :
    Ensures config index call (do return outcome (← program)) (Promise index call) view :=
  ensures_silent (ensures_of_harmless only) silent

theorem keeps_ends {later : Seen crypto} (sound : Sound config view) (orderly : later.Orderly)
    (ending : ∀ other verb reply, .performed other verb reply ≠ moment)
    (laterIs : later = ⟨view.state, Function.update view.running index none,
      view.history ++ [moment]⟩) :
    Sound config later ∧ ∀ other, other ≠ index → Rely other view later := by
  subst laterIs
  refine ⟨sound.aside orderly rfl (fun other verb reply last => ?_)
    (fun _ _ _ hit => running_of_ended hit) rfl rfl, fun other ne => ?_⟩
  · exact ending other verb reply (mem_singleton.mp last)
  · exact .aside (update_of_ne ne ..) rfl
      (fun verb reply last => ending other verb reply (mem_singleton.mp last))
      rfl rfl rfl

theorem ensures_code_commit (begun : Begun index view) :
    Ensures config index (.commit upload address)
      (code config (.commit upload address)) (Promise index (.commit upload address)) view := by
  have promise : ∀ (answer : Answer) (later : Seen crypto),
      (∀ outcome, answer = .ok outcome → Kept address later) →
      Promise index (.commit upload address) answer later := by
    intro answer later kept
    refine ⟨fun _ _ outcome eq answered => ?_, fun _ _ _ isRead => (by cases isRead)⟩
    cases eq
    exact kept outcome answered
  refine ensures_bind (mono (ensures_commit begun)
    fun answered last _ _ post => ⟨fun value isOk => ?_, fun error _ => ?_⟩)
  · intro later relied _ _
    exact promise _ later fun _ _ => Kept.later (post value isOk) relied
  · intro later _ _ _
    exact promise _ later (by rintro _ ⟨⟩)

theorem ensures_code_read (known : index < view.history.length)
    (committed : Quiet view → CommittedBefore view index address → Live view.state address) :
    Ensures config index (.read address offset length)
      (code config (.read address offset length)) (Promise index (.read address offset length))
      view := by
  have promise : ∀ outcome (last later : Seen crypto), Rely index last later →
      index < last.fresh → ReadPost index address offset length outcome last →
      Promise index (.read address offset length) (outcome.map Outcome.bytes) later := by
    intro outcome last later relied before post
    refine ⟨fun _ _ _ isCommit => (by cases isCommit), fun _ _ _ eq quiet committed => ?_⟩
    cases eq
    exact (post (quiet.prior relied.grown)
      (committed.prior relied.grown (Nat.le_of_lt before))).later relied.grown
  refine ensures_bind (mono (ensures_read known committed)
    fun answered last holds here post => ⟨fun value isOk later relied _ _ => ?_,
      fun error isError later relied _ _ => ?_⟩)
  · subst isOk
    exact promise _ last later relied (holds.1.orderly.before here) post
  · subst isError
    exact promise _ last later relied (holds.1.orderly.before here) post

/-- **Every call keeps to the discipline.** -/
theorem upheld : (Blob.rule config).Upheld (system config) Promise where
  issue view call holds _ := by
    have orderly := holds.1.orderly.issue call
    refine ⟨⟨holds.1.aside orderly rfl (fun _ _ _ => by simp)
      (fun _ _ => running_of_issue) rfl rfl, holds.2.append holds.1.orderly rfl
        (fun _ _ live => live)
        (fun _ _ _ _ other => by cases other) (fun _ _ _ _ _ other => by cases other)⟩,
      fun other ne => ?_⟩
    exact .aside (update_of_ne ne ..) rfl (fun _ _ => by simp) rfl rfl rfl
  code view call holds _ := by
    have begun := begun_issue holds.1.orderly call
    cases call with
    | begin mediaType byteSize => exact ensures_other (only_begin mediaType byteSize) rfl
    | writeChunk upload sequence chunk =>
      exact ensures_other (only_writeChunk upload sequence chunk) rfl
    | commit upload address => exact ensures_code_commit begun
    | abort upload => exact ensures_other (only_abort upload) rfl
    | read address offset length =>
      refine ensures_code_read (by simp [fresh, issue]) fun quiet before => ?_
      -- what was committed before the read was issued is in the history without it
      have grown : view.history <+: (view.issue (.read address offset length)).history :=
        prefix_append _ _
      obtain ⟨committer, upload, outcome, returned⟩ := before.prior grown (Nat.le_refl _)
      exact holds.2.committed (quiet.prior grown) committer upload address outcome
        (mem_of_mem_take returned)
    | stat address => exact ensures_other (only_stat address rfl) rfl
    | pin address evidence => exact ensures_other (only_pin address evidence rfl) rfl
    | unpin address evidence => exact ensures_other (only_unpin address evidence rfl) rfl
    | sweep => exact ensures_silent (ensures_sweep begun) rfl
    | shred address => exact ensures_silent ensures_shred rfl
  finish view index call answer holds here promise := by
    obtain ⟨sound, others⟩ :=
      keeps_ends holds.1 (holds.1.orderly.finish here answer) (by rintro _ _ _ ⟨⟩) rfl
    have grown : view.history <+: (view.finish index call answer).history :=
      prefix_append _ _
    refine ⟨⟨sound, holds.2.append holds.1.orderly rfl (fun _ _ live => live) ?_ ?_⟩, others⟩
    · rintro _ upload address outcome ⟨⟩ quiet
      exact promise.1 upload address outcome rfl rfl (quiet.prior grown)
    · rintro _ address offset length _ ⟨⟩ quiet before
      exact (promise.2 address offset length rfl (quiet.prior grown) (before.prior grown
        (Nat.le_of_lt (holds.1.orderly.before here)))).later grown
  stop view index call holds here := by
    obtain ⟨sound, others⟩ :=
      keeps_ends holds.1 (holds.1.orderly.stop here) (by rintro _ _ _ ⟨⟩) rfl
    exact ⟨⟨sound, holds.2.append holds.1.orderly rfl (fun _ _ live => live)
      (by rintro _ _ _ _ ⟨⟩) (by rintro _ _ _ _ _ ⟨⟩)⟩, others⟩
  outside view event holds := by
    have eq : (disturb view.state event).blobs = view.state.blobs ∧
        (disturb view.state event).containers = view.state.containers ∧
        (disturb view.state event).staging = view.state.staging := by
      cases event with
      | pass | refer => exact ⟨rfl, rfl, rfl⟩
    refine ⟨⟨holds.1.still (holds.1.orderly.disturb _) eq.1 eq.2.1
      (prefix_refl _) (fun _ _ _ publishes => ?_) (fun _ _ unlinks => ?_), ?_⟩, fun other => ?_⟩
    · exact ⟨publishes.running, publishes.looked, publishes.unwritten⟩
    · exact ⟨unlinks.running, unlinks.deleted, unlinks.unremoved⟩
    · refine ⟨fun quiet index upload address outcome returned => ?_, holds.2.answered⟩
      obtain ⟨row, key, hit, keyed⟩ := holds.2.committed quiet index upload address outcome returned
      refine ⟨row, key, ?_, keyed⟩
      rw [← hit]
      exact congrArg (AList.lookup address) eq.1
    · exact .aside rfl (append_nil _).symm (fun _ _ => not_mem_nil) eq.1 eq.2.1 eq.2.2

end Discipline

end Gridwork.Blob
