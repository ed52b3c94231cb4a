import Gridwork.Blob.Pins

/-!
# Uploads

`write_chunk` reads the upload's row, writes the chunk into the upload's file at the offset the
row gives, and then updates the row: `written` to the new end, `next_chunk` by one.  The order
check is made on the row that was read.

As long as a chunk write reads the row only while no other one is between its read and its
update, the bookkeeping of an upload is exact in every state of every run: the recorded chunks
are those of the sequence numbers from zero on, one call each, and the file begins with them in
order (`upload_exact`).  A commit that succeeds is then one of exactly these bytes.
-/

namespace Gridwork.Blob

open Lib List Function Option Fallible Outcome View Prod Nat Op Program.Ensures

/-! ## Files -/

section WriteAt

variable {content chunk : Bytes} {offset count : Nat}

theorem le_length_writeAt : content.length ≤ (writeAt content offset chunk).length := by
  unfold writeAt
  split
  next => exact le_refl _
  next =>
    simp only [length_append, length_take, length_replicate, length_drop]
    omega

theorem take_writeAt (before : count ≤ offset) (enough : count ≤ content.length) :
    (writeAt content offset chunk).take count = content.take count := by
  unfold writeAt
  split
  next => rfl
  next =>
    have inside : count ≤ (content.take offset).length := by
      rw [length_take]
      omega
    rw [append_assoc, append_assoc, take_append_of_le_length inside, take_take, min_eq_left before]

theorem take_writeAt_end (enough : offset ≤ content.length) :
    (writeAt content offset chunk).take (offset + chunk.length) = content.take offset ++ chunk := by
  unfold writeAt
  split
  next empty => rw [empty, append_nil, length_nil, add_zero]
  next =>
    rw [Nat.sub_eq_zero_of_le enough, replicate_zero, append_nil]
    refine take_left' ?_
    rw [length_append, length_take_of_le enough]

end WriteAt

/-! ## Positions -/

section Positions

variable {crypto : Crypto} (id : String)

def Selected (view : Seen crypto) (index : Nat) (hit : FoundUpload) : Prop :=
  .performed index (Op.selectUpload id) (some hit) ∈ view.history

def Recorded (view : Seen crypto) (index : Nat) : Prop :=
  ∃ written, .performed index (Op.recordChunk id written) () ∈ view.history

/-- A chunk write between its read of the row and its update. -/
structure Writes (view : Seen crypto) (index : Nat) (hit : FoundUpload) : Prop where
  running : ∃ sequence chunk, view.running index = some (.writeChunk id sequence chunk)
  looked : Selected id view index hit
  unrecorded : ¬ Recorded id view index

/-- A chunk write reads the row only while no other one is between its read and its update. -/
def WritesInTurn (view : Seen crypto) (index : Nat) (verb : Op crypto) : Prop :=
  verb = .selectUpload id →
    (∃ sequence chunk, view.running index = some (.writeChunk id sequence chunk)) →
    ∀ other ≠ index, ∀ hit, ¬ Writes id view other hit

/-- The recorded chunks of an upload with their calls, in order of their sequence numbers, and
the row and the file that belong to them. -/
structure Tally (view : Seen crypto) (row : UploadRow) (calls : List (Nat × Bytes)) : Prop where
  count : calls.length = row.nextChunk
  issued : ∀ (sequence index : Nat) chunk, calls[sequence]? = some (index, chunk) →
    .issued index (.writeChunk id sequence chunk) ∈ view.history ∧ Recorded id view index
  complete : ∀ index, Recorded id view index →
    ∃ (sequence : Nat) (chunk : Bytes), calls[sequence]? = some (index, chunk)
  written : row.written = (calls.flatMap Prod.snd).length
  fits : row.written ≤ row.byteSize
  staged : (view.state.uploadData id).take row.written = calls.flatMap Prod.snd

/-- The bytes a commit read are the chunks of the first sequence numbers in order, with every
chunk that was acknowledged before the commit was issued. -/
structure Gathers (view : Seen crypto) (index : Nat) (calls : List (Nat × Bytes)) : Prop where
  issued : ∀ (sequence other : Nat) chunk, calls[sequence]? = some (other, chunk) →
    .issued other (.writeChunk id sequence chunk) ∈ view.history
  acknowledged : ∀ (sequence other : Nat) chunk outcome,
    .returned other (.writeChunk id sequence chunk) (.ok outcome) ∈ view.history.take index →
    calls[sequence]? = some (other, chunk)

end Positions

section Counted

variable {crypto : Crypto} (config : BlobConfig crypto) (id : String) {hit : FoundUpload}

/-- A commit that succeeded is one of the concatenated chunks: they hash to its address, and
unless the blob was stored already, the container it put in place and the key in the row it
inserted are those of a sealing of them. -/
def Stores (view : Seen crypto) (index : Nat) (address : BlobAddress) (outcome : Outcome) : Prop :=
  ∃ calls, Gathers id view index calls ∧
    addressOf (crypto.sha256 (calls.flatMap Prod.snd)) = address ∧
    ∀ descriptor, outcome = .committed descriptor false →
      ∃ mediaType byteSize, ∃ secrets : Secrets crypto, ∃ sealed,
        sealWith (calls.flatMap Prod.snd) mediaType config.kek config.kekId secrets.dek
          secrets.wrapNonce secrets.streamNonce = .ok sealed ∧
        .performed index Op.generateSecrets secrets ∈ view.history ∧
        .performed index (Op.writeStaging id sealed.container) () ∈ view.history ∧
        .performed index (Op.renameStaging id address) true ∈ view.history ∧
        .performed index (Op.insertBlob address mediaType byteSize config.kekId sealed.key) true ∈
          view.history

/-- What calls were told: a chunk write that updated the row and has ended without being given up
was answered, one that was answered has updated the row, and commits that succeeded stored the
chunks. -/
structure Acknowledged (view : Seen crypto) : Prop where
  ended : ∀ index, Recorded id view index →
    (∃ sequence chunk, view.running index = some (.writeChunk id sequence chunk)) ∨
    .stopped index ∈ view.history ∨ ∃ sequence chunk outcome,
      .returned index (.writeChunk id sequence chunk) (.ok outcome) ∈ view.history
  told : ∀ index sequence chunk outcome,
    .returned index (.writeChunk id sequence chunk) (.ok outcome) ∈ view.history →
    Recorded id view index
  stored : ∀ index address outcome,
    .returned index (.commit id address) (.ok outcome) ∈ view.history →
    Stores config id view index address outcome

structure Counted (view : Seen crypto) : Prop where
  orderly : view.Orderly
  minted : id ∈ view.state.minted
  alone : ∀ first second hit other, Writes id view first hit → Writes id view second other →
    first = second
  held : ∀ index hit, Writes id view index hit →
    view.state.upload id = none ∨ view.state.upload id = some hit.row
  long : ∀ index hit, Selected id view index hit →
    hit.row.written ≤ (view.state.uploadData id).length
  ahead : ∀ index hit other later, Selected id view index hit → Writes id view other later →
    hit.row.written ≤ later.row.written
  below : ∀ index hit row, Selected id view index hit → view.state.upload id = some row →
    hit.row.written ≤ row.written
  tally : ∀ row, view.state.upload id = some row → ∃ calls, Tally id view row calls
  acknowledged : Acknowledged config id view

/-- What a call relies on while others move: its own position stays; what it read as written
stays, and while it writes the whole file does. -/
structure UploadRely (index : Nat) (view later : Seen crypto) : Prop where
  running : later.running index = view.running index
  own : ∀ verb reply, .performed index verb reply ∈ later.history ↔
    .performed index verb reply ∈ view.history
  grown : view.history <+: later.history
  data : ∀ hit, Writes id view index hit →
    later.state.uploadData id = view.state.uploadData id
  start : ∀ hit, Selected id view index hit →
    (later.state.uploadData id).take hit.row.written =
      (view.state.uploadData id).take hit.row.written

/-- What a call's answer promises: a chunk write succeeded if and only if it updated the row, and
a commit that succeeded stored the chunks. -/
def UploadPromise (index : Nat) (call : Call) (answer : Answer) (view : Seen crypto) : Prop :=
  (∀ sequence chunk, call = .writeChunk id sequence chunk →
    ((∃ outcome, answer = .ok outcome) ↔ Recorded id view index)) ∧
  (∀ address outcome, call = .commit id address → answer = .ok outcome →
    Stores config id view index address outcome)

variable {id}

theorem UploadRely.writes {index : Nat} {view later : Seen crypto}
    (relied : UploadRely id index view later) :
    Writes id later index hit ↔ Writes id view index hit := by
  constructor
  · rintro ⟨running, looked, unrecorded⟩
    exact ⟨relied.running ▸ running, (relied.own _ _).mp looked,
      fun ⟨written, recorded⟩ => unrecorded ⟨written, (relied.own _ _).mpr recorded⟩⟩
  · rintro ⟨running, looked, unrecorded⟩
    exact ⟨relied.running ▸ running, (relied.own _ _).mpr looked,
      fun ⟨written, recorded⟩ => unrecorded ⟨written, (relied.own _ _).mp recorded⟩⟩

theorem UploadRely.refl (index : Nat) (view : Seen crypto) : UploadRely id index view view :=
  ⟨rfl, fun _ _ => Iff.rfl, prefix_refl _, fun _ _ => rfl, fun _ _ => rfl⟩

theorem UploadRely.trans (index : Nat) (first second third : Seen crypto)
    (early : UploadRely id index first second) (late : UploadRely id index second third) :
    UploadRely id index first third where
  running := late.running.trans early.running
  own verb reply := (late.own verb reply).trans (early.own verb reply)
  grown := early.grown.trans late.grown
  data hit writes := (late.data hit (early.writes.mpr writes)).trans (early.data hit writes)
  start hit looked :=
    (late.start hit ((early.own _ _).mpr looked)).trans (early.start hit looked)

def uploadDiscipline (config : BlobConfig crypto) (id : String) :
    Discipline (signature crypto) (Store crypto) Call Answer where
  invariant := Counted config id
  rely := UploadRely id
  careful := WritesInTurn id
  admits _ _ := True
  refl := UploadRely.refl
  trans := UploadRely.trans

end Counted

/-! ## Steps -/

section Steps

variable {crypto : Crypto} {config : BlobConfig crypto} {id : String} {view : Seen crypto}
  {index other : Nat} {call : Call} {calls : List (Nat × Bytes)} {row : UploadRow}
  {verb : Op crypto} {reply : verb.Reply} {after : Store crypto} {hit : FoundUpload}
  {more : List (Moment (signature crypto) Call Answer)}

theorem Recorded.later {later : Seen crypto} (recorded : Recorded id view index)
    (grown : view.history <+: later.history) : Recorded id later index := by
  obtain ⟨written, performed⟩ := recorded
  exact ⟨written, grown.subset performed⟩

theorem Tally.later {later : Seen crypto} (tally : Tally id view row calls)
    (grown : view.history <+: later.history)
    (recorded : ∀ index, Recorded id later index → Recorded id view index)
    (staged : (later.state.uploadData id).take row.written =
      (view.state.uploadData id).take row.written) : Tally id later row calls where
  count := tally.count
  issued sequence index chunk hit :=
    ⟨grown.subset (tally.issued sequence index chunk hit).1,
      .later (tally.issued sequence index chunk hit).2 grown⟩
  complete index hit := tally.complete index (recorded index hit)
  written := tally.written
  fits := tally.fits
  staged := staged.trans tally.staged

theorem Tally.enough
    (tally : Tally id view row calls) : row.written ≤ (view.state.uploadData id).length := by
  have length := congrArg List.length tally.staged
  rw [← tally.written, length_take] at length
  omega

theorem Gathers.later {later : Seen crypto} (gathers : Gathers id view index calls)
    (grown : view.history <+: later.history) (known : index ≤ view.history.length) :
    Gathers id later index calls := by
  refine ⟨fun sequence other chunk hit => grown.subset (gathers.issued sequence other chunk hit),
    fun sequence other chunk outcome returned => gathers.acknowledged sequence other
      chunk outcome ?_⟩
  obtain ⟨rest, appended⟩ := grown
  rwa [← appended, take_append_of_le_length known] at returned

theorem Stores.later {later : Seen crypto} {address : BlobAddress} {outcome : Outcome}
    (stores : Stores config id view index address outcome)
    (grown : view.history <+: later.history) (known : index ≤ view.history.length) :
    Stores config id later index address outcome := by
  obtain ⟨calls, gathers, hashed, sealing⟩ := stores
  refine ⟨calls, gathers.later grown known, hashed, fun descriptor new => ?_⟩
  obtain ⟨mediaType, byteSize, secrets, sealed, isSealed, drawn, staged, renamed, inserted⟩ :=
    sealing descriptor new
  exact ⟨mediaType, byteSize, secrets, sealed, isSealed, grown.subset drawn, grown.subset staged,
    grown.subset renamed, grown.subset inserted⟩

section Performed

theorem Recorded.of_perform
    (recorded : Recorded id (view.perform index verb reply after) other)
    (unrecorded : ∀ written, verb ≠ .recordChunk id written) : Recorded id view other := by
  obtain ⟨written, performed⟩ := recorded
  rcases mem_snoc.mp performed with prior | ⟨⟨⟩⟩
  · exact ⟨written, prior⟩
  · exact absurd rfl (unrecorded written)

theorem Selected.of_perform
    (selected : Selected id (view.perform index verb reply after) other hit)
    (unlooked : verb ≠ .selectUpload id) : Selected id view other hit := by
  rcases mem_snoc.mp selected with prior | ⟨⟨⟩⟩
  · exact prior
  · exact absurd rfl unlooked

theorem Writes.of_perform
    (writes : Writes id (view.perform index verb reply after) other hit)
    (unlooked : verb ≠ .selectUpload id) : Writes id view other hit :=
  ⟨writes.running, writes.looked.of_perform unlooked,
    fun done => writes.unrecorded (.later done (prefix_append _ _))⟩

theorem Writes.perform (writes : Writes id view other hit)
    (unrecorded : ∀ written, verb ≠ .recordChunk id written) :
    Writes id (view.perform index verb reply after) other hit :=
  ⟨writes.running, mem_append_left _ writes.looked,
    fun done => writes.unrecorded (done.of_perform unrecorded)⟩

end Performed

theorem Acknowledged.perform {reply : verb.Reply}
    (acknowledged : Acknowledged config id view) (orderly : view.Orderly)
    (here : view.running index = some call)
    (records : ∀ written, verb = .recordChunk id written →
      ∃ sequence chunk, call = .writeChunk id sequence chunk) :
    Acknowledged config id (view.perform index verb reply after) := by
  have grown : view.history <+: (view.perform index verb reply after).history :=
    prefix_append _ _
  refine ⟨fun other done => ?_, fun other sequence chunk outcome returned => ?_,
    fun other address outcome returned => ?_⟩
  · obtain ⟨written, performed⟩ := done
    rcases mem_snoc.mp performed with prior | ⟨⟨⟩⟩
    · rcases acknowledged.ended other ⟨written, prior⟩ with running | stopped | returned
      · exact .inl running
      · exact .inr (.inl (grown.subset stopped))
      · obtain ⟨sequence, chunk, outcome, returned⟩ := returned
        exact .inr (.inr ⟨sequence, chunk, outcome, grown.subset returned⟩)
    · obtain ⟨sequence, chunk, rfl⟩ := records written rfl
      exact .inl ⟨sequence, chunk, here⟩
  · rcases mem_snoc.mp returned with prior | ⟨⟨⟩⟩
    exact .later (acknowledged.told other sequence chunk outcome prior) grown
  · rcases mem_snoc.mp returned with prior | ⟨⟨⟩⟩
    exact .later (acknowledged.stored other address outcome prior) grown
      (le_of_lt (orderly.past _ prior))

theorem Acknowledged.aside {later : Seen crypto}
    (acknowledged : Acknowledged config id view) (orderly : view.Orderly)
    (appended : later.history = view.history ++ more)
    (unperformed : ∀ other verb reply, .performed other verb reply ∉ more)
    (ended : ∀ other sequence chunk, Recorded id view other →
      view.running other = some (.writeChunk id sequence chunk) →
      later.running other = some (.writeChunk id sequence chunk) ∨
      .stopped other ∈ more ∨ ∃ outcome,
        .returned other (.writeChunk id sequence chunk) (.ok outcome) ∈ more)
    (promised : ∀ index call answer, .returned index call answer ∈ more →
      index < view.fresh ∧ UploadPromise config id index call answer view) :
    Acknowledged config id later := by
  have grown : view.history <+: later.history := appended ▸ prefix_append _ _
  refine ⟨fun other done => ?_, fun other sequence chunk outcome returned => ?_,
    fun other address outcome returned => ?_⟩
  · have done : Recorded id view other := by
      obtain ⟨written, performed⟩ := done
      exact ⟨written, performed_of_aside appended unperformed performed⟩
    rcases acknowledged.ended other done with ⟨sequence, chunk, here⟩ | stopped | returned
    · rcases ended other sequence chunk done here with still | stopped | ⟨outcome, returned⟩
      · exact .inl ⟨sequence, chunk, still⟩
      · exact .inr (.inl (appended ▸ mem_append_right _ stopped))
      · exact .inr (.inr ⟨sequence, chunk, outcome, appended ▸ mem_append_right _ returned⟩)
    · exact .inr (.inl (grown.subset stopped))
    · obtain ⟨sequence, chunk, outcome, returned⟩ := returned
      exact .inr (.inr ⟨sequence, chunk, outcome, grown.subset returned⟩)
  · rw [appended] at returned
    rcases mem_append.mp returned with prior | last
    · exact .later (acknowledged.told other sequence chunk outcome prior) grown
    · exact .later (((promised _ _ _ last).2.1 sequence chunk rfl).mp ⟨outcome, rfl⟩) grown
  · rw [appended] at returned
    rcases mem_append.mp returned with prior | last
    · exact .later (acknowledged.stored other address outcome prior) grown
        (le_of_lt (orderly.past _ prior))
    · obtain ⟨known, promise⟩ := promised _ _ _ last
      exact .later (promise.2 address outcome rfl rfl) grown (le_of_lt known)

theorem Counted.moved {later : Seen crypto}
    (counted : Counted config id view) (orderly : later.Orderly)
    (appended : later.history = view.history ++ more)
    (unlooked : ∀ other hit, .performed other (selectUpload id) (some hit) ∉ more)
    (unrecorded : ∀ other written, .performed other (recordChunk id written) () ∉ more)
    (running : ∀ other called, other < view.fresh → later.running other = some called →
      view.running other = some called)
    (minted : id ∈ later.state.minted)
    (data : later.state.uploadData id = view.state.uploadData id)
    (rows : later.state.upload id = view.state.upload id ∨ later.state.upload id = none)
    (acknowledged : Acknowledged config id later) : Counted config id later := by
  have grown : view.history <+: later.history := appended ▸ prefix_append _ _
  have selected : ∀ other hit, Selected id later other hit → Selected id view other hit := by
    intro other hit looked
    rw [Selected, appended, mem_append] at looked
    exact looked.resolve_right (unlooked other hit)
  have recorded : ∀ other, Recorded id later other → Recorded id view other := by
    rintro other ⟨written, hit⟩
    rw [appended, mem_append] at hit
    exact ⟨written, hit.resolve_right (unrecorded other written)⟩
  have writes : ∀ other hit, Writes id later other hit → Writes id view other hit := by
    rintro other hit ⟨⟨sequence, chunk, here⟩, looked, unrecorded⟩
    have looked := selected other hit looked
    exact ⟨⟨sequence, chunk, running other _ (counted.orderly.past _ looked) here⟩, looked,
      fun done => unrecorded (Recorded.later done grown)⟩
  have present : ∀ row, later.state.upload id = some row → view.state.upload id = some row := by
    intro row hit
    rcases rows with eq | gone
    · rw [← eq, hit]
    · rw [gone] at hit
      cases hit
  refine
    { orderly := orderly
      minted := minted
      alone := fun first second hit other one two =>
        counted.alone first second hit other (writes _ _ one) (writes _ _ two)
      held := fun other hit here => ?_
      long := fun other hit looked => data ▸ counted.long other hit (selected _ _ looked)
      ahead := fun other hit writer latest looked here =>
        counted.ahead other hit writer latest (selected _ _ looked) (writes _ _ here)
      below := fun other hit row looked there =>
        counted.below other hit row (selected _ _ looked) (present row there)
      tally := fun row there => ?_
      acknowledged := acknowledged }
  · rcases rows with eq | gone
    · rw [eq]
      exact counted.held other hit (writes _ _ here)
    · exact .inl gone
  · obtain ⟨calls, tally⟩ := counted.tally row (present row there)
    exact ⟨calls, tally.later grown recorded (by rw [data])⟩

theorem UploadRely.perform {reply : verb.Reply} (ne : other ≠ index)
    (data : ∀ hit, Writes id view other hit → after.uploadData id = view.state.uploadData id)
    (start : ∀ hit, Selected id view other hit → (after.uploadData id).take hit.row.written =
        (view.state.uploadData id).take hit.row.written) :
    UploadRely id other view (view.perform index verb reply after) where
  running := rfl
  own := own_perform ne
  grown := prefix_append _ _
  data := data
  start := start

/-- What one operation keeps: the invariant, and what others rely on. -/
def Tallies (config : BlobConfig crypto) (id : String) (view : Seen crypto) (index : Nat)
    (verb : Op crypto) (reply : verb.Reply) (after : Store crypto) : Prop :=
  Counted config id (view.perform index verb reply after) ∧
    ∀ other, other ≠ index → UploadRely id other view (view.perform index verb reply after)

/-- An operation that is neither a successful read of the row nor its update, and leaves the file
alone. -/
theorem Tallies.of_moved {reply : verb.Reply}
    (counted : Counted config id view) (here : view.running index = some call)
    (unlooked : ∀ hit, Moment.performed index verb reply ≠
      (.performed index (selectUpload id) (some hit) : Moment (signature crypto) Call Answer))
    (unrecorded : ∀ written, verb ≠ .recordChunk id written)
    (minted : id ∈ after.minted) (data : after.uploadData id = view.state.uploadData id)
    (rows : after.upload id = view.state.upload id ∨ after.upload id = none) :
    Tallies config id view index verb reply after := by
  refine ⟨counted.moved (counted.orderly.perform here verb reply after) rfl
    (fun other hit last => ?_) (fun other written last => ?_) (fun _ _ _ here => here)
    minted data rows (counted.acknowledged.perform counted.orderly here
      fun written eq => absurd eq (unrecorded written)), fun other ne =>
      .perform ne (fun _ _ => data) (fun _ _ => by rw [data])⟩
  · have eq := mem_singleton.mp last
    obtain rfl : other = index := congrArg Moment.index eq
    exact unlooked hit eq.symm
  · cases mem_singleton.mp last
    exact unrecorded written rfl

section

variable (choice : Choice crypto)
include choice

section

variable (counted : Counted config id view)
include counted

section

variable (here : view.running index = some call)
include here

theorem Tallies.of_spares {reply : verb.Reply} (spares : verb.spares id)
    (done : exec config view.state verb choice = some (reply, after)) :
    Tallies config id view index verb reply after := by
  obtain ⟨minted, data, rows⟩ := (exec_frame done).upload id spares counted.minted
  refine .of_moved counted here (fun hit eq => ?_) (fun written eq => ?_) minted data rows
  · cases eq
    exact spares rfl
  · subst eq
    exact spares rfl

theorem Tallies.select {hit : Option FoundUpload}
    (careful : WritesInTurn id view index (.selectUpload id : Op crypto))
    (done : exec config view.state (.selectUpload id) choice = some (hit, after)) :
    Tallies config id view index (.selectUpload id) hit after := by
  obtain ⟨foundIs, rfl⟩ := mk.inj (some.inj done)
  cases hit with
  | none => exact .of_moved counted here nofun nofun counted.minted rfl (.inl rfl)
  | some hit =>
    obtain ⟨row, there, foundIs⟩ := map_eq_some_iff.mp foundIs
    obtain rfl : hit.row = row := by rw [← foundIs]
    set later := view.perform index (.selectUpload id) (some hit) view.state
    have grown : view.history <+: later.history := prefix_append _ _
    have selected : ∀ other latest, Selected id later other latest →
        Selected id view other latest ∨ other = index ∧ latest = hit := by
      intro other latest looked
      rcases mem_snoc.mp looked with prior | ⟨⟨⟩⟩
      · exact .inl prior
      · exact .inr ⟨rfl, rfl⟩
    have writes : ∀ other latest, Writes id later other latest →
        Writes id view other latest ∨ other = index ∧ latest = hit := by
      rintro other latest ⟨running, looked, unrecorded⟩
      rcases selected other latest looked with prior | last
      · exact .inl ⟨running, prior, fun done => unrecorded (.later done grown)⟩
      · exact .inr last
    -- whoever writes now has the row that was found
    have current : ∀ other latest, Writes id later other latest → latest.row = hit.row := by
      intro other latest here
      rcases writes other latest here with prior | ⟨-, rfl⟩
      · rcases counted.held other latest prior with gone | eq
        · rw [there] at gone
          cases gone
        · exact some.inj (eq.symm.trans there)
      · rfl
    obtain ⟨calls, tally⟩ := counted.tally hit.row there
    refine ⟨{ orderly := counted.orderly.perform here _ _ _, minted := counted.minted,
              alone := ?_
              held := fun other latest here => .inr (current other latest here ▸ there)
              long := fun other latest looked => ?_
              ahead := fun other latest writer now looked here => ?_
              below := fun other latest row looked present => ?_
              tally := fun row present => ?_
              acknowledged := counted.acknowledged.perform counted.orderly here nofun },
      fun other ne => .perform ne (fun _ _ => rfl) (fun _ _ => rfl)⟩
    · intro first second latest now one two
      -- a writer that has just looked is alone by its guard
      have others : ∀ other latest, Writes id view other latest → Writes id later index hit →
          other = index := by
        intro other latest writer new
        by_contra ne
        exact careful rfl new.running other ne latest writer
      rcases writes _ _ one with early | ⟨rfl, rfl⟩
      · rcases writes _ _ two with late | ⟨rfl, rfl⟩
        · exact counted.alone first second latest now early late
        · exact others first latest early two
      · rcases writes _ _ two with late | ⟨rfl, rfl⟩
        · exact (others second now late one).symm
        · rfl
    · rcases selected other latest looked with prior | ⟨-, rfl⟩
      · exact counted.long other latest prior
      · exact tally.enough
    · rw [current writer now here]
      rcases selected other latest looked with prior | ⟨-, rfl⟩
      · exact counted.below other latest hit.row prior there
      · exact le_refl _
    · obtain rfl : hit.row = row := some.inj (there.symm.trans present)
      rcases selected other latest looked with prior | ⟨-, rfl⟩
      · exact counted.below other latest hit.row prior there
      · exact le_refl _
    · obtain ⟨calls, tally⟩ := counted.tally row present
      exact ⟨calls, tally.later grown (fun _ done => done.of_perform nofun) rfl⟩

theorem Tallies.write {chunk : Bytes} {reply : Unit} (writes : Writes id view index hit)
    (done : exec config view.state (.writeUploadFile id hit.row.written chunk) choice =
      some (reply, after)) :
    Tallies config id view index (.writeUploadFile id hit.row.written chunk) reply after := by
  have enough := counted.long index hit writes.looked
  obtain ⟨minted, rows, data⟩ : after.minted = view.state.minted ∧
      after.upload id = view.state.upload id ∧
      after.uploadData id = writeAt (view.state.uploadData id) hit.row.written chunk := by
    obtain ⟨-, rfl⟩ := mk.inj (some.inj done)
    exact ⟨rfl, rfl, update_self ..⟩
  -- what anybody has read as written lies before the offset
  have start : ∀ other prior, Selected id view other prior →
      (after.uploadData id).take prior.row.written =
        (view.state.uploadData id).take prior.row.written := by
    intro other prior looked
    rw [data]
    exact take_writeAt (counted.ahead other prior index hit looked writes)
      (counted.long other prior looked)
  refine ⟨{ orderly := counted.orderly.perform here _ _ _
            minted := minted ▸ counted.minted
            alone := fun first second one two early late =>
              counted.alone first second one two (early.of_perform nofun) (late.of_perform nofun)
            held := fun other latest writer =>
              rows ▸ counted.held other latest (writer.of_perform nofun)
            long := fun other prior looked => ?_
            ahead := fun other prior writer latest looked writing =>
              counted.ahead other prior writer latest (looked.of_perform nofun)
                (writing.of_perform nofun)
            below := fun other prior row looked present =>
              counted.below other prior row (looked.of_perform nofun) (rows ▸ present)
            tally := fun row present => ?_
            acknowledged := counted.acknowledged.perform counted.orderly here nofun },
    fun other ne => .perform ne (fun latest writer => ?_) (start other)⟩
  · refine le_trans (counted.long other prior (looked.of_perform nofun)) ?_
    change _ ≤ (after.uploadData id).length
    rw [data]
    exact le_length_writeAt
  · replace present : view.state.upload id = some row := rows ▸ present
    obtain ⟨calls, tally⟩ := counted.tally row present
    refine ⟨calls, tally.later (prefix_append _ _) (fun _ done => done.of_perform nofun) ?_⟩
    rcases counted.held index hit writes with gone | eq
    · rw [gone] at present
      cases present
    · obtain rfl : hit.row = row := some.inj (eq.symm.trans present)
      exact start index hit writes.looked
  · exact absurd (counted.alone other index latest hit writer writes) ne

end

theorem Tallies.record {chunk : Bytes} {reply : Unit}
    (here : view.running index = some (.writeChunk id hit.row.nextChunk chunk))
    (writes : Writes id view index hit)
    (fits : hit.row.written + chunk.length ≤ hit.row.byteSize)
    (staged : (view.state.uploadData id).take (hit.row.written + chunk.length) =
      (view.state.uploadData id).take hit.row.written ++ chunk)
    (done : exec config view.state (.recordChunk id (hit.row.written + chunk.length)) choice =
      some (reply, after)) :
    Tallies config id view index (.recordChunk id (hit.row.written + chunk.length)) reply
      after := by
  set later := view.perform index (.recordChunk id (hit.row.written + chunk.length)) reply after
  obtain ⟨minted, data, rows⟩ : after.minted = view.state.minted ∧
      after.uploadData = view.state.uploadData ∧ (after.upload id = none ∨
        view.state.upload id = some hit.row ∧ after.upload id = some { hit.row with
          written := hit.row.written + chunk.length
          nextChunk := hit.row.nextChunk + 1 }) := by
    rcases exec_recordChunk done with ⟨gone, rfl⟩ | ⟨row, present, rfl⟩
    · exact ⟨rfl, rfl, .inl gone⟩
    · refine ⟨rfl, rfl, .inr ?_⟩
      rcases counted.held index hit writes with gone | eq
      · rw [gone] at present
        cases present
      · obtain rfl : hit.row = row := some.inj (eq.symm.trans present)
        exact ⟨present, by rw [Store.upload_putUpload, if_pos rfl]⟩
  have grown : view.history <+: later.history := prefix_append _ _
  have own : Recorded id later index := ⟨_, mem_concat_self⟩
  -- the one writer has recorded, so nobody writes now
  have nobody : ∀ other latest, ¬ Writes id later other latest := by
    intro other latest writer
    have eq := counted.alone other index latest hit (writer.of_perform nofun) writes
    exact writer.unrecorded (eq ▸ own)
  refine ⟨{ orderly := counted.orderly.perform here _ _ _
            minted := minted ▸ counted.minted
            alone := fun first _ one _ writer _ => absurd writer (nobody first one)
            held := fun other latest writer => absurd writer (nobody other latest)
            long := fun other prior looked =>
              data ▸ counted.long other prior (looked.of_perform nofun)
            ahead := fun _ _ writer latest _ writing => absurd writing (nobody writer latest)
            below := fun other prior row looked present => ?_
            tally := fun row present => ?_
            acknowledged := counted.acknowledged.perform counted.orderly here
              fun _ _ => ⟨_, _, rfl⟩ },
    fun other ne => .perform ne (fun _ _ => by rw [data]) (fun _ _ => by rw [data])⟩
  · have ahead := counted.ahead other prior index hit (looked.of_perform nofun) writes
    rcases rows with gone | ⟨-, updated⟩
    · cases gone.symm.trans present
    · cases updated.symm.trans present
      exact le_trans ahead (le_add_right _ _)
  · rcases rows with gone | ⟨before, updated⟩
    · cases gone.symm.trans present
    cases updated.symm.trans present
    obtain ⟨calls, tally⟩ := counted.tally hit.row before
    refine ⟨calls ++ [(index, chunk)], ?_⟩
    have bytes : (calls ++ [(index, chunk)]).flatMap snd = calls.flatMap snd ++ chunk := by
      rw [flatMap_append, flatMap_singleton]
    refine ⟨?_, fun sequence other piece position => ?_, fun other done => ?_, ?_, fits, ?_⟩
    · rw [length_append, tally.count]
      rfl
    · rcases lt_or_ge sequence calls.length with inside | outside
      · rw [getElem?_append_left inside] at position
        exact ⟨grown.subset (tally.issued sequence other piece position).1,
          .later (tally.issued sequence other piece position).2 grown⟩
      · -- the new chunk stands at the number the row expected
        rw [getElem?_append_right outside, getElem?_singleton] at position
        obtain ⟨last, eq⟩ := ite_none_right_eq_some.mp position
        cases eq
        have number : sequence = hit.row.nextChunk := by
          rw [← tally.count]
          omega
        exact ⟨number ▸ grown.subset (counted.orderly.issued _ _ here), own⟩
    · obtain ⟨written, performed⟩ := done
      rcases mem_snoc.mp performed with prior | ⟨⟨⟩⟩
      · obtain ⟨sequence, piece, position⟩ := tally.complete other ⟨written, prior⟩
        refine ⟨sequence, piece, ?_⟩
        rw [getElem?_append_left (List.getElem?_eq_some_iff.mp position).1, position]
      · exact ⟨calls.length, chunk, getElem?_concat_length⟩
    · rw [bytes, length_append, ← tally.written]
    · change (after.uploadData id).take (hit.row.written + chunk.length) = _
      rw [data, bytes, staged, tally.staged]

end

end

end Steps

/-! ## The calls -/

section Calls

variable {crypto : Crypto} {config : BlobConfig crypto} {id mediaType : String} {view : Seen crypto}
  {index sequence byteSize other : Nat} {call : Call} {Result : Type}
  {program : Program (signature crypto) Result} {verb : Op crypto}
  {rest : verb.Reply → Action crypto Result}
  {post : Except BlobError Result → Seen crypto → Prop} {chunk : Bytes} {address : BlobAddress}
  {calls : List (Nat × Bytes)} {duplicate inserted : Bool} {row : UploadRow}

/-- What the program of a call ensures under the discipline of uploads: its promise. -/
abbrev UploadEnsures (config : BlobConfig crypto) (id : String) (index : Nat) (call : Call)
    (program : Program (signature crypto) Answer) (view : Seen crypto) : Prop :=
  program.Ensures (uploadDiscipline config id) (system config) index call
    (UploadPromise config id index call) view

/-- A program that does not concern the upload, with a fact that a longer history does not take
away. -/
theorem ensures_sparing (only : program.Only (spares id)) (fact : Seen crypto → Prop)
    (stable : ∀ view later : Seen crypto, view.history <+: later.history → fact view → fact later)
    (holds : fact view) :
    program.Ensures (uploadDiscipline config id) (system config) index call (fun _ => fact)
      view := by
  refine Program.Only.ensures fact ?_ (fun _ _ relied => stable _ _ (UploadRely.grown relied))
    only holds
  intro view verb choice reply after spares counted here _ known done
  obtain ⟨kept, others⟩ := Tallies.of_spares choice counted here spares done
  exact ⟨kept, others, stable _ _ (prefix_append _ _) known⟩

theorem ensures_spare (spares : verb.spares id)
    (continues : ∀ later reply after choice, UploadRely id index view later →
      Counted config id later → exec config later.state verb choice = some (reply, after) →
      Fallible.Ensures (uploadDiscipline config id) (system config) index call (rest reply) post
      (later.perform index verb reply after)) :
    Fallible.Ensures (uploadDiscipline config id) (system config) index call
      (op verb >>= rest) post view := by
  refine ensures_op fun later relied counted here _ choice reply after done => ?_
  obtain ⟨kept, others⟩ := Tallies.of_spares choice counted here spares done
  exact ⟨kept, others, continues later reply after choice relied counted done⟩

theorem UploadPromise.of_other {answer : Answer}
    (notWrite : ∀ sequence chunk, call ≠ .writeChunk id sequence chunk)
    (notCommit : ∀ address, call ≠ .commit id address) :
    UploadPromise config id index call answer view :=
  ⟨fun sequence chunk eq => absurd eq (notWrite sequence chunk),
    fun address _ eq => absurd eq (notCommit address)⟩

section

variable (notBegin : ∀ mediaType byteSize, call ≠ .begin mediaType byteSize)
include notBegin

section

variable (notWrite : ∀ sequence chunk, call ≠ .writeChunk id sequence chunk)
include notWrite

theorem spares_of_may
    (notCommit : ∀ address, call ≠ .commit id address) (may : call.may verb) :
    verb.spares id := by
  cases verb with
  | selectUpload other =>
    rintro rfl
    rcases may with ⟨sequence, chunk, eq⟩ | ⟨address, eq⟩
    · exact notWrite sequence chunk eq
    · exact notCommit address eq
  | insertUpload | createUploadFile =>
    obtain ⟨mediaType, byteSize, eq⟩ := may
    exact absurd eq (notBegin mediaType byteSize)
  | writeUploadFile | recordChunk =>
    rintro rfl
    obtain ⟨sequence, chunk, eq⟩ := may
    exact notWrite sequence chunk eq
  | _ => exact trivial

theorem ensures_unconcerned (notCommit : ∀ address, call ≠ .commit id address) :
    UploadEnsures config id index call (code config call) view :=
  (ensures_sparing ((may_code config call).mono fun _ => spares_of_may notBegin notWrite notCommit)
    (fun _ => True) (fun _ _ _ _ => trivial) trivial).mono fun _ _ _ _ _ =>
      .of_other notWrite notCommit

end

end

theorem spares_of_any (only : program.Only Call.sweep.may) : program.Only (spares id) :=
  only.mono fun _ => spares_of_may nofun nofun nofun

theorem ensures_begin : UploadEnsures config id index (.begin mediaType byteSize)
      (code config (.begin mediaType byteSize)) view := by
  have promise : ∀ answer (last : Seen crypto),
      UploadPromise config id index (.begin mediaType byteSize) answer last :=
    fun _ _ => .of_other nofun nofun
  simp only [code, begin, Fallible.bind_assoc]
  refine ensures_check (fun _ _ _ _ _ => promise _ _) fun _ =>
    ensures_check (fun _ _ _ _ _ => promise _ _) fun _ => ensures_bind
      (mono (ensures_sparing (spares_of_any may_expireUploads) (fun _ => True)
        (fun _ _ _ _ => trivial) trivial) fun _ _ _ _ _ =>
          ⟨fun _ _ => ?_, fun _ _ _ _ _ _ => promise _ _⟩)
  refine ensures_spare (by exact trivial) fun later minted after choice _ counted done => ?_
  have ne : minted ≠ id := by
    rintro rfl
    exact (exec_generateId done).1 counted.minted
  refine mono (ensures_sparing ?_ (fun _ => True) (fun _ _ _ _ => trivial) trivial)
    fun _ _ _ _ _ => promise _ _
  exact only_bind (only_op ne) fun _ => only_bind trivial fun _ =>
    only_bind (only_op ne) fun _ => trivial

/-! ### Chunk writes -/

section WriteChunk

theorem write_fails (unrecorded : ¬ Recorded id view index) (error : BlobError) :
    UploadEnsures config id index (.writeChunk id sequence chunk) (lift (.error error)) view := by
  intro last relied _ _
  refine ⟨fun _ _ _ => ⟨fun succeeded => ?_, fun recorded => ?_⟩, nofun⟩
  · obtain ⟨outcome, eq⟩ := succeeded
    cases eq
  · obtain ⟨written, performed⟩ := recorded
    exact absurd ⟨written, (relied.own _ _).mp performed⟩ unrecorded

theorem ensures_put {hit : FoundUpload} (writes : Writes id view index hit)
    (fits : hit.row.written + chunk.length ≤ hit.row.byteSize) :
    UploadEnsures config id index (.writeChunk id hit.row.nextChunk chunk)
      (do
        let opened : Bool ← op (.openUploadFile id)
        check opened (.storage "open upload file")
        op (.writeUploadFile id hit.row.written chunk)
        op (.recordChunk id (hit.row.written + chunk.length))
        return done : Action crypto Outcome)
      view := by
  refine ensures_spare (by exact trivial) fun later opened after choice relied counted done => ?_
  have writes : Writes id (later.perform index (.openUploadFile id) opened after) index hit :=
    (relied.writes.mpr writes).perform nofun
  refine ensures_check (fun _ => write_fails writes.unrecorded _) fun _ => ?_
  refine ensures_op fun writing relied counted here _ choice reply after done => ?_
  replace done : exec config writing.state (.writeUploadFile id hit.row.written chunk) choice =
    some (reply, after) := done
  have writes := relied.writes.mpr writes
  obtain ⟨kept, others⟩ := Tallies.write choice counted here writes done
  refine ⟨kept, others, ?_⟩
  have staged : (after.uploadData id).take (hit.row.written + chunk.length) =
      (after.uploadData id).take hit.row.written ++ chunk := by
    have enough := counted.long index hit writes.looked
    obtain ⟨-, rfl⟩ := mk.inj (some.inj done)
    dsimp only
    rw [update_self, take_writeAt_end enough, take_writeAt (le_refl _) enough]
  have writes : Writes id (writing.perform index (.writeUploadFile id hit.row.written chunk)
      reply after) index hit :=
    writes.perform nofun
  refine ensures_op fun recording relied counted here _ choice reply last done => ?_
  replace done : exec config recording.state
    (.recordChunk id (hit.row.written + chunk.length)) choice = some (reply, last) := done
  have still := relied.data hit writes
  obtain ⟨kept, others⟩ := Tallies.record choice counted here (relied.writes.mpr writes) fits
    (still ▸ staged) done
  refine ⟨kept, others, fun final relied _ _ => ⟨fun _ _ _ => ?_, nofun⟩⟩
  exact ⟨fun _ => ⟨_, (relied.own _ _).mpr mem_concat_self⟩, fun _ => ⟨_, rfl⟩⟩

theorem ensures_writeChunk
    (begun : ∀ verb reply, .performed index verb reply ∉ view.history) :
    UploadEnsures config id index (.writeChunk id sequence chunk)
      (code config (.writeChunk id sequence chunk)) view := by
  have unrecorded : ¬ Recorded id view index := by
    rintro ⟨_, performed⟩
    exact begun _ _ performed
  simp only [code, writeChunk, uploadId, Fallible.bind_assoc]
  refine ensures_check (fun _ => write_fails unrecorded _) fun _ => ?_
  refine ensures_op fun later relied counted here careful choice hit after done => ?_
  obtain ⟨kept, others⟩ := Tallies.select choice counted here careful done
  refine ⟨kept, others, ?_⟩
  have unrecorded : ¬ Recorded id (later.perform index (.selectUpload id) hit after) index := by
    intro done
    obtain ⟨written, performed⟩ := done.of_perform (by simp)
    exact unrecorded ⟨written, (relied.own _ _).mp performed⟩
  have failed : ∀ error, UploadEnsures config id index (.writeChunk id sequence chunk)
      (Fallible.lift (.error error)) (later.perform index (.selectUpload id) hit after) :=
    write_fails unrecorded
  refine ensures_need (fun _ => failed _) fun hit isFound => ?_
  subst isFound
  refine ensures_check (fun _ => failed _) fun _ => ?_
  refine ensures_check (fun _ => failed _) fun number => ?_
  refine ensures_check (fun _ => failed _) fun _ => ?_
  refine ensures_check (fun _ => failed _) fun _ => ?_
  refine ensures_check (fun _ => failed _) fun fits => ?_
  subst number
  exact ensures_put ⟨⟨_, _, here⟩, mem_concat_self, unrecorded⟩ fits

end WriteChunk

/-! ### Commits -/

section Commit

theorem commit_promises_nothing (error : BlobError) :
    UploadEnsures config id index (.commit id address) (lift (.error error)) view :=
  fun _ _ _ _ => ⟨nofun, nofun⟩

theorem ensures_answer {descriptor : BlobDescriptor}
    (stores : Stores config id view index address (.committed descriptor duplicate))
    (known : index ≤ view.history.length) :
    UploadEnsures config id index (.commit id address)
      (pure (committed descriptor duplicate) : Action crypto Outcome) view := by
  intro last relied _ _
  refine ⟨nofun, fun other outcome eq answered => ?_⟩
  cases eq
  cases answered
  exact stores.later relied.grown known

theorem ensures_onward {stores : Seen crypto → Prop} (spares : verb.spares id)
    (stable : ∀ view later : Seen crypto, view.history <+: later.history →
      index ≤ view.history.length → stores view → stores later)
    (known : index ≤ view.history.length) (holds : stores view)
    (continues : ∀ later reply, index ≤ later.history.length → stores later →
      .performed index verb reply ∈ later.history →
      Fallible.Ensures (uploadDiscipline config id) (system config) index call (rest reply) post
      later) :
    Fallible.Ensures (uploadDiscipline config id) (system config) index call
      (op verb >>= rest) post view := by
  refine ensures_spare spares fun later reply after _ relied _ _ => ?_
  have grown : view.history <+: (later.perform index verb reply after).history :=
    relied.grown.trans (prefix_append _ _)
  exact continues _ reply (known.trans grown.length_le) (stable _ _ grown known holds)
    mem_concat_self

theorem stable_stores (view later : Seen crypto)
    (grown : view.history <+: later.history) (known : index ≤ view.history.length)
    (stores : ∀ descriptor, Stores config id view index address (.committed descriptor duplicate))
    (descriptor : BlobDescriptor) :
    Stores config id later index address (.committed descriptor duplicate) :=
  (stores descriptor).later grown known

section

variable (known : index ≤ view.history.length)
include known

theorem ensures_commitStored {existing : FoundBlob crypto}
    (stores : ∀ descriptor, Stores config id view index address (.committed descriptor true)) :
    UploadEnsures config id index (.commit id address)
      (commitExisting id address mediaType existing >>= fun stored =>
        pure (committed stored.1 stored.2) : Action crypto Outcome) view := by
  simp only [commitExisting, discardUploadFiles, Fallible.bind_assoc]
  iterate 3
    refine ensures_onward (by exact trivial) stable_stores known stores fun _ _ known stores _ => ?_
  refine ensures_check (fun _ => commit_promises_nothing _) fun _ => ?_
  refine ensures_check (fun _ => commit_promises_nothing _) fun _ => ?_
  exact ensures_answer (stores _) known

theorem ensures_commitClosed (stores : ∀ descriptor, Stores config id view index address
      (.committed descriptor (!inserted))) :
    UploadEnsures config id index (.commit id address)
      (closeCommit id address inserted >>= fun stored =>
        pure (committed stored.1 stored.2) : Action crypto Outcome) view := by
  simp only [closeCommit, discardUploadFiles, Fallible.bind_assoc]
  iterate 4
    refine ensures_onward (by exact trivial) stable_stores known stores fun _ _ known stores _ => ?_
  refine ensures_need (fun _ => commit_promises_nothing _) fun stored _ => ?_
  exact ensures_answer (stores _) known

theorem ensures_commitSealed (gathers : Gathers id view index calls)
    (hashed : addressOf (crypto.sha256 (calls.flatMap snd)) = address) :
    UploadEnsures config id index (.commit id address)
      (commitNew config id address row (calls.flatMap snd) >>= fun stored =>
        pure (committed stored.1 stored.2) : Action crypto Outcome) view := by
  -- what the commit gathered, and what it has done so far
  have stable : ∀ (journal : List (Moment (signature crypto) Call Answer))
      (view later : Seen crypto), view.history <+: later.history → index ≤ view.history.length →
      Gathers id view index calls ∧ journal ⊆ view.history →
      Gathers id later index calls ∧ journal ⊆ later.history :=
    fun _ _ _ grown known noted =>
      ⟨noted.1.later grown known, fun _ mem => grown.subset (noted.2 mem)⟩
  simp only [commitNew, recordBlob, Fallible.bind_assoc]
  refine ensures_onward (by exact trivial) (stable []) known ⟨gathers, nil_subset _⟩
    fun _ secrets known noted drawn => ?_
  have noted := And.intro noted.1 (cons_subset.mpr ⟨drawn, noted.2⟩)
  refine ensures_lift (fun error _ => commit_promises_nothing error) fun sealed isSealed => ?_
  refine ensures_onward (by exact trivial) (stable _) known noted fun _ _ known noted staged => ?_
  have noted := And.intro noted.1 (cons_subset.mpr ⟨staged, noted.2⟩)
  refine ensures_onward (by exact trivial) (stable _) known noted
    fun _ renamed known noted moved => ?_
  refine ensures_check (fun _ => commit_promises_nothing _) fun isRenamed => ?_
  subst isRenamed
  have noted := And.intro noted.1 (cons_subset.mpr ⟨moved, noted.2⟩)
  refine ensures_onward (by exact trivial) (stable _) known noted
    fun last inserted known noted entered => ?_
  refine ensures_commitClosed known fun descriptor => ⟨calls, noted.1, hashed, fun _ new => ?_⟩
  obtain rfl : inserted = true := by
    cases inserted with
    | true => rfl
    | false => cases new
  obtain ⟨moved, staged, drawn, -⟩ : _ ∈ last.history ∧ _ ∈ last.history ∧ _ ∈ last.history ∧
      [] ⊆ last.history := by
    simpa only [cons_subset] using noted.2
  exact ⟨row.mediaType, row.byteSize, secrets, sealed, isSealed, drawn, staged, moved, entered⟩

end

theorem Tally.gathers (tally : Tally id view row calls)
    (counted : Counted config id view) : Gathers id view index calls := by
  refine ⟨fun sequence other chunk hit => (tally.issued sequence other chunk hit).1,
    fun sequence other chunk outcome returned => ?_⟩
  have returned := mem_of_mem_take returned
  have recorded := counted.acknowledged.told other sequence chunk outcome returned
  obtain ⟨position, piece, hit⟩ := tally.complete other recorded
  have eq := counted.orderly.called_once (tally.issued position other piece hit).1
    (counted.orderly.answered _ _ _ returned)
  cases eq
  exact hit

theorem ensures_commitCounted (known : index ≤ view.history.length) :
    UploadEnsures config id index (.commit id address) (code config (.commit id address)) view := by
  simp only [code, commit, uploadId, Fallible.bind_assoc]
  refine ensures_check (fun _ => commit_promises_nothing _) fun _ => ?_
  refine ensures_op fun later relied counted here careful choice hit after done => ?_
  obtain ⟨kept, others⟩ := Tallies.select choice counted here careful done
  refine ⟨kept, others, ?_⟩
  obtain ⟨foundIs, rfl⟩ := mk.inj (some.inj done)
  have known := known.trans (relied.grown.trans (prefix_append _
    [.performed index (selectUpload id) hit])).length_le
  refine ensures_need (fun _ => commit_promises_nothing _) fun hit isFound => ?_
  subst isFound
  obtain ⟨row, present, rfl⟩ := map_eq_some_iff.mp foundIs
  obtain ⟨calls, tally⟩ := counted.tally row present
  have gathers : Gathers id (later.perform index (.selectUpload id)
      (some ⟨row, later.state.expired row⟩) later.state) index calls :=
    .later (tally.gathers counted) (prefix_append _ _) (le_of_lt (counted.orderly.before here))
  have looked : Selected id (later.perform index (.selectUpload id)
      (some ⟨row, later.state.expired row⟩) later.state) index ⟨row, later.state.expired row⟩ :=
    mem_concat_self
  have staged : ((later.perform index (.selectUpload id) (some ⟨row, later.state.expired row⟩)
      later.state).state.uploadData id).take row.written = calls.flatMap snd :=
    tally.staged
  refine ensures_check (fun _ => commit_promises_nothing _) fun _ => ?_
  refine ensures_check (fun _ => commit_promises_nothing _) fun _ => ?_
  refine ensures_spare (by exact trivial) fun opening opened after _ relied _ done => ?_
  obtain ⟨-, rfl⟩ := mk.inj (some.inj done)
  replace staged : (opening.state.uploadData id).take row.written = calls.flatMap snd :=
    (relied.start _ looked).trans staged
  have grown := relied.grown.trans (prefix_append _ [.performed index (openUploadFile id) opened])
  have gathers : Gathers id (opening.perform index (.openUploadFile id) opened opening.state) index
      calls := gathers.later grown known
  have known := known.trans grown.length_le
  have looked := mem_append_left [.performed index (openUploadFile id) opened]
    ((relied.own _ _).mpr looked)
  refine ensures_check (fun _ => commit_promises_nothing _) fun _ => ?_
  refine ensures_spare (by exact trivial) fun reading content after _ relied _ done => ?_
  have grown := relied.grown.trans (prefix_append _
    [.performed index (readUploadFile id row.written) content])
  have gathers : Gathers id (reading.perform index (.readUploadFile id row.written) content after)
      index calls := gathers.later grown known
  have known := known.trans grown.length_le
  refine ensures_need (fun _ => commit_promises_nothing _) fun plaintext isRead => ?_
  subst isRead
  obtain ⟨plaintextIs, -⟩ := exec_readUploadFile done
  rw [relied.start _ looked] at plaintextIs
  obtain rfl : plaintext = calls.flatMap snd := plaintextIs.trans staged
  refine ensures_check (fun _ => commit_promises_nothing _) fun hashed => ?_
  refine ensures_onward (by exact trivial)
    (fun _ _ grown known (gathers : Gathers id _ index calls) => gathers.later grown known) known
    gathers fun _ existing known gathers _ => ?_
  cases existing with
  | some existing => exact ensures_commitStored known fun _ =>
      ⟨calls, gathers, hashed, by simp⟩
  | none => exact ensures_commitSealed known gathers hashed

end Commit

/-! ### All calls -/

theorem UploadRely.aside {later : Seen crypto} {more : List (Moment (signature crypto) Call Answer)}
    (running : later.running other = view.running other)
    (appended : later.history = view.history ++ more)
    (unperformed : ∀ verb reply, .performed other verb reply ∉ more)
    (data : later.state.uploadData = view.state.uploadData) : UploadRely id other view later where
  running := running
  own verb reply := by
    rw [appended, mem_append]
    exact or_iff_left (unperformed verb reply)
  grown := appended ▸ prefix_append _ _
  data _ _ := by rw [data]
  start _ _ := by rw [data]

/-- **Every call keeps to the discipline of uploads.** -/
theorem uploads_upheld :
    (uploadDiscipline config id).Upheld (system config) (UploadPromise config id) where
  issue view call counted _ := by
    have acknowledged : Acknowledged config id (view.issue call) := by
      refine counted.acknowledged.aside counted.orderly rfl (fun _ _ _ => by simp)
        (fun other sequence chunk recorded here => .inl ?_) (fun _ _ _ => by simp)
      have old : other ≠ view.fresh := Nat.ne_of_lt (counted.orderly.before here)
      exact (update_of_ne old ..).trans here
    refine ⟨counted.moved (counted.orderly.issue call) rfl (fun _ _ => by simp)
      (fun _ _ => by simp) (fun _ _ => running_of_issue) counted.minted rfl (.inl rfl)
      acknowledged, fun other ne => ?_⟩
    exact .aside (update_of_ne ne ..) rfl (fun _ _ => by simp) rfl
  code view call counted _ := by
    have known : view.fresh ≤ (view.issue call).history.length := by
      simp [fresh, issue]
    cases call with
    | begin mediaType byteSize => exact ensures_begin
    | writeChunk other sequence chunk =>
      by_cases eq : other = id
      · subst eq
        exact ensures_writeChunk (counted.orderly.unperformed _)
      · refine ensures_unconcerned (by simp) (fun _ _ isSame => ?_) (by simp)
        cases isSame
        exact eq rfl
    | commit other address =>
      by_cases eq : other = id
      · subst eq
        exact ensures_commitCounted known
      · refine ensures_unconcerned (by simp) (by simp) fun _ isSame => ?_
        cases isSame
        exact eq rfl
    | _ =>
      exact ensures_unconcerned (by simp) (by simp) (by simp)
  finish view index call answer counted here promise := by
    have acknowledged : Acknowledged config id (view.finish index call answer) := by
      refine counted.acknowledged.aside counted.orderly rfl (fun _ _ _ => by simp)
        (fun other sequence chunk recorded running => ?_) (fun other called given last => ?_)
      · by_cases eq : other = index
        · subst eq
          obtain rfl : call = .writeChunk id sequence chunk :=
            some.inj (here.symm.trans running)
          obtain ⟨outcome, rfl⟩ := (promise.1 sequence chunk rfl).mpr recorded
          exact .inr (.inr ⟨outcome, mem_singleton_self _⟩)
        · exact .inl ((update_of_ne eq ..).trans running)
      · cases mem_singleton.mp last
        exact ⟨counted.orderly.before here, promise⟩
    refine ⟨counted.moved (counted.orderly.finish here answer) rfl (fun _ _ => by simp)
      (fun _ _ => by simp) (fun _ _ _ => running_of_ended) counted.minted rfl (.inl rfl)
      acknowledged, fun other ne => ?_⟩
    exact .aside (update_of_ne ne ..) rfl (fun _ _ => by simp) rfl
  stop view index call counted here := by
    have acknowledged : Acknowledged config id (view.stop index) := by
      refine counted.acknowledged.aside counted.orderly rfl (fun _ _ _ => by simp)
        (fun other sequence chunk recorded running => ?_) (fun _ _ _ => by simp)
      by_cases eq : other = index
      · exact .inr (.inl (eq ▸ mem_singleton_self _))
      · exact .inl ((update_of_ne eq ..).trans running)
    refine ⟨counted.moved (counted.orderly.stop here) rfl (fun _ _ => by simp)
      (fun _ _ => by simp) (fun _ _ _ => running_of_ended) counted.minted rfl (.inl rfl)
      acknowledged, fun other ne => ?_⟩
    exact .aside (update_of_ne ne ..) rfl (fun _ _ => by simp) rfl
  outside view event counted := by
    obtain ⟨minted, data, rows⟩ : (disturb view.state event).minted = view.state.minted ∧
        (disturb view.state event).uploadData = view.state.uploadData ∧
        (disturb view.state event).upload id = view.state.upload id := by
      cases event with
      | pass | refer => exact ⟨rfl, rfl, rfl⟩
    have acknowledged : Acknowledged config id (view.disturb (disturb view.state event)) :=
      counted.acknowledged.aside counted.orderly (append_nil _).symm (fun _ _ _ => by simp)
        (fun _ _ _ _ here => .inl here) (fun _ _ _ => by simp)
    refine ⟨counted.moved (counted.orderly.disturb _) (append_nil _).symm (fun _ _ => by simp)
      (fun _ _ => by simp) (fun _ _ _ here => here) (minted ▸ counted.minted)
      (congrFun data id) (.inl rows) acknowledged, fun other => ?_⟩
    exact .aside rfl (append_nil _).symm (fun _ _ => by simp) data

end Calls

/-! ## Runs -/

section Runs

variable {crypto : Crypto} {config : BlobConfig crypto} {id : String} {store : Store crypto}
  {acts : List (Act Call (Choice crypto) Outside)}
  {pool : Pool (signature crypto) (Store crypto) Call Answer}

/-- An upload that has begun and has nothing written. -/
structure Fresh (store : Store crypto) (id : String) : Prop where
  row : ∃ row, store.upload id = some row ∧ row.written = 0 ∧ row.nextChunk = 0
  minted : id ∈ store.minted

/-- A run in which every chunk write of the upload reads the row only while no other one is
between its read and its update. -/
abbrev WritingRun (config : BlobConfig crypto) (id : String) (store : Store crypto)
    (acts : List (Act Call (Choice crypto) Outside))
    (pool : Pool (signature crypto) (Store crypto) Call Answer) : Prop :=
  Run ((uploadDiscipline config id).Step (system config)) (.start store) acts pool

theorem counted_initially (fresh : Fresh store id) :
    Counted config id (start store : Seen crypto) where
  orderly := .start _
  minted := fresh.minted
  alone _ _ _ _ writes := nomatch writes.looked
  held _ _ writes := nomatch writes.looked
  long _ _ looked := nomatch looked
  ahead _ _ _ _ looked := nomatch looked
  below _ _ _ looked := nomatch looked
  tally row present := by
    obtain ⟨hit, there, written, next⟩ := fresh.row
    obtain rfl : hit = row := some.inj (there.symm.trans present)
    refine ⟨[], next.symm, nofun, fun _ recorded => ?_, written, by omega, ?_⟩
    · obtain ⟨_, performed⟩ := recorded
      cases performed
    · rw [written, take_zero]
      rfl
  acknowledged := by
    refine ⟨fun _ recorded => ?_, nofun, nofun⟩
    obtain ⟨_, performed⟩ := recorded
    cases performed

theorem WritingRun.counted (run : WritingRun config id store acts pool) (fresh : Fresh store id) :
    Counted config id pool.view :=
  (uploads_upheld.run (counted_initially fresh) run).invariant

def Op.selects : Op crypto → Bool
  | .selectUpload _ => true
  | _ => false

theorem writesInTurn_of_hasTurn {view : Seen crypto} {index : Nat} {verb : Op crypto}
    (turn : verb.selects = true → view.HasTurn Op.selects index) :
    WritesInTurn id view index verb := by
  rintro rfl - other ne hit ⟨⟨_, _, there⟩, looked, -⟩
  exact ne ((turn rfl).eq there looked rfl)

/-- **The bookkeeping of an upload is exact.**  In every run in which chunk writes of an upload
take turns: the chunk writes that succeeded have the sequence numbers below the row's next
chunk, one call for each number unless it is still under way or was given up; the row's written
bytes are theirs and fit the declared size; the file begins with them in order; and a commit that
succeeded is one of exactly such bytes. -/
theorem upload_exact (run : WritingRun config id store acts pool) (fresh : Fresh store id) :
    (∀ row, pool.view.state.upload id = some row → ∃ calls : List (Nat × Bytes),
      calls.length = row.nextChunk ∧
      (∀ (sequence index : Nat) (chunk : Bytes) (outcome : Outcome),
        Returned pool.view index (.writeChunk id sequence chunk) (.ok outcome) →
        calls[sequence]? = some (index, chunk)) ∧
      (∀ (sequence index : Nat) (chunk : Bytes), calls[sequence]? = some (index, chunk) →
        pool.view.running index = some (.writeChunk id sequence chunk) ∨
        .stopped index ∈ pool.view.history ∨ ∃ outcome,
          Returned pool.view index (.writeChunk id sequence chunk) (.ok outcome)) ∧
      row.written = (calls.map fun call => call.2.length).sum ∧ row.written ≤ row.byteSize ∧
      (pool.view.state.uploadData id).take row.written = calls.flatMap Prod.snd) ∧
    ∀ index address outcome, Returned pool.view index (.commit id address) (.ok outcome) →
      Stores config id pool.view index address outcome := by
  have counted := run.counted fresh
  refine ⟨fun row present => ?_, counted.acknowledged.stored⟩
  obtain ⟨calls, tally⟩ := counted.tally row present
  refine ⟨calls, tally.count, fun sequence index chunk outcome returned => ?_,
    fun sequence index chunk hit => ?_, ?_, tally.fits, tally.staged⟩
  · have recorded := counted.acknowledged.told index sequence chunk outcome returned
    obtain ⟨position, piece, hit⟩ := tally.complete index recorded
    have eq := counted.orderly.called_once (tally.issued position index piece hit).1
      (counted.orderly.answered _ _ _ returned)
    cases eq
    exact hit
  · obtain ⟨issued, recorded⟩ := tally.issued sequence index chunk hit
    rcases counted.acknowledged.ended index recorded with
      ⟨_, _, here⟩ | stopped | ⟨_, _, outcome, returned⟩
    · cases counted.orderly.called_once issued (counted.orderly.issued _ _ here)
      exact .inl here
    · exact .inr (.inl stopped)
    · cases counted.orderly.called_once issued (counted.orderly.answered _ _ _ returned)
      exact .inr (.inr ⟨outcome, returned⟩)
  · rw [tally.written, length_flatMap]

end Runs

namespace Sample

/-- Two overlapping chunk writes; the second reads the row when the first has ended. -/
def writesInTurn : Schedule :=
  [.issue (.writeChunk (upload 0) 0 [7])] ++ steps 0 2 ++
  [.issue (.writeChunk (upload 0) 0 [8])] ++ steps 0 2 ++ [.finish 0] ++ steps 3 1 ++ [.finish 3]

/-- Two chunk writes of the same sequence number that both read the row before either has
updated it. -/
def racingWrites : Schedule :=
  begins 0 0 ++
  [.issue (.writeChunk (upload 0) 0 [7]), .issue (.writeChunk (upload 0) 0 [8])] ++
  steps 6 1 ++ steps 7 1 ++ steps 6 3 ++ steps 7 3 ++ [.finish 6, .finish 7]

end Sample

open Sample in
theorem upload_exact_one : ∃ store : Store crypto, Fresh store (upload 0) ∧
    ∃ pool : Pool (signature crypto) (Store crypto) Call Answer,
    ∃ row, pool.view.state.upload (upload 0) = some row ∧ ∃ calls : List (Nat × Bytes),
      calls.length = row.nextChunk ∧
      (∀ (sequence index : Nat) (chunk : Bytes) (outcome : Outcome),
        Returned pool.view index (.writeChunk (upload 0) sequence chunk) (.ok outcome) →
        calls[sequence]? = some (index, chunk)) ∧
      (pool.view.state.uploadData (upload 0)).take row.written = calls.flatMap Prod.snd := by
  obtain ⟨begun, -, checked⟩ := Option.any_eq_true _ _ |>.mp
    (show (Pool.play (system Sample.config) (.start .initial) (begins 0 0)).any (fun begun =>
      (begun.view.state.upload (upload 0)).any (fun row =>
        decide (row.written = 0 ∧ row.nextChunk = 0)) &&
      decide (upload 0 ∈ begun.view.state.minted) &&
      (Pool.playIf (Pool.inTurn Op.selects) (system Sample.config) (.start begun.view.state)
        writesInTurn).any fun pool => (pool.view.state.upload (upload 0)).isSome) = true by decide +kernel)
  simp only [Bool.and_eq_true, decide_eq_true_eq] at checked
  obtain ⟨⟨empty, minted⟩, continued⟩ := checked
  obtain ⟨row, present, nothing⟩ := Option.any_eq_true _ _ |>.mp empty
  have fresh : Fresh begun.view.state (upload 0) :=
    ⟨⟨row, present, of_decide_eq_true nothing⟩, minted⟩
  obtain ⟨pool, played, still⟩ := Option.any_eq_true _ _ |>.mp continued
  obtain ⟨last, lastPresent⟩ := isSome_iff_exists.mp still
  have run : WritingRun Sample.config (upload 0) begun.view.state writesInTurn pool :=
    Discipline.run_of_inTurn (fun _ _ _ => writesInTurn_of_hasTurn) (fun _ _ => trivial) played
  obtain ⟨calls, count, acknowledged, -, -, -, staged⟩ :=
    (upload_exact run fresh).1 last lastPresent
  exact ⟨_, fresh, pool, last, lastPresent, calls, count, acknowledged, staged⟩

open Sample in
theorem racing_writes_both_succeed :
    ∃ pool, Pool.play (system Sample.config) (.start .initial) racingWrites = some pool ∧
      Returned pool.view 6 (.writeChunk (upload 0) 0 [7]) (.ok .done) ∧
      Returned pool.view 7 (.writeChunk (upload 0) 0 [8]) (.ok .done) ∧
      (pool.view.state.upload (upload 0)).map (fun row => (row.nextChunk, row.written)) =
        some (2, 1) := by
  obtain ⟨pool, played, checked⟩ := Option.any_eq_true _ _ |>.mp
    (show (Pool.play (system Sample.config) (.start .initial) racingWrites).any (fun pool => decide
      (Returned pool.view 6 (.writeChunk (upload 0) 0 [7]) (.ok .done) ∧
        Returned pool.view 7 (.writeChunk (upload 0) 0 [8]) (.ok .done) ∧
        (pool.view.state.upload (upload 0)).map (fun row => (row.nextChunk, row.written)) =
          some (2, 1))) = true by decide +kernel)
  exact ⟨pool, played, of_decide_eq_true checked⟩

end Gridwork.Blob
