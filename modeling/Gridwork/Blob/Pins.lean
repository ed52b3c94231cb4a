import Gridwork.Blob.Committed

/-!
# Pins

A pin is to protect its blob from sweeps and shreds until it is released.  Sweep and shred look
for pins in the statement that deletes or tombstones a row, but `pin` looks at the row in one
statement and inserts in another: a shred in between leaves a pin on a tombstone.

Where every pin is inserted on a row that is not tombstoned, and while no older release of the
same pin is still under way, a pin that was answered protects its blob in every state until a
release is issued, and every shred issued in that time is refused (`pin_protects`).
-/

namespace Gridwork.Blob

open Lib List Option View Store

/-! ## Guarded blobs -/

section Guarded

variable {crypto : Crypto} {config : BlobConfig crypto} {store after : Store crypto}
  {choice : Choice crypto} {address : BlobAddress} {evidence : String}

def Guarded (store : Store crypto) (address : BlobAddress) (evidence : String) : Prop :=
  (address, evidence) ∈ store.pins ∧ ∃ row, store.blob address = some row ∧ row.tombstoned = false

section

variable (guarded : Guarded store address evidence)
include guarded

theorem Guarded.of_same (pins : after.pins = store.pins) (blobs : after.blobs = store.blobs) :
    Guarded after address evidence := by
  obtain ⟨pinned, row, hit, live⟩ := guarded
  refine ⟨pins ▸ pinned, row, ?_, live⟩
  rw [blob, blobs]
  exact hit

theorem Guarded.pinned : store.pinned address = true :=
  List.any_eq_true.mpr ⟨_, guarded.1, beq_self_eq_true _⟩

theorem Guarded.not_unreferenced : store.unreferenced config address = false := by
  simp [unreferenced, guarded.pinned]

end

theorem Guarded.exec (verb : Op crypto) {reply : verb.Reply}
    (guarded : Guarded store address evidence) (keeps : verb ≠ .deletePin address evidence)
    (done : exec config store verb choice = some (reply, after)) :
    Guarded after address evidence := by
  by_cases leaves : verb.leavesPins = true
  · obtain ⟨pins, blobs⟩ := (exec_frame done).pins leaves
    exact guarded.of_same pins blobs
  obtain ⟨pinned, row, hit, live⟩ := guarded
  cases verb with
  | insertBlob other mediaType byteSize kekId key =>
    rcases exec_insertBlob done with ⟨-, -, rfl⟩ | ⟨absent, -, rfl⟩
    · exact ⟨pinned, row, hit, live⟩
    · have ne : address ≠ other := by
        rintro rfl
        rw [hit] at absent
        cases absent
      refine ⟨pinned, row, ?_, live⟩
      rw [blob_putBlob, if_neg ne, hit]
  | insertPin other proof =>
    rcases exec_insertPin done with ⟨-, -, rfl⟩ | ⟨other, pins, -, -, rfl, members⟩
    · exact ⟨pinned, row, hit, live⟩
    · exact ⟨(members _).mpr (.inl pinned), row, hit, live⟩
  | deletePin other proof =>
    obtain ⟨-, rfl⟩ := Prod.mk.inj (some.inj done)
    refine ⟨mem_filter.mpr ⟨pinned, decide_eq_true ?_⟩, row, hit, live⟩
    rintro ⟨⟩
    exact keeps rfl
  | deleteUnreferenced =>
    obtain ⟨swept, rfl⟩ := exec_deleteUnreferenced done
    have spared : address ∉ reply := by
      intro mem
      have unreferenced := (mem_filter.mp (swept.mem_iff.mp mem)).2
      rw [Guarded.not_unreferenced ⟨pinned, row, hit, live⟩] at unreferenced
      cases unreferenced
    refine ⟨mem_filter.mpr ⟨pinned, decide_eq_true spared⟩, row, ?_, live⟩
    rw [blob_dropBlobs, if_neg spared, hit]
  | tombstone other =>
    rcases exec_tombstone done with ⟨-, rfl⟩ | ⟨victim, -, -, unpinned, -, rfl⟩
    · exact ⟨pinned, row, hit, live⟩
    · have ne : address ≠ other := by
        rintro rfl
        rw [Guarded.pinned ⟨pinned, row, hit, live⟩] at unpinned
        cases unpinned
      refine ⟨pinned, row, ?_, live⟩
      rw [blob_putBlob, if_neg ne, hit]
  | _ => exact absurd rfl leaves

end Guarded

/-! ## The discipline -/

section Held

variable {crypto : Crypto} {view later : Seen crypto} {index : Nat} {address : BlobAddress}
  {evidence : String}

def Unreleased (view : Seen crypto) (index : Nat) (address : BlobAddress) (evidence : String) :
    Prop :=
  ∀ other, index < other → .issued other (.unpin address evidence) ∉ view.history

/-- A pin of the blob was answered before the call was issued, and no release of it since. -/
def PinnedBefore (view : Seen crypto) (index : Nat) (address : BlobAddress) : Prop :=
  ∃ pinner evidence outcome,
    .returned pinner (.pin address evidence) (.ok outcome) ∈ view.history.take index ∧
      Unreleased view pinner address evidence

/-- A pin is inserted only on a row that is not tombstoned, and while no older release of the
same pin is under way. -/
def PinsLive (view : Seen crypto) (index : Nat) (verb : Op crypto) : Prop :=
  ∀ address evidence, verb = .insertPin address evidence →
    (∀ row, view.state.blob address = some row → row.tombstoned = false) ∧
    ∀ other < index, view.running other ≠ some (.unpin address evidence)

structure Held (view : Seen crypto) : Prop where
  orderly : view.Orderly
  pinned : ∀ index address evidence,
    .performed index (Op.insertPin address evidence) true ∈ view.history →
    Unreleased view index address evidence → Guarded view.state address evidence
  unthreatened : ∀ index address evidence,
    .performed index (Op.insertPin address evidence) true ∈ view.history →
    ∀ other ≤ index, view.running other ≠ some (.unpin address evidence)
  told : ∀ index address evidence outcome,
    .returned index (.pin address evidence) (.ok outcome) ∈ view.history →
    .performed index (Op.insertPin address evidence) true ∈ view.history
  refused : ∀ index address answer,
    .returned index (.shred address) answer ∈ view.history → PinnedBefore view index address →
    answer = .error .pinned

/-- What a call's answer promises: a pin that succeeded was inserted, and a shred of a pinned
blob is refused. -/
def PinPromise (index : Nat) (call : Call) (answer : Answer) (view : Seen crypto) : Prop :=
  (∀ address evidence outcome, call = .pin address evidence → answer = .ok outcome →
    .performed index (Op.insertPin address evidence) true ∈ view.history) ∧
  (∀ address, call = .shred address → PinnedBefore view index address → answer = .error .pinned)

def pinDiscipline (crypto : Crypto) : Discipline (signature crypto) (Store crypto) Call Answer where
  invariant := Held
  rely _ view later := view.history <+: later.history
  careful := PinsLive
  admits _ _ := True
  refl _ _ := prefix_refl _
  trans _ _ _ _ := List.IsPrefix.trans

theorem Unreleased.prior (unreleased : Unreleased later index address evidence)
    (grown : view.history <+: later.history) : Unreleased view index address evidence :=
  fun other after issued => unreleased other after (grown.subset issued)

theorem PinnedBefore.prior (before : PinnedBefore later index address)
    (grown : view.history <+: later.history) (known : index ≤ view.history.length) :
    PinnedBefore view index address := by
  obtain ⟨pinner, evidence, outcome, returned, unreleased⟩ := before
  refine ⟨pinner, evidence, outcome, ?_, unreleased.prior grown⟩
  obtain ⟨rest, appended⟩ := grown
  rwa [← appended, take_append_of_le_length known] at returned

theorem Held.guarded (held : Held view) (before : PinnedBefore view index address) :
    ∃ evidence, Guarded view.state address evidence := by
  obtain ⟨pinner, evidence, outcome, returned, unreleased⟩ := before
  have inserted := held.told pinner address evidence outcome (mem_of_mem_take returned)
  exact ⟨evidence, held.pinned pinner address evidence inserted unreleased⟩

theorem Held.aside {more : List (Moment (signature crypto) Call Answer)}
    (held : Held view) (orderly : later.Orderly)
    (appended : later.history = view.history ++ more)
    (unperformed : ∀ other verb reply, .performed other verb reply ∉ more)
    (running : ∀ other call, other < view.fresh → later.running other = some call →
      view.running other = some call)
    (pins : later.state.pins = view.state.pins) (blobs : later.state.blobs = view.state.blobs)
    (promised : ∀ index call answer, .returned index call answer ∈ more →
      index < view.fresh ∧ PinPromise index call answer view) : Held later := by
  have grown : view.history <+: later.history := appended ▸ prefix_append _ _
  refine ⟨orderly, fun index address evidence inserted unreleased => ?_,
    fun index address evidence inserted other older here => ?_,
    fun index address evidence outcome returned => ?_,
      fun index address answer returned before => ?_⟩
  · have inserted := performed_of_aside appended unperformed inserted
    exact (held.pinned index address evidence inserted
      (unreleased.prior grown)).of_same pins blobs
  · have inserted := performed_of_aside appended unperformed inserted
    have known : other < view.fresh := Nat.lt_of_le_of_lt older (held.orderly.past _ inserted)
    exact held.unthreatened index address evidence inserted other older (running other _ known here)
  · rw [appended] at returned
    rcases mem_append.mp returned with prior | last
    · exact grown.subset (held.told index address evidence outcome prior)
    · exact grown.subset ((promised _ _ _ last).2.1 address evidence outcome rfl rfl)
  · rw [appended] at returned
    rcases mem_append.mp returned with prior | last
    · exact held.refused index address answer prior
        (before.prior grown (Nat.le_of_lt (held.orderly.past _ prior)))
    · obtain ⟨known, promise⟩ := promised _ _ _ last
      exact promise.2 address rfl (before.prior grown (Nat.le_of_lt known))

/-- **One operation.** -/
theorem Held.perform (config : BlobConfig crypto) {call : Call} (verb : Op crypto)
    {reply : verb.Reply} (choice : Choice crypto) {after : Store crypto} (held : Held view)
    (here : view.running index = some call) (may : call.may verb)
    (careful : PinsLive view index verb)
    (done : exec config view.state verb choice = some (reply, after)) :
    Held (view.perform index verb reply after) := by
  have grown : view.history <+: (view.perform index verb reply after).history :=
    prefix_append _ _
  have returned : ∀ other call answer,
      .returned other call answer ∈ (view.perform index verb reply after).history →
      .returned other call answer ∈ view.history := by
    intro other call answer hit
    rcases mem_snoc.mp hit with prior | ⟨⟨⟩⟩
    exact prior
  refine ⟨held.orderly.perform here verb reply after,
    fun pinner address evidence inserted unreleased => ?_,
    fun pinner address evidence inserted other older releasing => ?_,
    fun pinner address evidence outcome hit => ?_, fun shredder address answer hit before => ?_⟩
  · rcases mem_snoc.mp inserted with prior | ⟨⟨⟩⟩
    · have guarded := held.pinned pinner address evidence prior (unreleased.prior grown)
      refine guarded.exec verb ?_ done
      -- a release under way is younger than the pin, and so was issued after it
      rintro rfl
      obtain rfl : call = .unpin address evidence := may
      have younger : pinner < index := by
        by_contra older
        exact held.unthreatened pinner address evidence prior index (by omega) here
      exact unreleased index younger (grown.subset (held.orderly.issued _ _ here))
    · rcases exec_insertPin done with ⟨-, refused, -⟩ | ⟨row, pins, hit, -, rfl, members⟩
      · cases refused
      · exact ⟨(members _).mpr (.inr rfl), row, hit, (careful address evidence rfl).1 row hit⟩
  · rcases mem_snoc.mp inserted with prior | ⟨⟨⟩⟩
    · exact held.unthreatened pinner address evidence prior other older releasing
    · rcases Nat.lt_or_eq_of_le older with before | rfl
      · exact (careful address evidence rfl).2 other before releasing
      · obtain rfl : call = .pin address evidence := may
        cases here.symm.trans releasing
  · exact grown.subset (held.told pinner address evidence outcome (returned _ _ _ hit))
  · have prior := returned _ _ _ hit
    exact held.refused shredder address answer prior
      (before.prior grown (Nat.le_of_lt (held.orderly.past _ prior)))

end Held

/-! ## The calls -/

section Calls

open Fallible

variable {crypto : Crypto} {config : BlobConfig crypto} {view : Seen crypto} {index : Nat}
  {call : Call} {address : BlobAddress} {evidence : String}

theorem ensures_may {Result : Type} {program : Program (signature crypto) Result}
    (only : program.Only call.may) (fact : Seen crypto → Prop)
    (stable : ∀ view later : Seen crypto, view.history <+: later.history → fact view → fact later)
    (holds : fact view) :
    program.Ensures (pinDiscipline crypto) (system config) index call (fun _ => fact) view := by
  refine Program.Only.ensures fact ?_ stable only holds
  intro view verb choice reply after may held here careful known done
  have kept := held.perform config verb choice here may careful done
  exact ⟨kept, fun _ _ => prefix_append _ _, stable _ _ (prefix_append _ _) known⟩

theorem ensures_unpromised (notPin : ∀ address evidence, call ≠ .pin address evidence)
    (notShred : ∀ address, call ≠ .shred address) :
    (code config call).Ensures (pinDiscipline crypto) (system config) index call
      (PinPromise index call) view := by
  refine (ensures_may (may_code config call) (fun _ => True) (fun _ _ _ _ => trivial) trivial).mono
    fun _ _ _ _ _ => ⟨fun address evidence _ isPin => ?_, fun address isShred => ?_⟩
  · exact absurd isPin (notPin address evidence)
  · exact absurd isShred (notShred address)

theorem ensures_pin :
    (code config (.pin address evidence)).Ensures (pinDiscipline crypto) (system config) index
      (.pin address evidence) (PinPromise index (.pin address evidence)) view := by
  have failed : ∀ error (last : Seen crypto),
      PinPromise index (.pin address evidence) (.error error) last :=
    fun _ _ => ⟨fun _ _ _ _ isOk => (by cases isOk), fun _ isShred => (by cases isShred)⟩
  simp only [code, pin, Fallible.bind_assoc]
  refine ensures_bind (Program.Ensures.mono (ensures_may (may_readable address) (fun _ => True)
    (fun _ _ _ _ => trivial) trivial) fun _ _ _ _ _ => ⟨fun _ _ => ?_, fun error _ _ _ _ _ =>
      failed error _⟩)
  refine ensures_op fun later _ held here careful choice inserted after done => ?_
  have kept := Held.perform config (.insertPin address evidence) choice held here rfl careful done
  refine ⟨kept, fun _ _ => prefix_append _ _, ?_⟩
  refine ensures_check (fun _ _ _ _ _ => failed _ _) fun wasInserted => ?_
  intro last grown _ _
  refine ⟨fun other proof _ eq _ => ?_, fun _ isShred => (by cases isShred)⟩
  cases eq
  subst wasInserted
  exact grown.subset mem_concat_self

theorem ensures_shredPinned (known : index ≤ view.history.length) :
    (code config (.shred address)).Ensures (pinDiscipline crypto) (system config) index
      (.shred address) (PinPromise index (.shred address)) view := by
  have refused : ∀ last : Seen crypto, PinPromise index (.shred address) (.error .pinned) last :=
    fun _ => ⟨fun _ _ _ isPin => (by cases isPin), fun _ _ _ => rfl⟩
  simp only [code, shred, Fallible.bind_assoc]
  refine ensures_op fun later moved held here careful choice hit after done => ?_
  have kept := Held.perform config (.selectBlob address) choice held here trivial careful done
  refine ⟨kept, fun _ _ => prefix_append _ _, ?_⟩
  obtain ⟨foundIs, rfl⟩ := Prod.mk.inj (some.inj done)
  have before : index ≤ later.history.length := known.trans moved.length_le
  by_cases pinned : PinnedBefore later index address
  · obtain ⟨proof, guarded⟩ := held.guarded pinned
    obtain ⟨row, present, live⟩ := guarded.2
    rw [present] at foundIs
    subst foundIs
    refine ensures_need (fun none => (by cases none)) fun value isFound => ?_
    cases isFound
    rw [if_neg (by rw [live]; exact Bool.false_ne_true), Fallible.bind_assoc]
    exact ensures_check (fun _ last _ _ _ => refused last) fun unpinned =>
      absurd guarded.pinned unpinned
  · -- not pinned by now, so not pinned before the shred was issued
    have only : Fallible.Only (Call.shred address).may
        (code config (.shred address) : Action crypto Outcome) := may_code config (.shred address)
    simp only [code, shred, Fallible.bind_assoc] at only
    refine (ensures_may (only.2 hit) (fun last => later.history <+: last.history)
      (fun _ _ further grown => List.IsPrefix.trans grown further)
      (prefix_append _ _)).mono fun _ last _ _ grown => ⟨fun _ _ _ isPin => (by cases isPin),
        fun _ eq pinnedBefore => ?_⟩
    cases eq
    exact absurd (pinnedBefore.prior grown before) pinned

/-- **Every call keeps to the discipline of pins.** -/
theorem pins_upheld : (pinDiscipline crypto).Upheld (system config) PinPromise where
  issue view call held _ := by
    refine ⟨held.aside (held.orderly.issue call) rfl (fun _ _ _ => by simp)
      (fun _ _ => running_of_issue) rfl rfl (fun _ _ _ => by simp), fun _ _ =>
        prefix_append _ _⟩
  code view call held _ := by
    cases call with
    | pin address evidence => exact ensures_pin
    | shred address => exact ensures_shredPinned (by simp [fresh, issue])
    | _ =>
      exact ensures_unpromised (by rintro _ _ ⟨⟩) (by rintro _ ⟨⟩)
  finish view index call answer held here promise := by
    refine ⟨held.aside (held.orderly.finish here answer) rfl (fun _ _ _ => by simp)
      (fun _ _ _ => running_of_ended) rfl rfl (fun other called given last => ?_),
      fun _ _ => prefix_append _ _⟩
    cases mem_singleton.mp last
    exact ⟨held.orderly.before here, promise⟩
  stop view index call held here :=
    ⟨held.aside (held.orderly.stop here) rfl (fun _ _ _ => by simp)
      (fun _ _ _ => running_of_ended) rfl rfl (fun _ _ _ => by simp),
      fun _ _ => prefix_append _ _⟩
  outside view event held := by
    refine ⟨held.aside (held.orderly.disturb _) (append_nil _).symm (fun _ _ _ => by simp)
      (fun _ _ _ here => here) ?_ ?_ (fun _ _ _ => by simp), fun _ => prefix_refl _⟩
    · cases event with
      | pass duration | refer references => rfl
    · cases event with
      | pass duration | refer references => rfl

end Calls

/-! ## Runs -/

section Runs

variable {crypto : Crypto} {config : BlobConfig crypto}
  {acts : List (Act Call (Choice crypto) Outside)}
  {pool : Pool (signature crypto) (Store crypto) Call Answer}

/-- A run from the empty store in which every pin is inserted on a live row, with no older
release under way. -/
abbrev PinningRun (config : BlobConfig crypto) (acts : List (Act Call (Choice crypto) Outside))
    (pool : Pool (signature crypto) (Store crypto) Call Answer) : Prop :=
  Run ((pinDiscipline crypto).Step (system config)) (.start .initial) acts pool

instance (view : Seen crypto) (index : Nat) (address : BlobAddress) (evidence : String) :
    Decidable (Unreleased view index address evidence) :=
  decidable_of_iff (∀ moment ∈ view.history, (match moment with
      | .issued other call => decide (index < other ∧ call = .unpin address evidence)
      | _ => false) = false) <| by
    constructor
    · intro all other younger issued
      exact of_decide_eq_false (all _ issued) ⟨younger, rfl⟩
    · intro unreleased moment mem
      split
      next other call =>
        refine decide_eq_false ?_
        rintro ⟨younger, rfl⟩
        exact unreleased other younger mem
      next => rfl

/-- Whether a step inserts a pin, it does so on a live row with no older release under way. -/
def pinsLive (pool : Pool (signature crypto) (Store crypto) Call Answer) :
    Act Call (Choice crypto) Outside → Bool
  | .perform index _ =>
    match pool.programs index with
    | some (.perform (.insertPin address evidence) _) =>
      (pool.view.state.blob address).all (fun row => !row.tombstoned) &&
        (List.range index).all fun other =>
          pool.view.running other ≠ some (.unpin address evidence)
    | _ => true
  | _ => true

theorem permits_of_pinsLive (pool : Pool (signature crypto) (Store crypto) Call Answer)
    (act : Act Call (Choice crypto) Outside) (allowed : pinsLive pool act = true) :
    (pinDiscipline crypto).permits pool act := by
  cases act with
  | perform index choice =>
    rintro _ next hit address evidence rfl
    simp only [pinsLive, hit, Bool.and_eq_true] at allowed
    refine ⟨fun row present => ?_, fun other older => ?_⟩
    · have live := allowed.1
      rw [present, all_some] at live
      exact Bool.not_eq_true' _ ▸ live
    · exact of_decide_eq_true (List.all_eq_true.mp allowed.2 other (mem_range.mpr older))
  | _ => exact trivial

theorem held_initially : Held (start .initial : Seen crypto) :=
  ⟨.start _, fun _ _ _ hit => (by cases hit), fun _ _ _ hit => (by cases hit),
    fun _ _ _ _ hit => (by cases hit), fun _ _ _ hit => (by cases hit)⟩

theorem PinningRun.held (run : PinningRun config acts pool) : Held pool.view :=
  (pins_upheld.run held_initially run).invariant

theorem shred_guarded {store : Store crypto} {address : BlobAddress} {evidence : String}
    (guarded : Guarded store address evidence) :
    Program.alone (system config) .plain (code config (.shred address)) store =
      some (.error .pinned, store) := by
  obtain ⟨row, present, live⟩ := guarded.2
  have look : exec config store (.selectBlob address) .plain = some (some ⟨row, true⟩, store) := by
    rw [exec, present, map_some, guarded.pinned]
  simp only [code, shred, Fallible.bind_assoc]
  rw [Fallible.alone_op, show (system config).exec = exec config from rfl, look, bind_some,
    Fallible.need_bind, if_neg (by rw [live]; exact Bool.false_ne_true)]
  rfl

/-- **A pin protects its blob.**  Where pins are inserted on live rows only, with no older
release under way: once a pin was answered, and as long as no release of it is issued after it,
the blob's row exists and is not tombstoned, a shred would be refused, and every shred issued
since then was. -/
theorem pin_protects (run : PinningRun config acts pool) {index : Nat} {address : BlobAddress}
    {evidence : String} {outcome : Outcome}
    (pinned : Returned pool.view index (.pin address evidence) (.ok outcome))
    (unreleased : Unreleased pool.view index address evidence) :
    (∃ row, pool.view.state.blob address = some row ∧ row.tombstoned = false) ∧
      Program.alone (system config) .plain (code config (.shred address)) pool.view.state =
        some (.error .pinned, pool.view.state) ∧
      ∀ shredder answer, Returned pool.view shredder (.shred address) answer →
        .returned index (.pin address evidence) (.ok outcome) ∈ pool.view.history.take shredder →
        answer = .error .pinned := by
  have held := run.held
  have inserted := held.told index address evidence outcome pinned
  have guarded := held.pinned index address evidence inserted unreleased
  refine ⟨guarded.2, shred_guarded guarded, fun shredder answer answered before => ?_⟩
  exact held.refused shredder address answer answered ⟨index, evidence, outcome, before, unreleased⟩

end Runs

namespace Sample

def looksToPin (index : Nat) : Schedule :=
  .issue (.pin address "evidence") :: steps index 1

def pins (index : Nat) : Schedule :=
  steps index 1 ++ [.finish index]

def shreds (index : Nat) : Schedule :=
  .issue (.shred address) :: steps index 3 ++ [.finish index]

end Sample

open Sample in
/-- A shred that begins between the look of a pin and its insertion, and looks after it. -/
theorem pin_protects_one : ∃ pool : Pool (signature crypto) (Store crypto) Call Answer,
    (∃ row, pool.view.state.blob address = some row ∧ row.tombstoned = false) ∧
      Program.alone (system Sample.config) .plain (code Sample.config (.shred address))
        pool.view.state = some (.error .pinned, pool.view.state) := by
  obtain ⟨pool, played, checked⟩ := Option.any_eq_true _ _ |>.mp
    (show (Pool.playIf pinsLive (system Sample.config) (.start .initial)
      (uploads 0 0 ++ commits 12 0 ++ looksToPin 26 ++ [.issue (.shred address)] ++ pins 26 ++
        steps 28 1 ++ [.finish 28])).any (fun pool => decide
        (Returned pool.view 26 (.pin address "evidence") (.ok .done) ∧
          Unreleased pool.view 26 address "evidence")) = true by decide +kernel)
  obtain ⟨pinned, unreleased⟩ := of_decide_eq_true checked
  obtain ⟨live, refused, -⟩ :=
    pin_protects (Discipline.run_of_playIf permits_of_pinsLive played) pinned unreleased
  exact ⟨pool, live, refused⟩

open Sample in
/-- A shred between the look of a pin and its insertion: the pin succeeds, there is no release,
and the blob is tombstoned. -/
theorem pin_on_tombstone : ∃ pool, Pool.play (system Sample.config) (.start .initial)
      (uploads 0 0 ++ commits 12 0 ++ looksToPin 26 ++ shreds 28 ++ pins 26) = some pool ∧
    Returned pool.view 26 (.pin address "evidence") (.ok .done) ∧
    Unreleased pool.view 26 address "evidence" ∧
    (pool.view.state.blob address).any BlobRow.tombstoned = true ∧
    (Program.alone (system Sample.config) .plain (code Sample.config (.shred address))
      pool.view.state).map Prod.fst = some (.ok .done) := by
  obtain ⟨pool, played, checked⟩ := Option.any_eq_true _ _ |>.mp
    (show (Pool.play (system Sample.config) (.start .initial)
      (uploads 0 0 ++ commits 12 0 ++ looksToPin 26 ++ shreds 28 ++ pins 26)).any
      (fun pool => decide (Returned pool.view 26 (.pin address "evidence") (.ok .done) ∧
        Unreleased pool.view 26 address "evidence" ∧
        (pool.view.state.blob address).any BlobRow.tombstoned = true ∧
        (Program.alone (system Sample.config) .plain (code Sample.config (.shred address))
          pool.view.state).map Prod.fst = some (.ok .done))) = true by decide +kernel)
  exact ⟨pool, played, of_decide_eq_true checked⟩

end Gridwork.Blob
