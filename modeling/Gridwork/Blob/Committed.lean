import Gridwork.Blob.Calls

/-!
# Committed blobs stay readable

In every run in which commits look with care, every live row has its container and can be read
(`live_rows_read`), and a read of an address that was committed before, in a store without sweeps
and shreds, answers the committed bytes (`reads_after_commit`).

The store itself does not see to the care.  Two commits of one address that both find no row
each publish a container of their own, and the row of the one stands beside the container of the
other; and a sweep that has deleted a row removes the container of whoever commits the address
again before it gets there.
-/

namespace Gridwork.Blob

open Lib List Option Fallible

section Runs

variable {crypto : Crypto} {config : BlobConfig crypto}

/-- A run from the empty store in which every commit looks with care. -/
abbrev CarefulRun (config : BlobConfig crypto) (acts : List (Act Call (Choice crypto) Outside))
    (pool : Pool (signature crypto) (Store crypto) Call Answer) : Prop :=
  Run ((rule config).Step (system config)) (.start .initial) acts pool

variable {acts : List (Act Call (Choice crypto) Outside)}
  {pool : Pool (signature crypto) (Store crypto) Call Answer}

theorem discipline_initially : (rule config).invariant (.start .initial) := by
  have nothing : ∀ address, (Store.initial : Store crypto).blob address = none :=
    fun address => AList.lookup_empty address
  refine ⟨⟨.start _, fun address row key hit _ => ?_, fun _ _ _ _ _ _ here => ?_,
    fun _ _ _ here => ?_, fun _ _ here => ?_⟩, fun _ _ _ _ _ returned => ?_,
    fun _ _ _ _ _ _ returned => ?_⟩
  · rw [show (View.start Store.initial : Seen crypto).state.blob address = none from
      nothing address] at hit
    cases hit
  · cases here.running
  · cases here.running
  · cases here.running
  · cases returned
  · cases returned

theorem CarefulRun.holds (run : CarefulRun config acts pool) :
    Sound config pool.view ∧ Told pool.view :=
  (upheld.run discipline_initially run).invariant

/-- The first look of a commit, and the deletion that leaves containers without a row. -/
def Op.claims : Op crypto → Bool
  | .selectBlob _ | .deleteUnreferenced => true
  | _ => false

theorem careful_of_hasTurn {view : Seen crypto} {index : Nat} {verb : Op crypto}
    (turn : verb.claims = true → view.HasTurn Op.claims index) : Careful view index verb := by
  rintro upload address rfl here unlooked other
  refine ⟨fun otherUpload otherAddress publishes => ?_, fun unlinks => ?_⟩
  · obtain rfl := (turn rfl).eq publishes.running publishes.looked rfl
    cases here.symm.trans publishes.running
    exact absurd publishes.looked (unlooked none)
  · obtain ⟨swept, deleted, -⟩ := unlinks.deleted
    obtain rfl := (turn rfl).eq unlinks.running deleted rfl
    cases here.symm.trans unlinks.running

theorem carefulRun_of_inTurn (played : Pool.playIf (Pool.inTurn Op.claims) (system config)
      (.start .initial) acts = some pool) : CarefulRun config acts pool :=
  Discipline.run_of_inTurn (fun _ _ _ => careful_of_hasTurn) (fun _ _ => trivial) played

end Runs

/-! ## What can be checked of a history -/

section Checks

variable {crypto : Crypto}

instance (view : Seen crypto) : Decidable (Quiet view) :=
  decidable_of_iff (∀ moment ∈ view.history, (match moment with
      | .issued _ call => call.removes
      | _ => false) = false) <| by
    constructor
    · intro all index call issued
      exact all _ issued
    · intro quiet moment mem
      cases moment with
      | issued index call => exact quiet index call mem
      | _ => rfl

instance (view : Seen crypto) (index : Nat) (address : BlobAddress) :
    Decidable (CommittedBefore view index address) :=
  decidable_of_iff (∃ moment ∈ view.history.take index, (match moment with
      | .returned _ (.commit _ other) (.ok _) => decide (other = address)
      | _ => false) = true) <| by
    constructor
    · rintro ⟨moment, mem, isCommit⟩
      split at isCommit
      next committer upload other outcome =>
        obtain rfl := of_decide_eq_true isCommit
        exact ⟨committer, upload, outcome, mem⟩
      next => cases isCommit
    · rintro ⟨committer, upload, outcome, mem⟩
      exact ⟨_, mem, decide_eq_true rfl⟩

def Returned (view : Seen crypto) (index : Nat) (call : Call) (answer : Answer) : Prop :=
  .returned index call answer ∈ view.history

instance (view : Seen crypto) (index : Nat) (call : Call) (answer : Answer) :
    Decidable (Returned view index call answer) :=
  decidable_of_iff (∃ moment ∈ view.history, (match moment with
      | .returned place other given => decide (place = index ∧ other = call ∧ given = answer)
      | _ => false) = true) <| by
    constructor
    · rintro ⟨moment, mem, eq⟩
      split at eq
      next =>
        obtain ⟨rfl, rfl, rfl⟩ := of_decide_eq_true eq
        exact mem
      next => cases eq
    · intro mem
      exact ⟨_, mem, decide_eq_true ⟨rfl, rfl, rfl⟩⟩

def Identical (view : Seen crypto) (address : BlobAddress) (plaintext : Bytes) : Prop :=
  ∀ index upload length bytes,
    .performed index (Op.readUploadFile upload length) (some bytes) ∈ view.history →
    addressOf (crypto.sha256 bytes) = address → bytes = plaintext

instance (view : Seen crypto) (address : BlobAddress) (plaintext : Bytes) :
    Decidable (Identical view address plaintext) :=
  decidable_of_iff (∀ moment ∈ view.history, (match moment with
      | .performed _ (.readUploadFile _ _) (some bytes) =>
        decide (addressOf (crypto.sha256 bytes) = address → bytes = plaintext)
      | _ => true) = true) <| by
    constructor
    · intro all index upload length bytes read
      exact of_decide_eq_true (all _ read)
    · intro identical moment mem
      split
      next index upload length bytes =>
        exact decide_eq_true (identical index upload length bytes mem)
      next => rfl

end Checks

/-! ## A store of one blob -/

namespace Sample

def mark (dek : UInt8) : Bytes :=
  dek :: List.replicate 15 0

theorem length_mark (dek : UInt8) : (mark dek).length = TAG_BYTES :=
  rfl

/-- Primitives that record the key, the nonce and the data they were used with. -/
def crypto : Crypto where
  Key := UInt8
  Nonce := UInt8
  Wrapped := UInt8 × UInt8 × UInt8 × Bytes
  sha256 bytes := List.Vector.replicate DIGEST_BYTES (bytes.foldl (· + ·) 0)
  wrapDek dek kek nonce aad := (dek, kek, nonce, aad)
  unwrapDek wrapped kek nonce aad := if wrapped.2 = (kek, nonce, aad) then some wrapped.1 else none
  sealChunk _ dek _ _ _ message := mark dek ++ message
  openChunk _ dek _ _ _ ciphertext :=
    if ciphertext.take TAG_BYTES = mark dek then some (ciphertext.drop TAG_BYTES) else none
  unwrap_wrap _ _ _ _ := if_pos rfl
  open_seal _ dek _ _ _ message := by
    rw [take_left' (length_mark dek), if_pos rfl, drop_left' (length_mark dek)]
  length_seal _ dek _ _ _ message := by
    rw [length_append, length_mark, Nat.add_comm]

theorem exclusive : crypto.Exclusive where
  wrap dek kek nonce aad otherKek otherNonce otherAad hit unwrapped := by
    obtain ⟨eq, -⟩ := ite_none_right_eq_some.mp unwrapped
    cases eq
    exact ⟨rfl, rfl, rfl⟩
  chunk aad dek streamNonce position last message otherAad otherDek otherNonce otherPosition
      otherLast hit opened := by
    obtain ⟨eq, -⟩ := ite_none_right_eq_some.mp opened
    have taken : (mark dek ++ message).take TAG_BYTES = mark dek :=
      take_left' (length_mark dek)
    exact (List.cons.inj (taken.symm.trans eq)).1.symm

def config : BlobConfig crypto :=
  ⟨(0 : UInt8), "kek", 30, []⟩

def upload (byte : UInt8) : String :=
  hexLower (List.replicate 16 byte)

def plaintext : Bytes := [7]

def address : BlobAddress := addressOf (crypto.sha256 plaintext)

abbrev Schedule := List (Act Call (Choice crypto) Outside)

def steps (index count : Nat) : Schedule :=
  List.replicate count (.perform index .plain)

/-- An upload of the blob: `begin`, six moments, and `write_chunk`, six more. -/
def begins (index : Nat) (byte : UInt8) : Schedule :=
  [.issue (.begin "text" 1), .perform index (.uploads []),
    .perform index (.id (List.Vector.replicate 16 byte))] ++ steps index 2 ++ [.finish index]

def writes (index : Nat) (byte : UInt8) : Schedule :=
  .issue (.writeChunk (upload byte) 0 plaintext) :: steps index 4 ++ [.finish index]

def uploads (index : Nat) (byte : UInt8) : Schedule :=
  begins index byte ++ writes (index + 6) byte

/-- A commit in three parts: up to its look, on to the container's place, and on to its end. -/
def looks (index : Nat) : Schedule :=
  steps index 4

def publishes (index : Nat) (byte : UInt8) : Schedule :=
  .perform index (.secrets ⟨byte, byte, List.Vector.replicate _ byte⟩) :: steps index 2

def records (index : Nat) : Schedule :=
  steps index 5 ++ [.finish index]

def commits (index : Nat) (byte : UInt8) : Schedule :=
  .issue (.commit (upload byte) address) :: looks index ++ publishes index byte ++ records index

def reads (index : Nat) : Schedule :=
  .issue (.read address 0 1) :: steps index 2 ++ [.finish index]

/-- A sweep in two parts: up to the deletion of the row, and the removal of the container. -/
def deletes (index : Nat) : Schedule :=
  [.issue .sweep, .perform index (.uploads []), .perform index (.blobs [address])]

def removes (index : Nat) : Schedule :=
  steps index 1 ++ [.finish index]

def drawn (view : Seen crypto) : List UInt8 :=
  view.history.filterMap fun moment =>
    match moment with
    | .performed _ .generateSecrets reply => some reply.dek
    | _ => none

/-- Two commits of the same bytes that both look before either has written its row. -/
def race : Schedule :=
  uploads 0 0 ++ uploads 12 1 ++
  [.issue (.commit (upload 0) address), .issue (.commit (upload 1) address)] ++
  looks 24 ++ looks 25 ++ publishes 24 0 ++ publishes 25 1 ++ records 24 ++ records 25 ++ reads 52

/-- Two overlapping commits of the same bytes; the second looks when the first has ended. -/
def overlapping : Schedule :=
  uploads 0 0 ++ uploads 12 1 ++
  [.issue (.commit (upload 0) address)] ++ steps 24 2 ++ [.issue (.commit (upload 1) address)] ++
  steps 27 3 ++ steps 24 2 ++ publishes 24 0 ++ records 24 ++ steps 27 4 ++ [.finish 27]

/-- A sweep that deletes a row and removes its container before a commit under way looks. -/
def overtaken : Schedule :=
  uploads 0 0 ++ commits 12 0 ++ uploads 26 1 ++ deletes 38 ++
  [.issue (.commit (upload 1) address)] ++ steps 41 3 ++ removes 38 ++ steps 41 1 ++
  publishes 41 1 ++ records 41

/-- A sweep that deletes a row, and removes the container when the blob is stored again. -/
def recommitted : Schedule :=
  uploads 0 0 ++ commits 12 0 ++ uploads 26 1 ++ deletes 38 ++ commits 41 1 ++ removes 38

end Sample

/-! ## Reads of committed blobs -/

section Reads

variable {crypto : Crypto} {config : BlobConfig crypto}
  {acts : List (Act Call (Choice crypto) Outside)}
  {pool : Pool (signature crypto) (Store crypto) Call Answer}

/-- **A read of a committed blob answers its bytes.**  In a careful run without sweeps and
shreds, where all commits of the address are of the same bytes, every read issued after one of
them has succeeded answers the range asked for. -/
theorem reads_after_commit (run : CarefulRun config acts pool) (quiet : Quiet pool.view)
    {address : BlobAddress} {plaintext : Bytes}
    (identical : Identical pool.view address plaintext)
    {index offset length : Nat} {answer : Answer}
    (committed : CommittedBefore pool.view index address)
    (answered : Returned pool.view index (.read address offset length) answer) :
    answer = .ok (.bytes (slice plaintext offset
      (clampLength plaintext.length offset length))) := by
  obtain ⟨bytes, ⟨hashed, reader, upload, count, staged⟩, eq⟩ :=
    run.holds.2.answered quiet index address offset length answer answered committed
  rw [eq, identical reader upload count bytes staged hashed]

end Reads

open Sample in
theorem reads_after_commit_one :
    ∃ pool : Pool (signature crypto) (Store crypto) Call Answer, ∃ answer : Answer,
      Returned pool.view 47 (.read address 0 1) answer ∧ answer = .ok (.bytes plaintext) := by
  obtain ⟨pool, played, checked⟩ := Option.any_eq_true _ _ |>.mp
    (show (Pool.playIf (Pool.inTurn Op.claims) (system Sample.config) (.start .initial)
      (overlapping ++ reads 47)).any (fun pool => decide
        (Quiet pool.view ∧ Identical pool.view address plaintext ∧
          CommittedBefore pool.view 47 address ∧
          Returned pool.view 47 (.read address 0 1) (.ok (.bytes plaintext)))) = true
      by decide +kernel)
  obtain ⟨quiet, identical, committed, answered⟩ := of_decide_eq_true checked
  exact ⟨pool, _, answered,
    reads_after_commit (carefulRun_of_inTurn played) quiet identical committed answered⟩

open Sample in
/-- Both commits of the race succeed, under keys of their own, and the row of the first stands
beside the container of the second: the blob cannot be read. -/
theorem racing_commits_unreadable : crypto.Exclusive ∧
    ∃ pool, Pool.play (system Sample.config) (.start .initial) race = some pool ∧
      Quiet pool.view ∧ Identical pool.view address plaintext ∧ (drawn pool.view).Nodup ∧
      CommittedBefore pool.view 52 address ∧
      Returned pool.view 52 (.read address 0 1)
        (.error (.integrity "unwrapping the data key failed: wrong kek or altered header")) := by
  refine ⟨exclusive, ?_⟩
  obtain ⟨pool, played, checked⟩ := Option.any_eq_true _ _ |>.mp
    (show (Pool.play (system Sample.config) (.start .initial) race).any (fun pool => decide
        (Quiet pool.view ∧ Identical pool.view address plaintext ∧ (drawn pool.view).Nodup ∧
          CommittedBefore pool.view 52 address ∧
          Returned pool.view 52 (.read address 0 1) (.error (.integrity
              "unwrapping the data key failed: wrong kek or altered header")))) = true
      by decide +kernel)
  exact ⟨pool, played, of_decide_eq_true checked⟩

/-! ## Live rows -/

section Live

variable {crypto : Crypto} {config : BlobConfig crypto}
  {acts : List (Act Call (Choice crypto) Outside)}
  {pool : Pool (signature crypto) (Store crypto) Call Answer}

/-- The store holds a blob as a commit leaves it: its row, its key material and its container come
from one sealing. -/
structure HeldAs (config : BlobConfig crypto) (address : BlobAddress) (row : BlobRow crypto)
    (sealing : Sealing crypto) (store : Store crypto) : Prop where
  present : store.blob address = some row
  key : row.key = some (sealing.key config.kek)
  container : store.containers address = some sealing.container
  mediaType : row.mediaType = sealing.mediaType
  kekId : row.kekId = sealing.kekId
  byteSize : row.byteSize = sealing.plaintext.length
  fits : sealing.Fits

theorem StoredAs.held {view : Seen crypto} {address : BlobAddress} {row : BlobRow crypto}
    {key : KeyMaterial crypto} {sealing : Sealing crypto}
    (stored : StoredAs config view address row key sealing)
    (present : view.state.blob address = some row) (keyed : row.key = some key) :
    HeldAs config address row sealing view.state :=
  ⟨present, stored.key ▸ keyed, stored.container, stored.mediaType, stored.kekId, stored.byteSize,
    stored.fits⟩

namespace HeldAs

variable {address : BlobAddress} {row : BlobRow crypto} {sealing : Sealing crypto}
  {store : Store crypto}

section Read

variable (held : HeldAs config address row sealing store)

include held

theorem live : row.tombstoned = false := by
  rw [BlobRow.tombstoned, held.key]
  rfl

theorem exec_selectBlob : exec config store (.selectBlob address) .plain =
      some (some ⟨row, store.pinned address⟩, store) := by
  rw [exec, held.present, map_some]

theorem exec_openContainer :
    exec config store (.openContainer address) .plain = some (some sealing.container, store) := by
  rw [exec, held.container]

theorem read_eq (offset length : Nat) : ∃ (hit : Option (FoundBlob crypto) → Action crypto Bytes)
      (opened : Option Bytes → Action crypto Bytes),
      read config address offset length = op (.selectBlob address) >>= hit ∧
      (∀ pinned, hit (some ⟨row, pinned⟩) =
        if clampLength sealing.plaintext.length offset length = 0 then pure []
        else op (.openContainer address) >>= opened) ∧
      (clampLength sealing.plaintext.length offset length ≠ 0 → opened (some sealing.container) =
        pure (slice sealing.plaintext offset
          (clampLength sealing.plaintext.length offset length))) := by
  simp only [read, readable, Fallible.bind_assoc, Fallible.pure_bind]
  refine ⟨_, fun opened => do
    let container ← need opened (.storage "open container")
    lift (readRange config.kek row.mediaType row.kekId sealing.plaintext.length
      (sealing.key config.kek) container offset
      (clampLength sealing.plaintext.length offset length)), rfl, fun pinned => ?_,
    fun nonempty => ?_⟩
  · have alive : ¬ row.tombstoned = true := by
      rw [held.live]
      exact Bool.false_ne_true
    rw [Fallible.need_bind, Fallible.check_bind alive, readFound, held.key, Fallible.need_bind,
      held.byteSize]
  · have inside : offset + clampLength sealing.plaintext.length offset length ≤
        sealing.plaintext.length := by
      rw [clampLength] at nonempty ⊢
      omega
    beta_reduce
    rw [need_bind, held.mediaType, held.kekId,
      Sealing.readRange_container held.fits (Nat.pos_of_ne_zero nonempty) inside]
    rfl

theorem alone_read (offset length : Nat) :
    Program.alone (system config) .plain (read config address offset length) store =
      some (.ok (slice sealing.plaintext offset
        (clampLength sealing.plaintext.length offset length)), store) := by
  obtain ⟨hit, opened, shape, finds, opens⟩ := held.read_eq offset length
  rw [shape, alone_op, show (system config).exec = exec config from rfl,
    held.exec_selectBlob, bind_some, finds]
  split
  next empty =>
    rw [empty, slice, take_zero]
    rfl
  next nonempty =>
    rw [alone_op, show (system config).exec = exec config from rfl,
      held.exec_openContainer, bind_some, opens nonempty]
    rfl

end Read

end HeldAs

/-- **Every live row can be read.**  In a careful run, whatever sweeps and shreds there are, every
row that is not tombstoned has its container in place, and a read of it answers the bytes that a
commit staged for the address. -/
theorem live_rows_read (run : CarefulRun config acts pool) {address : BlobAddress}
    {row : BlobRow crypto} (present : pool.view.state.blob address = some row)
    (live : row.tombstoned = false) :
    (∃ container, pool.view.state.containers address = some container) ∧
      ∃ plaintext, Staged pool.view address plaintext ∧ ∀ offset length,
        Program.alone (system config) .plain (code config (.read address offset length))
          pool.view.state =
        some (.ok (.bytes (slice plaintext offset (clampLength plaintext.length offset length))),
          pool.view.state) := by
  obtain ⟨key, keyed⟩ := ne_none_iff_exists'.mp (BlobRow.not_tombstoned live)
  obtain ⟨sealing, stored⟩ := run.holds.1.stored address row key present keyed
  refine ⟨⟨_, stored.container⟩, sealing.plaintext, ⟨stored.address, stored.staged⟩,
    fun offset length => ?_⟩
  rw [code, Fallible.alone_bind ((stored.held present keyed).alone_read offset length)]
  rfl

end Live

open Sample in
theorem live_rows_read_recommitted : ∃ pool : Pool (signature crypto) (Store crypto) Call Answer,
      (∃ container, pool.view.state.containers address = some container) ∧
      ∃ bytes, Staged pool.view address bytes ∧ ∀ offset length,
        Program.alone (system Sample.config) .plain
          (code Sample.config (.read address offset length)) pool.view.state =
        some (.ok (.bytes (slice bytes offset (clampLength bytes.length offset length))),
          pool.view.state) := by
  obtain ⟨pool, played, checked⟩ := Option.any_eq_true _ _ |>.mp
    (show (Pool.playIf (Pool.inTurn Op.claims) (system Sample.config) (.start .initial)
      overtaken).any (fun pool => (pool.view.state.blob address).any fun row => !row.tombstoned) =
        true by decide +kernel)
  obtain ⟨row, present, live⟩ := Option.any_eq_true _ _ |>.mp checked
  exact ⟨pool, live_rows_read (carefulRun_of_inTurn played) present (Bool.not_eq_true' _ ▸ live)⟩

open Sample in
/-- The sweep had deleted the row of the first commit; the second commit finds no row and stores
the blob again, and then the sweep removes its container.  All calls have ended, the row is
live, and the container is gone. -/
theorem sweep_removes_recommitted :
    ∃ pool, Pool.play (system Sample.config) (.start .initial) recommitted = some pool ∧
      pool.view.idle = true ∧
      (pool.view.state.blob address).any (fun row => !row.tombstoned) = true ∧
      pool.view.state.containers address = none ∧
      (Program.alone (system Sample.config) .plain (code Sample.config (.read address 0 1))
        pool.view.state).map Prod.fst = some (.error (.storage "open container")) := by
  obtain ⟨pool, played, checked⟩ := Option.any_eq_true _ _ |>.mp
    (show (Pool.play (system Sample.config) (.start .initial) recommitted).any
      (fun pool => decide (pool.view.idle = true ∧
        (pool.view.state.blob address).any (fun row => !row.tombstoned) = true ∧
        pool.view.state.containers address = none ∧
        (Program.alone (system Sample.config) .plain (code Sample.config (.read address 0 1))
          pool.view.state).map Prod.fst = some (.error (.storage "open container")))) = true
      by decide +kernel)
  exact ⟨pool, played, of_decide_eq_true checked⟩

end Gridwork.Blob
