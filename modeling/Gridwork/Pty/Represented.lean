import Gridwork.Pty.Mirror
import Gridwork.Pty.RawAttach

/-!
# The representation of a session

The verbs keep a session's screen, its retained batches, its raw events and the counters of both in
fields of their own.  In every hub that can be reached the fields agree: `represented_reached`.
-/

namespace Gridwork.Pty.PtyHub

open Domain Lib List Prod Session

/-! ## Retained batches -/

def Accounted (session : Session) : Prop :=
  session.retainedBytes = (session.retained.map Prod.snd).sum ∧
    session.retained.length ≤ RETAINED_BATCHES ∧ session.retainedBytes ≤ RETAINED_BYTES

theorem evict_accounts (retained : List (PtyBatch × Nat)) (horizon : Option UInt64) :
    let left := evict retained (retained.map snd).sum horizon
    left.2.1 = (left.1.map snd).sum ∧ left.1.length ≤ RETAINED_BATCHES ∧
      left.2.1 ≤ RETAINED_BYTES := by
  induction retained generalizing horizon with
  | nil => simp [evict]
  | cons oldest rest ih =>
    unfold evict
    split
    · have dropped : ((oldest :: rest).map snd).sum - oldest.2 = (rest.map snd).sum := by
        simp
      rw [dropped]
      exact ih _
    next fits =>
      obtain ⟨count, bytes⟩ := not_or.mp fits
      exact ⟨rfl, Nat.le_of_not_lt count, Nat.le_of_not_lt bytes⟩

theorem accounted_publish {session : Session} (accounted : Accounted session) (batch : PtyBatch)
    (bytes : Nat) : Accounted (session.publish batch bytes) := by
  have more : session.retainedBytes + bytes =
      ((session.retained ++ [(batch, bytes)]).map snd).sum := by
    simp [accounted.1]
  have left := evict_accounts (session.retained ++ [(batch, bytes)]) session.evictedThrough
  rw [← more] at left
  exact left

variable {id : PtySessionId}

theorem accounted_step {before after : Session}
    (changed : SessionStep id before after) (accounted : Accounted before) : Accounted after := by
  cases changed with
  | reseed =>
    exact reseeded_cases _ _ _ _ _ _ _ accounted fun batch => accounted_publish accounted batch _
  | deltas => exact accounted_publish accounted _ _
  | rawSeed | raw => exact accounted

/-! ## Raw events -/

/-- The number after a head. -/
def following (head : Option UInt64) : Nat :=
  head.elim 0 (·.toNat + 1)

def RawAccounted (session : Session) : Prop :=
  (session.rawSnapshot = none → session.rawRetained = [] ∧ session.rawSeq = none) ∧
    (∀ snapshot ∈ session.rawSnapshot, session.rawRetained.map (·.seq.map UInt64.toNat) =
        (range' (following snapshot.seq) session.rawRetained.length).map some ∧
      following session.rawSeq = following snapshot.seq + session.rawRetained.length) ∧
    session.rawRetainedBytes = (session.rawRetained.map PtyRawDelivery.retainedBytes).sum ∧
    session.rawRetained.length ≤ RAW_RETAINED_EVENTS ∧
    session.rawRetainedBytes ≤ RAW_RETAINED_BYTES

theorem following_of_expectedRaw {head : Option UInt64} {seq : UInt64}
    (next : expectedRaw id head = .ok seq) : seq.toNat = following head := by
  unfold expectedRaw at next
  split at next
  · split at next
    next succeeded =>
      cases next
      exact (checkedSucc64_some _ _).mp succeeded
    next => cases next
  · cases next
    rfl

theorem rawAccounted_step {before after : Session}
    (changed : SessionStep id before after) (accounted : RawAccounted before) :
    RawAccounted after := by
  cases changed with
  | reseed => exact reseeded_cases _ _ _ _ _ _ _ accounted fun _ => accounted
  | deltas => exact accounted
  | rawSeed =>
    refine ⟨nofun, ?_, rfl, Nat.zero_le _, Nat.zero_le _⟩
    rintro snapshot ⟨⟩
    exact ⟨rfl, rfl⟩
  | @raw seq delivery numbered seeded next room =>
    obtain ⟨-, window, bytes, -, -⟩ := accounted
    refine ⟨fun absent => absurd absent seeded, fun snapshot isSnapshot => ?_, ?_, ?_, room.2⟩
    · obtain ⟨numbers, head⟩ := window snapshot isSnapshot
      have new := following_of_expectedRaw next
      rw [head] at new
      simp [rawAdvanced, numbers, numbered, new, range'_1_concat, following]
      omega
    · simp [rawAdvanced, bytes]
    · simpa [rawAdvanced] using room.1

/-- The grid is a rectangle within the wire bounds, retained batches lie between the horizon and the
head in increasing order, raw events are numbered on from their snapshot to the raw head, and the
counters are exact and within their bounds. -/
structure Represented (session : Session) : Prop where
  shaped : Shaped session.cells
  increasing : (session.retained.map Prod.fst).Pairwise fun batch later => batch.seq < later.seq
  between : ∀ batch ∈ session.retained.map Prod.fst,
    (∀ mark ∈ session.evictedThrough, mark < batch.seq) ∧ ∃ head ∈ session.seq, batch.seq ≤ head
  accounted : Accounted session
  raw : RawAccounted session

/-- **The fields of a session agree** in every hub reached by any history of verbs. -/
theorem represented_reached (writerEpoch : WriterEpoch) (history : List Action) (id : PtySessionId)
    (session : Session) (hit : (reached writerEpoch history).sessions.lookup id = some session) :
    Represented session := by
  obtain ⟨rows, cols, bounded, rect, -⟩ := displayed_reached writerEpoch history id session hit
  have window := windowed_reached writerEpoch history id session hit
  have kept := window.kept_eq
  refine ⟨⟨rows, cols, bounded, rect⟩, ?_, ?_, ?_, ?_⟩
  · rw [kept]
    exact window.increasing.filter _
  · intro batch mem
    rw [kept] at mem
    obtain ⟨broadcast, above⟩ := mem_filter.mp mem
    exact ⟨by simpa using above, window.key_le_head broadcast⟩
  · exact session_induction writerEpoch history
      (fun _ _ _ _ _ => ⟨rfl, Nat.zero_le _, Nat.zero_le _⟩) accounted_step id session hit
  · exact session_induction writerEpoch history
      (fun _ _ _ _ _ => ⟨fun _ => ⟨rfl, rfl⟩, nofun, rfl, Nat.zero_le _, Nat.zero_le _⟩)
      rawAccounted_step id session hit

theorem represented_reached_sample :
    ∃ session, (reached 3 sampleHistory).sessions.lookup "s" = some session ∧
      Represented session := by
  obtain ⟨session, hit⟩ : ∃ session,
      (reached 3 sampleHistory).sessions.lookup "s" = some session := ⟨_, rfl⟩
  exact ⟨session, hit, represented_reached 3 sampleHistory "s" session hit⟩

end Gridwork.Pty.PtyHub
