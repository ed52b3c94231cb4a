import Gridwork.Context.Compile
import Gridwork.Context.Verify
import Gridwork.Lib.Run

/-!
# Compiler and verifier agree

Whatever the compiler emits, the independent verifier accepts.  The verifier checks
four things of a manifest: its digest, the order of its participation rows, the number
of rows admitted, and the order of its evidence ids.

* The two digests are one function: the digit table of one crate and the digit
  arithmetic of the other write the same text (`hexLower_eq`).
* The rows come out of a map keyed by digest, and every pass writes a row under its own
  digest (`Keyed`), so they ascend.
* The source count is the size of the tool map.  A digest has tools exactly when its row
  is active (`ActiveTools`).  This needs the winners to have distinct digests
  (`winners_nodup`): a second row for an admitted digest would take its activity back.
* Evidence ids are sorted and rid of adjacent repetitions, so they ascend.
-/

namespace Gridwork.Context

open Domain Lib Std List Option TreeMap Verifier Participation Prod Except Run

/-! ## One digest -/

theorem fromDigit_eq_HEX : ∀ digit < 16, (fromDigit digit).getD '0' = HEX.getD digit '0' := by
  decide

theorem high_nibble_lt (byte : UInt8) : (byte >>> 4).toNat < 16 := by
  have bound := byte.toNat_lt
  rw [UInt8.toNat_shiftRight, Nat.shiftRight_eq_div_pow]
  simp only [UInt8.reduceToNat, Nat.reduceMod, Nat.reducePow]
  omega

theorem low_nibble_lt (byte : UInt8) : (byte &&& 0x0f).toNat < 16 := by
  rw [UInt8.toNat_and]
  exact Nat.lt_of_le_of_lt Nat.and_le_right (by decide)

theorem hexLower_eq (bytes) : Verifier.hexLower bytes = hexLower bytes.toList := by
  simp only [Verifier.hexLower, hexLower, fromDigit_eq_HEX _ (high_nibble_lt _),
    fromDigit_eq_HEX _ (low_nibble_lt _)]

variable {encoding : Encoding} {draft : ResolvedManifest} {rows : Rows}
  {state : Rows × List Candidate}
  {offered group ordered candidates read ready winners : List Candidate} {candidate : Candidate}
  {slot : String} {slots : List String} {authority : Authority} {request : CompileRequest}
  {admission : Admission} {route : Route} {compiled : Compiled}

theorem verifier_manifestDigest_of_compiler {digest : Digest}
    (digested : manifestDigest encoding draft = .ok digest) :
    Verifier.manifestDigest encoding { draft with manifestDigest := digest } = .ok digest := by
  have zeros : Verifier.liftDigest (Digest.fromHex Verifier.MANIFEST_DIGEST_PLACEHOLDER_HEX) =
      .ok placeholder := rfl
  simp only [manifestDigest] at digested
  cases encoded : encoding.toVec { draft with manifestDigest := placeholder } with
  | error detail => simp [encoded] at digested
  | ok bytes =>
    cases parsed : Digest.fromHex (hexLower (encoding.sha256 bytes).toList) with
    | error error => simp [encoded, parsed] at digested
    | ok hit =>
      simp only [encoded, parsed] at digested
      refine bind_ok.mpr ⟨placeholder, zeros, ?_⟩
      refine bind_ok.mpr ⟨bytes, by rw [encoded]; rfl, ?_⟩
      rw [hexLower_eq, parsed]
      obtain rfl : hit = digest := by simpa using digested
      rfl

/-! ## Ascending lists -/

theorem ascending_of_pairwise {α : Type} [Ord α] (duplicate : α → Verifier.VerifyError)
    (disorder : Nat → Verifier.VerifyError) (position : Nat) (items : List α)
    (ordered : items.Pairwise fun left right => compare left right = .lt) :
    ascending duplicate disorder position items = .ok () := by
  induction items generalizing position with
  | nil => rfl
  | cons first rest ih =>
    cases rest with
    | nil => rfl
    | cons second rest =>
      have step : compare first second = .lt := rel_of_pairwise_cons ordered (by simp)
      simp only [ascending, step]
      exact ih (position + 1) ordered.of_cons


/-! ## Rows keyed by digest -/

def Keyed (rows : Rows) : Prop :=
  ∀ (digest : Digest) (row : Participation), rows[digest]? = some row → row.digest = digest

def Inactive (rows : Rows) : Prop :=
  ∀ (digest : Digest) (row : Participation), rows[digest]? = some row → row.state ≠ .active

theorem getElem?_insert_row (rows : Rows) (written digest : Digest) (row : Participation) :
    (rows.insert written row)[digest]? = if digest = written then some row else rows[digest]? := by
  rw [TreeMap.getElem?_insert]
  by_cases eq : digest = written
  · rw [if_pos eq, if_pos (Std.compare_eq_iff_eq.mpr eq.symm)]
  · rw [if_neg eq, if_neg fun equal => eq (Std.compare_eq_iff_eq.mp equal).symm]

theorem Keyed.empty : Keyed ∅ := by
  intro digest row hit
  simp at hit

theorem Keyed.insert (keyed : Keyed rows) (row : Participation) :
    Keyed (rows.insert row.digest row) := by
  intro digest other hit
  rw [getElem?_insert_row] at hit
  split at hit
  · next eq =>
      obtain rfl : row = other := by simpa using hit
      exact eq.symm
  · exact keyed digest other hit

theorem Inactive.empty : Inactive ∅ := by
  intro digest row hit
  simp at hit

theorem Inactive.insert (inactive : Inactive rows) {row : Participation}
    (notActive : row.state ≠ .active) (digest : Digest) : Inactive (rows.insert digest row) := by
  intro other hit entry
  rw [getElem?_insert_row] at entry
  split at entry
  · obtain rfl : row = hit := by simpa using entry
    exact notActive
  · exact inactive other hit entry

theorem Keyed.pairwise_digests (keyed : Keyed rows) : ((rows.toList.map snd).map digest).Pairwise
      fun left right => compare left right = .lt := by
  have eq : (rows.toList.map snd).map digest = rows.keys := by
    rw [← map_fst_toList_eq_keys, List.map_map]
    refine map_congr_left fun entry mem => ?_
    exact keyed entry.1 entry.2 (mem_toList_iff_getElem?_eq_some.mp mem)
  rw [eq]
  exact ordered_keys

/-! ## The passes -/

theorem verdict_not_active {standing : Standing} {state : ParticipationState}
    {reason : ParticipationReason} (decided : standing.verdict = some (state, reason)) :
    state ≠ .active := by
  cases standing <;> simp only [Standing.verdict, Option.some.injEq, Prod.mk.injEq,
    reduceCtorEq] at decided <;> obtain ⟨rfl, -⟩ := decided <;> simp

/-- What holds of rows and kept candidates while nothing has been admitted. -/
structure Unadmitted (offered : List Candidate) (state : Rows × List Candidate) : Prop where
  keyed : Keyed state.1
  inactive : Inactive state.1
  kept : ∀ candidate ∈ state.2, candidate ∈ offered

theorem Unadmitted.recordVerdict (unadmitted : Unadmitted offered state)
    (mem : candidate ∈ offered) : Unadmitted offered (recordVerdict state candidate) := by
  unfold Context.recordVerdict
  split
  · next participationState reason decided =>
      exact {
        keyed := unadmitted.keyed.insert
          { digest := candidate.digest, contentClass := candidate.contentClass,
            state := participationState, reason := some reason, detail := none }
        inactive := unadmitted.inactive.insert (verdict_not_active decided) _
        kept := unadmitted.kept }
  · refine { unadmitted with kept := ?_ }
    intro other kept
    rcases mem_snoc.mp kept with old | rfl
    · exact unadmitted.kept other old
    · exact mem

theorem unadmitted_verdicts (ordered : List Candidate) :
    Unadmitted ordered (ordered.foldl recordVerdict (∅, [])) :=
  (of_foldl recordVerdict ordered (∅, [])).invariant_induction (Unadmitted ordered)
    ⟨Keyed.empty, Inactive.empty, by simp⟩
    fun _ mem _ _ unadmitted stepped => stepped ▸ unadmitted.recordVerdict mem

theorem mem_groupBySlot (hit : (groupBySlot ready)[slot]? = some group) :
    ∀ candidate ∈ group, candidate.slot = slot ∧ candidate ∈ ready := by
  refine (of_foldl _ ready ∅).invariant_induction
    (fun groups => ∀ (slot : String) (group : List Candidate), groups[slot]? = some group →
      ∀ candidate ∈ group, candidate.slot = slot ∧ candidate ∈ ready) ?_ ?_ slot group hit
  · intro slot group hit
    simp at hit
  · rintro candidate mem groups _ grouped rfl slot group hit other inGroup
    rw [TreeMap.getElem?_insert] at hit
    split at hit
    · next eq =>
        obtain rfl : candidate.slot = slot := Std.compare_eq_iff_eq.mp eq
        obtain rfl := some.inj hit
        rcases mem_snoc.mp inGroup with old | rfl
        · rw [getD_eq_getD_getElem?] at old
          cases existing : groups[candidate.slot]? with
          | none => simp [existing] at old
          | some group =>
            rw [existing] at old
            exact grouped _ group existing other old
        · exact ⟨rfl, mem⟩
    · exact grouped slot group hit other inGroup

theorem splitWinner_keeps (winner : Nat) (group : List Candidate) (start : Nat)
    (state : Rows × List Candidate) :
    ∃ won : Option Candidate, (∀ candidate ∈ won, candidate ∈ group ∧ start ≤ winner) ∧
      ((group.zipIdx start).foldl (splitWinner winner) state).2 = state.2 ++ won.toList := by
  induction group generalizing start state with
  | nil => exact ⟨none, by simp, by simp⟩
  | cons candidate rest ih =>
    rw [zipIdx_cons, foldl_cons]
    obtain ⟨won, source, kept⟩ :=
      ih (start + 1) (splitWinner winner state (candidate, start))
    rw [kept]
    by_cases here : start = winner
    · -- the winner stands here, so nothing after it is kept
      have nothing : won = none := by
        cases won with
        | none => rfl
        | some other =>
          have after := (source other rfl).2
          omega
      refine ⟨some candidate, ?_, ?_⟩
      · rintro _ ⟨⟩
        exact ⟨mem_cons_self, Nat.le_of_eq here⟩
      · simp [splitWinner, here, nothing]
    · refine ⟨won, ?_, ?_⟩
      · intro other mem
        obtain ⟨inRest, after⟩ := source other mem
        exact ⟨mem_cons_of_mem _ inRest, by omega⟩
      · simp [splitWinner, here]

theorem Unadmitted.splitWinner (unadmitted : Unadmitted offered state) (winner : Nat)
    {entry : Candidate × Nat}
    (mem : entry.1 ∈ offered) : Unadmitted offered (splitWinner winner state entry) := by
  obtain ⟨candidate, index⟩ := entry
  simp only [Context.splitWinner]
  split
  · refine { unadmitted with kept := ?_ }
    intro other kept
    rcases mem_snoc.mp kept with old | rfl
    · exact unadmitted.kept other old
    · exact mem
  · exact {
      keyed := unadmitted.keyed.insert
        (excluded candidate.digest candidate.contentClass .precedenceLoss)
      inactive := unadmitted.inactive.insert (by simp [excluded]) _
      kept := unadmitted.kept }

/-- What holds after some slots were decided: at most one winner for each of them. -/
structure Decided (offered : List Candidate) (slots : List String)
    (state : Rows × List Candidate) : Prop where
  unadmitted : Unadmitted offered state
  decidedSlots : ∀ candidate ∈ state.2, candidate.slot ∈ slots
  oneEach : (state.2.map Candidate.slot).Nodup

theorem Decided.decideSlot {before after : Rows × List Candidate}
    (decided : Decided offered slots before) (fresh : slot ∉ slots)
    (ofSlot : ∀ candidate ∈ group, candidate.slot = slot ∧ candidate ∈ offered)
    (stepped : decideSlot before (slot, group) = .ok after) :
    Decided offered (slots ++ [slot]) after := by
  simp only [Context.decideSlot] at stepped
  split at stepped
  · next winner resolved =>
      obtain rfl := ok.inj stepped
      have unadmitted : Unadmitted offered
          (group.zipIdx.foldl (Context.splitWinner winner) before) :=
        (of_foldl _ group.zipIdx before).invariant_induction (Unadmitted offered)
          decided.unadmitted fun entry mem _ _ holds step =>
            step ▸ holds.splitWinner winner (ofSlot entry.1 (fst_mem_of_mem_zipIdx mem)).2
      obtain ⟨won, source, kept⟩ := splitWinner_keeps winner group 0 before
      refine ⟨unadmitted, ?_, ?_⟩
      · intro candidate mem
        rw [kept] at mem
        rcases mem_append.mp mem with old | new
        · exact mem_append_left _ (decided.decidedSlots candidate old)
        · rw [(ofSlot candidate (source candidate (mem_toList.mp new)).1).1]
          exact mem_append_right _ mem_cons_self
      · rw [kept, map_append]
        refine nodup_append.mpr ⟨decided.oneEach, ?_, ?_⟩
        · cases won <;> simp
        · rintro _ oldMember _ newMember rfl
          obtain ⟨old, inOld, eq⟩ := List.mem_map.mp oldMember
          obtain ⟨new, inNew, newSlot⟩ := List.mem_map.mp newMember
          have atSlot := (ofSlot new (source new (mem_toList.mp inNew)).1).1
          refine fresh ?_
          rw [← atSlot, newSlot, ← eq]
          exact decided.decidedSlots old inOld
  · obtain rfl := ok.inj stepped
    exact { decided with
      decidedSlots := fun candidate mem =>
        mem_append_left _ (decided.decidedSlots candidate mem) }
  · cases stepped

theorem decided_of_decideAll (finished : decideAll ordered = .ok state) :
    ∃ slots, Decided ordered slots state := by
  have verdicts := unadmitted_verdicts ordered
  have start : Decided ordered [] ((ordered.foldl recordVerdict (∅, [])).1, []) :=
    ⟨⟨verdicts.keyed, verdicts.inactive, by simp⟩, by simp, by simp⟩
  refine ⟨_, (of_foldlM_except finished).prefix_induction
    (fun read state => Decided ordered (read.map fst) state) start ?_⟩
  rintro read ⟨slot, group⟩ rest before after split decided stepped
  rw [map_append]
  refine decided.decideSlot ?_ ?_ stepped
  · -- the keys of the slot map are distinct, so this slot was not read before
    intro prior
    obtain ⟨entry, inRead, eq⟩ := List.mem_map.mp prior
    have ordered := ordered_keys_toList (t := groupBySlot (ordered.foldl recordVerdict (∅, [])).2)
    rw [split, pairwise_append] at ordered
    have below := ordered.2.2 entry inRead (slot, group) mem_cons_self
    rw [eq] at below
    simp at below
  · intro candidate mem
    have hit : (groupBySlot (ordered.foldl recordVerdict (∅, [])).2)[slot]? = some group := by
      rw [← mem_toList_iff_getElem?_eq_some, split]
      exact mem_append_right _ mem_cons_self
    obtain ⟨atSlot, ready⟩ := mem_groupBySlot hit candidate mem
    exact ⟨atSlot, verdicts.kept candidate ready⟩

theorem validateFrom_nodup {seen : TreeSet Digest} (valid : validateFrom seen candidates = .ok ()) :
    (candidates.map Candidate.digest).Nodup ∧ ∀ candidate ∈ candidates,
      candidate.digest ∉ seen := by
  induction candidates generalizing seen with
  | nil => simp
  | cons candidate rest ih =>
    simp only [validateFrom] at valid
    split at valid
    · cases valid
    split at valid
    · cases valid
    split at valid
    · cases valid
    next unseen =>
      obtain ⟨distinct, later⟩ := ih valid
      have apart : ∀ other ∈ rest, candidate.digest ≠ other.digest := by
        intro other mem eq
        exact later other mem (TreeSet.mem_insert.mpr (.inl (Std.compare_eq_iff_eq.mpr eq)))
      refine ⟨?_, ?_⟩
      · rw [map_cons, nodup_cons]
        refine ⟨?_, distinct⟩
        intro repeated
        obtain ⟨other, mem, eq⟩ := List.mem_map.mp repeated
        exact apart other mem eq.symm
      · intro other mem inSeen
        rcases mem_cons.mp mem with rfl | inRest
        · exact unseen inSeen
        · exact later other inRest (TreeSet.mem_insert.mpr (.inr inSeen))

theorem winners_nodup (distinct : (ordered.map Candidate.digest).Nodup)
    (decided : Decided ordered slots state) : (state.2.map Candidate.digest).Nodup := by
  refine List.Nodup.map_on ?_ decided.oneEach.of_map
  intro left inLeft right inRight eq
  exact inj_on_of_nodup_map distinct (decided.unadmitted.kept left inLeft)
    (decided.unadmitted.kept right inRight) eq

/-- What holds of the admission loop: a digest has tools exactly when its row is
active. -/
structure ActiveTools (read : List Candidate) (state : Admission) : Prop where
  keyed : Keyed state.rows
  active : ∀ digest : Digest,
    (∃ row, state.rows[digest]? = some row ∧ row.state = .active) ↔ digest ∈ state.tools
  fromRead : ∀ digest ∈ state.tools, digest ∈ read.map Candidate.digest

theorem ActiveTools.admitCandidate {before after : Admission} (holds : ActiveTools read before)
    (fresh : candidate.digest ∉ read.map Candidate.digest)
    (stepped : admitCandidate authority before candidate = .ok after) :
    ActiveTools (read ++ [candidate]) after := by
  have noTools : candidate.digest ∉ before.tools := fun mem => fresh (holds.fromRead _ mem)
  have prior : ∀ digest ∈ before.tools, digest ∈ (read ++ [candidate]).map Candidate.digest := by
    intro digest mem
    rw [map_append]
    exact mem_append_left _ (holds.fromRead digest mem)
  unfold Context.admitCandidate at stepped
  split at stepped
  · split at stepped
    · cases stepped
    · obtain rfl := ok.inj stepped
      refine ⟨holds.keyed.insert (Participation.active candidate.digest candidate.contentClass),
        ?_, ?_⟩
      · intro digest
        rw [getElem?_insert_row, mem_insert, Std.compare_eq_iff_eq]
        by_cases eq : digest = candidate.digest
        · simp [eq, Participation.active]
        · rw [if_neg eq, holds.active digest]
          simp [Ne.symm eq]
      · intro digest mem
        rcases mem_insert.mp mem with eq | old
        · rw [← Std.compare_eq_iff_eq.mp eq]
          simp
        · exact prior digest old
  · split at stepped
    · cases stepped
    · obtain rfl := ok.inj stepped
      refine ⟨holds.keyed.insert
        (excluded candidate.digest candidate.contentClass .budgetCut), ?_, prior⟩
      intro digest
      rw [getElem?_insert_row]
      by_cases eq : digest = candidate.digest
      · simp [eq, excluded, noTools]
      · rw [if_neg eq]
        exact holds.active digest

theorem activeTools_of_admitAll (keyed : Keyed rows)
    (inactive : Inactive rows) (distinct : (winners.map Candidate.digest).Nodup)
    (finished : admitAll request authority rows winners = .ok admission) :
    ActiveTools (sortCanonical winners) admission := by
  have sorted : ((sortCanonical winners).map Candidate.digest).Nodup :=
    ((perm_sortBy canonical winners).map Candidate.digest).nodup_iff.mpr distinct
  refine (of_foldlM_except finished).prefix_induction ActiveTools ?_ ?_
  · refine ⟨keyed, ?_, by simp⟩
    intro digest
    constructor
    · rintro ⟨row, hit, isActive⟩
      exact absurd isActive (inactive digest row hit)
    · intro mem
      simp at mem
  · intro read candidate rest before after split holds stepped
    refine holds.admitCandidate ?_ stepped
    rw [split, map_append, nodup_append] at sorted
    intro prior
    exact sorted.2.2 _ prior candidate.digest (by simp) rfl

theorem ActiveTools.activeRows_eq (holds : ActiveTools read admission) :
    activeRows (admission.rows.toList.map snd) = admission.tools.size := by
  -- both sides count the same set of digests, each listed once
  let activeEntries := admission.rows.toList.filter fun entry => entry.2.state = .active
  have counted : activeRows (admission.rows.toList.map snd) = (activeEntries.map fst).length := by
    rw [activeRows, List.filter_map, length_map, length_map]
    rfl
  have distinctRows : (activeEntries.map fst).Nodup := by
    refine List.Nodup.sublist (filter_sublist.map fst) ?_
    rw [map_fst_toList_eq_keys]
    exact nodup_keys
  have sameDigests : ∀ digest, digest ∈ activeEntries.map fst ↔ digest ∈ admission.tools.keys := by
    intro digest
    rw [TreeMap.mem_keys, ← holds.active digest]
    constructor
    · intro mem
      obtain ⟨⟨key, row⟩, inRows, rfl⟩ := List.mem_map.mp mem
      obtain ⟨inList, isActive⟩ := mem_filter.mp inRows
      exact ⟨row, mem_toList_iff_getElem?_eq_some.mp inList, by simpa using isActive⟩
    · rintro ⟨row, hit, isActive⟩
      refine List.mem_map.mpr ⟨(digest, row), mem_filter.mpr ⟨?_, by simpa using isActive⟩, rfl⟩
      exact mem_toList_iff_getElem?_eq_some.mpr hit
  rw [counted, ((perm_ext_iff_of_nodup distinctRows nodup_keys).mpr
    sameDigests).length_eq, length_keys]

/-! ## The record -/

theorem draftManifest_eq_ok
    (drafted : draftManifest request route authority admission = .ok draft) :
    draft.participations.asSlice = admission.rows.toList.map snd ∧
      draft.sourceCount.value.toNat = admission.tools.size ∧
      draft.evidenceIds.asSlice = sortDedup request.evidence := by
  simp only [draftManifest, liftBound] at drafted
  obtain ⟨active, counted, drafted⟩ := bind_ok.mp drafted
  obtain ⟨sourceCount, bounded, drafted⟩ := bind_ok.mp drafted
  obtain ⟨participations, recorded, drafted⟩ := bind_ok.mp drafted
  obtain ⟨evidenceIds, cited, drafted⟩ := bind_ok.mp drafted
  obtain rfl := ok.inj drafted
  rw [mapError_ok] at counted bounded recorded cited
  refine ⟨?_, ?_, ?_⟩
  · unfold ParticipationRecords.new at recorded
    split at recorded
    · split at recorded
      · cases recorded
      · obtain rfl := ok.inj recorded
        rfl
    · cases recorded
  · unfold countOfLen at counted
    unfold RecordCount.new at bounded
    split at counted
    · next fits =>
        split at bounded
        · obtain rfl := ok.inj bounded
          obtain rfl := ok.inj counted
          exact UInt32.toNat_ofNat_of_lt' fits
        · cases bounded
    · cases counted
  · unfold EvidenceRefs.new at cited
    split at cited
    · split at cited
      · obtain rfl := ok.inj cited
        rfl
      · cases cited
    · cases cited

section

variable (succeeded : compile encoding request route authority candidates = .ok compiled)
include succeeded

theorem compile_eq_ok :
    ∃ decided admission draft digest, validateFrom ∅ (sortCanonical candidates) = .ok () ∧
      decideAll (sortCanonical candidates) = .ok decided ∧
      admitAll request authority decided.1 decided.2 = .ok admission ∧
      draftManifest request route authority admission = .ok draft ∧
      manifestDigest encoding draft = .ok digest ∧
      compiled.manifest = { draft with manifestDigest := digest } := by
  simp only [compile] at succeeded
  obtain ⟨⟨⟩, valid, succeeded⟩ := bind_ok.mp succeeded
  obtain ⟨decided, resolved, succeeded⟩ := bind_ok.mp succeeded
  obtain ⟨admission, admitted, succeeded⟩ := bind_ok.mp succeeded
  obtain ⟨⟨⟩, -, succeeded⟩ := bind_ok.mp succeeded
  obtain ⟨⟨⟩, -, succeeded⟩ := bind_ok.mp succeeded
  obtain ⟨draft, drafted, succeeded⟩ := bind_ok.mp succeeded
  obtain ⟨digest, digested, succeeded⟩ := bind_ok.mp succeeded
  obtain rfl := ok.inj succeeded
  exact ⟨decided, admission, draft, digest, valid, resolved, admitted, drafted, digested, rfl⟩

theorem verifyManifest_of_compile : Verifier.verifyManifest encoding compiled.manifest = .ok () ∧
      compiled.manifest.evidenceIds.asSlice = sortDedup request.evidence := by
  obtain ⟨decided, admission, draft, digest, valid, resolved, admitted, drafted, digested, eq⟩ :=
    compile_eq_ok succeeded
  obtain ⟨slots, bySlot⟩ := decided_of_decideAll resolved
  have tools := activeTools_of_admitAll bySlot.unadmitted.keyed bySlot.unadmitted.inactive
    (winners_nodup (validateFrom_nodup valid).1 bySlot) admitted
  obtain ⟨rows, count, evidence⟩ := draftManifest_eq_ok drafted
  rw [eq]
  refine ⟨?_, evidence⟩
  have ordered : Verifier.rowsAreOrderedAndUnique draft.participations.asSlice = .ok () := by
    rw [rows]
    exact ascending_of_pairwise _ _ _ _ tools.keyed.pairwise_digests
  have counted : draft.sourceCount.value.toNat =
      Verifier.activeRows draft.participations.asSlice := by
    rw [rows, count, tools.activeRows_eq]
  have cited : Verifier.evidenceIsOrderedAndUnique draft.evidenceIds.asSlice = .ok () := by
    rw [evidence]
    exact ascending_of_pairwise _ _ _ _ (pairwise_lt_sortDedup request.evidence)
  refine bind_ok.mpr ⟨digest, verifier_manifestDigest_of_compiler digested, ?_⟩
  refine bind_ok.mpr ⟨(), require_ok.mpr rfl, ?_⟩
  refine bind_ok.mpr ⟨(), ordered, ?_⟩
  exact bind_ok.mpr ⟨(), require_ok.mpr counted, cited⟩

end

def manifestPackage (manifest : ResolvedManifest) : Verifier.Package where
  manifest := manifest
  release := none
  observations := []
  finalization := none

/-- **The verifier accepts what the compiler emits.**  For every input on which the
compile succeeds, the manifest verifies, and so does the package that holds it without
supplements, against every store that holds the request's evidence. -/
theorem verify_of_compile (encoding : Encoding) (request : CompileRequest) (route : Route)
    (authority : Authority) (candidates : List Candidate) (compiled : Compiled)
    (succeeded : compile encoding request route authority candidates = .ok compiled) :
    Verifier.verifyManifest encoding compiled.manifest = .ok () ∧
      ∀ knownEvidence : TreeSet EvidenceId, (∀ id ∈ request.evidence, id ∈ knownEvidence) →
        Verifier.verify encoding (manifestPackage compiled.manifest) knownEvidence = .ok () := by
  obtain ⟨verified, evidence⟩ := verifyManifest_of_compile succeeded
  refine ⟨verified, fun knownEvidence known => ?_⟩
  refine bind_ok.mpr ⟨(), verified, ?_⟩
  refine bind_ok.mpr ⟨(), rfl, bind_ok.mpr ⟨(), rfl, bind_ok.mpr ⟨(), rfl, ?_⟩⟩⟩
  rw [forM_ok]
  intro id cited
  have inManifest : id ∈ compiled.manifest.evidenceIds.asSlice := by
    simpa [Verifier.citedEvidence, manifestPackage] using cited
  rw [evidence] at inManifest
  exact require_ok.mpr (known id (mem_of_mem_sortDedup inManifest))

/-! ## A compile with a loser and a cut -/

def sampleDigest (digit : Char)
    (legal : isSha256Hex (String.ofList (List.replicate 64 digit)) = true) :
    Digest :=
  ⟨String.ofList (List.replicate 64 digit), legal⟩

def sampleCandidate (digest : Digest) (slot : String) (tier : PrecedenceTier) (bytes : ByteCount) :
    Candidate where
  digest := digest
  contentClass := .conformance
  slot := slot
  tier := tier
  bytes := bytes
  claimedTools := ["read", "write"]
  standing := .ready

/-- One slot with a winner and a loser, one slot whose winner exceeds the budget, and
evidence cited twice and out of order. -/
def sampleRequest : CompileRequest where
  manifestId := ⟨"m-1", by decide⟩
  attemptId := "a-1"
  resolvedAt := "2026-07-27T00:00:00Z"
  budget := some 10
  evidence := ["ev-b", "ev-a", "ev-b"]

def sampleCandidates : List Candidate :=
  [sampleCandidate (sampleDigest 'c' (by decide)) "style" PrecedenceTier.annotation 1,
   sampleCandidate (sampleDigest 'a' (by decide)) "style" .routeConfig 4,
   sampleCandidate (sampleDigest 'b' (by decide)) "memory" PrecedenceTier.annotation 7]

/-- A manifest is told by the size of its sources and its identifier. -/
def sampleEncoding : Encoding where
  toVec manifest := .ok (manifest.sourceBytes.toUInt8 :: manifest.id.text.toList.map (·.toUInt8))
  sha256 bytes := Vector.ofFn fun place => bytes.getD place 0

def sampleRoute : Route := ⟨sampleDigest '1' (by decide)⟩

def sampleAuthority : Authority := ⟨sampleDigest '2' (by decide), TreeSet.ofList ["read"]⟩

theorem compile_sample : ∃ compiled : Compiled,
    compile sampleEncoding sampleRequest sampleRoute sampleAuthority sampleCandidates =
      .ok compiled :=
  ⟨_, rfl⟩

/-- The theorem applies to a compile that admits one candidate, loses one and cuts
one. -/
theorem verify_of_compile_sample : ∃ compiled : Compiled,
    compile sampleEncoding sampleRequest sampleRoute sampleAuthority sampleCandidates =
      .ok compiled ∧
    Verifier.verifyManifest sampleEncoding compiled.manifest = .ok () ∧
    ∀ knownEvidence : TreeSet EvidenceId, (∀ id ∈ sampleRequest.evidence, id ∈ knownEvidence) →
      Verifier.verify sampleEncoding (manifestPackage compiled.manifest)
        knownEvidence = .ok () := by
  obtain ⟨compiled, succeeded⟩ := compile_sample
  exact ⟨compiled, succeeded, verify_of_compile sampleEncoding sampleRequest sampleRoute
    sampleAuthority sampleCandidates compiled succeeded⟩

end Gridwork.Context
