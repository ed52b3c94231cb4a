import Mathlib
import Gridwork.Lib.Text
import Gridwork.Pty.Attach

/-!
# One generation, one lifetime

A session's generation names the claim that opened it.  `perform_turn` says what one verb can do to
a session that is there, and who has to call it: only the owner's own verbs change or end it.
`perform_lineage` says where a session that is there after a verb comes from: from the
session before it, or from a claim, which takes a number no earlier claim took.
`generations_never_repeat` is the result for all boots of the daemon.
-/

namespace Gridwork.Pty.PtyHub

open Domain Lib List Option AList

/-! ## What a verb does to a session, and whose verb it is -/

variable {hub final : PtyHub} {id target : PtySessionId} {session other first last next : Session}
  {action : Action} {generation : PtySessionGeneration} {step : PtyHub → Action → PtyHub → Prop}
  {actions : List Action} {counter counter' value : UInt64}

theorem turn_put (hit : hub.sessions.lookup id = some session)
    (entry : hub.sessions.lookup target = some other)
    (turn : Turn target other action (some next)) :
    Turn id session action ((hub.put target next).sessions.lookup id) := by
  rw [lookup_put]
  by_cases isTarget : id = target
  · subst isTarget
    rw [hit] at entry
    cases entry
    rw [if_pos rfl]
    exact turn
  · rw [if_neg isTarget, hit]
    exact .eq

theorem exists_of_mem_keysWhere {Key Row : Type} [DecidableEq Key] {table : Table Key Row}
    {condition : Row → Bool} {key : Key} (mem : key ∈ keysWhere table condition) :
    ∃ row, table.lookup key = some row ∧ condition row := by
  obtain ⟨entry, kept, rfl⟩ := List.mem_map.mp mem
  obtain ⟨isEntry, holds⟩ := mem_filter.mp kept
  exact ⟨entry.2, mem_lookup_iff.mpr isEntry, holds⟩

/-- **What one verb can do to a session.** -/
theorem perform_turn (hit : hub.sessions.lookup id = some session) (action : Action) :
    Turn id session action ((hub.perform action).sessions.lookup id) := by
  have effect := perform_effect hub action
  generalize hub.perform action = after at effect ⊢
  cases effect with
  | refused => exact hit ▸ .eq
  | @claimed conn target seq frame rows cols cells generation counter absent decoded numbered =>
    have other : id ≠ target := by
      rintro rfl
      rw [hit] at absent
      cases absent
    have kept : (hub.put target (opened conn generation seq cells frame.cursor)).sessions.lookup
        id = some session := by
      rw [lookup_put, if_neg other, hit]
    exact kept ▸ .eq
  | moved entry changed turn => exact turn_put hit entry turn
  | @retired target other entry =>
    by_cases isTarget : id = target
    · subst isTarget
      rw [hit] at entry
      cases entry
      rw [lookup_erase]
      exact .retired
    · rw [lookup_erase_ne isTarget, hit]
      exact .eq
  | @disconnected conn =>
    simp only [disconnect, Table.lookup_eraseAll]
    by_cases claimed : id ∈ keysWhere hub.sessions fun session => session.owner = conn
    · obtain ⟨other, entry, owns⟩ := exists_of_mem_keysWhere claimed
      rw [hit] at entry
      cases entry
      cases of_decide_eq_true owns
      rw [if_pos claimed]
      exact .disconnected
    · rw [if_neg claimed, hit]
      exact .eq

/-! ## Where a session comes from -/

theorem Turn.generation_eq
    (turn : Turn id session action (some next)) : next.generation = session.generation := by
  cases turn with
  | eq => rfl
  | reseed decoded fits forward sameSize => exact generation_reseeded ..
  | deltas fits forward checked | raw => rfl

def generationOf (writerEpoch : WriterEpoch) (counter : UInt64) : PtySessionGeneration :=
  s!"{writerEpoch}:{counter}"

theorem generationOf_inj {epoch epoch' : WriterEpoch}
    (eq : generationOf epoch counter = generationOf epoch' counter') :
    epoch = epoch' ∧ counter = counter' := by
  have chars := congrArg String.toList eq
  simp only [generationOf, String.toList_append, append_assoc] at chars
  obtain ⟨epochs, counters⟩ := append_cons_inj (colon_notMem_toString epoch.toNat)
    (colon_notMem_toString epoch'.toNat) chars
  have inj {value other : UInt64} (chars : (toString value).toList = (toString other).toList) :
      value = other :=
    UInt64.toNat_inj.mp (Nat.repr_inj.mp (String.toList_inj.mp chars))
  exact ⟨inj epochs, inj counters⟩

/-- What a claim does: it takes the next number, and opens the session under it. -/
structure Claims (hub : PtyHub) (id : PtySessionId) (action : Action) (session : Session) :
    Prop where
  absent : hub.sessions.lookup id = none
  claim : ∃ conn seq frame rows cols cells counter,
    action = .publishSnapshot conn id seq frame ∧
    strictFrame frame = .ok (rows, cols, cells) ∧
    checkedSucc hub.generations = some counter ∧
    (hub.perform action).generations = counter ∧
    session = opened conn (generationOf hub.writerEpoch counter) seq cells frame.cursor

theorem nextGeneration_eq_ok (numbered : hub.nextGeneration = .ok (generation, counter)) :
    checkedSucc hub.generations = some counter ∧
      generation = generationOf hub.writerEpoch counter := by
  unfold nextGeneration at numbered
  split at numbered
  next counter succeeded =>
    cases numbered
    exact ⟨succeeded, rfl⟩
  next => cases numbered

/-- **Where a session comes from.** -/
theorem perform_lineage (hit : (hub.perform action).sessions.lookup id = some session) :
    (∃ prior, hub.sessions.lookup id = some prior ∧ Turn id prior action (some session)) ∨
      Claims hub id action session := by
  cases entry : hub.sessions.lookup id with
  | some prior => exact .inl ⟨prior, rfl, hit ▸ perform_turn entry action⟩
  | none =>
    refine .inr ⟨entry, ?_⟩
    have effect := perform_effect hub action
    generalize hub.perform action = after at effect hit ⊢
    cases effect with
    | refused =>
      rw [entry] at hit
      cases hit
    | @claimed conn target seq frame rows cols cells generation counter absent decoded numbered =>
      have opens : (hub.put target (opened conn generation seq cells frame.cursor)).sessions.lookup
          id = some session := hit
      obtain ⟨succeeded, rfl⟩ := nextGeneration_eq_ok numbered
      rw [lookup_put] at opens
      split at opens
      next isTarget =>
        subst isTarget
        exact ⟨conn, seq, frame, rows, cols, cells, counter, rfl, decoded, succeeded, rfl,
          (some.inj opens).symm⟩
      next =>
        rw [entry] at opens
        cases opens
    | @moved action target other next there changed turn =>
      have ne : id ≠ target := by
        rintro rfl
        rw [entry] at there
        cases there
      rw [lookup_put, if_neg ne, entry] at hit
      cases hit
    | @retired target other there =>
      have ne : id ≠ target := by
        rintro rfl
        rw [entry] at there
        cases there
      rw [lookup_erase_ne ne, entry] at hit
      cases hit
    | disconnected =>
      simp only [disconnect, Table.lookup_eraseAll, entry, ite_self] at hit
      cases hit

/-! ## Numbers of claims -/

theorem lt_of_checkedSucc {next : UInt64} (succeeded : checkedSucc value = some next) :
    value < next := by
  have succ := (checkedSucc64_some value next).mp succeeded
  rw [UInt64.lt_iff_toNat_lt]
  omega

theorem numbering_perform (hub : PtyHub) (action : Action) :
    hub.generations ≤ (hub.perform action).generations ∧
      (hub.perform action).writerEpoch = hub.writerEpoch := by
  have effect := perform_effect hub action
  generalize hub.perform action = after at effect ⊢
  cases effect with
  | claimed absent decoded numbered =>
    exact ⟨le_of_lt (lt_of_checkedSucc (nextGeneration_eq_ok numbered).1), rfl⟩
  | _ => exact ⟨le_refl _, rfl⟩

/-- Every session's generation carries the number of a claim already made. -/
def Numbered (hub : PtyHub) : Prop :=
  ∀ id session, hub.sessions.lookup id = some session →
    ∃ counter ≤ hub.generations, session.generation = generationOf hub.writerEpoch counter

theorem Numbered.perform (numbered : hub.Numbered) (action : Action) :
    (hub.perform action).Numbered := by
  intro id session hit
  obtain ⟨grows, sameEpoch⟩ := numbering_perform hub action
  rw [sameEpoch]
  rcases perform_lineage hit with ⟨prior, entry, turn⟩ | ⟨-, claim⟩
  · obtain ⟨counter, atMost, generation⟩ := numbered id prior entry
    exact ⟨counter, atMost.trans grows, turn.generation_eq.trans generation⟩
  · obtain ⟨conn, seq, frame, rows, cols, cells, counter, -, -, -, reached, rfl⟩ := claim
    exact ⟨counter, reached.ge, rfl⟩

theorem numbered_reached (writerEpoch : WriterEpoch) (history : List Action) :
    (reached writerEpoch history).Numbered := by
  refine (Run.of_foldl perform history (PtyHub.new writerEpoch)).invariant_induction Numbered ?_ ?_
  · intro id session hit
    cases hit
  · rintro action - before after numbered rfl
    exact numbered.perform action

/-! ## Lifetimes -/

/-- **One generation is one lifetime.**  An invariant of the verbs so far, the hub and a session in
it, which every turn of the session keeps along a run, holds of the session at the end when it
carries the generation of the session at the start: the run did not end that session,
since a later claim has another number. -/
theorem lifetime_prefix_induction (invariant : List Action → PtyHub → Session → Prop)
    (performs : ∀ before action after, step before action after → before.perform action = after)
    (run : Run step hub actions final)
    (numbered : hub.Numbered) (hit : hub.sessions.lookup id = some first)
    (foundLast : final.sessions.lookup id = some last)
    (eq : last.generation = first.generation) (initially : invariant [] hub first)
    (preserved : ∀ read action rest before after session next,
      actions = read ++ action :: rest → step before action after →
      before.sessions.lookup id = some session → after.sessions.lookup id = some next →
      Turn id session action (some next) → invariant read before session →
      invariant (read ++ [action]) after next) : invariant actions final last := by
  obtain ⟨counter, atMost, generation⟩ := numbered id first hit
  have holds : counter ≤ final.generations ∧ ∀ session, final.sessions.lookup id = some session →
      session.generation = first.generation → invariant actions final session := by
    refine run.prefix_induction (fun read state => counter ≤ state.generations ∧ ∀ session,
      state.sessions.lookup id = some session → session.generation = first.generation →
        invariant read state session) ?_ ?_
    · refine ⟨atMost, ?_⟩
      rintro session isSession -
      rw [hit] at isSession
      cases isSession
      exact initially
    · rintro read action rest before after split ⟨counted, earlierOn⟩ stepped
      obtain rfl := performs before action after stepped
      refine ⟨counted.trans (numbering_perform before action).1, ?_⟩
      intro session isSession sameGeneration
      rcases perform_lineage isSession with ⟨prior, entry, turn⟩ | ⟨-, claim⟩
      · exact preserved read action rest before _ prior session split stepped entry isSession turn
          (earlierOn prior entry (turn.generation_eq.symm.trans sameGeneration))
      · -- a claim in between took a later number
        obtain ⟨conn, seq, frame, rows, cols, cells, other, -, -, succeeded, -, rfl⟩ := claim
        have sameNumber : other = counter :=
          (generationOf_inj (sameGeneration.trans generation)).2
        rw [sameNumber] at succeeded
        exact absurd counted (not_le_of_gt (lt_of_checkedSucc succeeded))
  exact holds.2 last foundLast eq

theorem lifetime_induction
    (related : Session → Session → Prop) (refl : ∀ session, related session session)
    (trans : ∀ first second third, related first second → related second third →
      related first third)
    (performs : ∀ before action after, step before action after → before.perform action = after)
    (keeps : ∀ before action after session next, step before action after →
      before.sessions.lookup id = some session → Turn id session action (some next) →
      related session next)
    (run : Run step hub actions final)
    (numbered : hub.Numbered) (hit : hub.sessions.lookup id = some first)
    (foundLast : final.sessions.lookup id = some last)
    (eq : last.generation = first.generation) : related first last := by
  refine lifetime_prefix_induction (fun _ _ session => related first session) performs run numbered
    hit foundLast eq (refl first) ?_
  intro read action rest before after session next split stepped entry _ turn prior
  exact trans first session next prior (keeps before action after session next stepped entry turn)

/-! ## Generations across restarts -/

/-- The generation of the session that a verb opens. -/
def opens (hub : PtyHub) (action : Action) : Option PtySessionGeneration :=
  match action with
  | .publishSnapshot _ id _ _ =>
    if hub.sessions.lookup id = none then
      ((hub.perform action).sessions.lookup id).map (·.generation)
    else none
  | _ => none

theorem opens_eq_some (isOpened : hub.opens action = some generation) :
    hub.generations < (hub.perform action).generations ∧
      generation = generationOf hub.writerEpoch (hub.perform action).generations := by
  unfold opens at isOpened
  split at isOpened
  next conn id seq frame =>
    split_ifs at isOpened with absent
    obtain ⟨session, hit, rfl⟩ := map_eq_some_iff.mp isOpened
    rcases perform_lineage hit with ⟨prior, entry, -⟩ | ⟨-, claim⟩
    · rw [absent] at entry
      cases entry
    · obtain ⟨-, -, -, -, -, -, counter, -, -, succeeded, reached, rfl⟩ := claim
      rw [reached]
      exact ⟨lt_of_checkedSucc succeeded, rfl⟩
  next => cases isOpened

theorem numbering_foldl (hub : PtyHub) (history : List Action) :
    hub.generations ≤ (history.foldl perform hub).generations ∧
      (history.foldl perform hub).writerEpoch = hub.writerEpoch := by
  induction history generalizing hub with
  | nil => exact ⟨le_refl _, rfl⟩
  | cons action rest ih =>
    obtain ⟨grows, sameEpoch⟩ := numbering_perform hub action
    obtain ⟨further, stillSame⟩ := ih (hub.perform action)
    exact ⟨grows.trans further, stillSame.trans sameEpoch⟩

theorem publishSnapshot_exhausted
    (exhausted : hub.generations.toNat = 2 ^ 64 - 1) (absent : hub.sessions.lookup id = none)
    (conn : ConnectionId) (seq : Option UInt64) (frame : PtyFrame) :
    ∃ refusal, hub.publishSnapshot conn id seq frame = (.error refusal, hub) := by
  have full : checkedSucc hub.generations = none := by
    refine eq_none_iff_forall_ne_some.mpr fun next succeeded => ?_
    have succ := (checkedSucc64_some _ next).mp succeeded
    have bound := next.toNat_lt
    omega
  unfold publishSnapshot
  cases checked : hub.checkSnapshot conn id seq frame with
  | error refusal => exact ⟨refusal, rfl⟩
  | ok value =>
    simp only [checkSnapshot, absent, nextGeneration, full, bind_ok] at checked
    simp at checked

/-- **Generations never repeat.**  The sessions that one boot opens at two points of its history
have different generations, and so have those of two boots, as a boot after a restart has a larger
epoch.  A claim that finds the counter at its end is refused, and the hub stays as it was. -/
theorem generations_never_repeat :
    (∀ (epoch : WriterEpoch) (history between : List Action) (action later : Action),
      ∀ generation ∈ (reached epoch history).opens action,
        generation ∉ (reached epoch (history ++ action :: between)).opens later) ∧
      (∀ (epoch next : WriterEpoch) (history after : List Action) (action later : Action),
        epoch < next → ∀ generation ∈ (reached epoch history).opens action,
          generation ∉ (reached next after).opens later) ∧
      ∀ (hub : PtyHub) (conn : ConnectionId) (id : PtySessionId) (seq : Option UInt64)
        (frame : PtyFrame), hub.generations.toNat = 2 ^ 64 - 1 → hub.sessions.lookup id = none →
        ∃ refusal, hub.publishSnapshot conn id seq frame = (.error refusal, hub) := by
  refine ⟨?_, ?_, fun hub conn id seq frame full absent =>
    publishSnapshot_exhausted full absent conn seq frame⟩
  · intro epoch history between action later generation isOpened again
    obtain ⟨-, rfl⟩ := opens_eq_some isOpened
    obtain ⟨above, eq⟩ := opens_eq_some again
    -- the counter never falls between the two claims
    have grows := (numbering_foldl ((reached epoch history).perform action) between).1
    have atLeast : ((reached epoch history).perform action).generations ≤
        (reached epoch (history ++ action :: between)).generations := by
      simpa only [reached, foldl_append, foldl_cons] using grows
    rw [(generationOf_inj eq).2] at atLeast
    exact absurd above (not_lt_of_ge atLeast)
  · intro epoch next history after action later smaller generation isOpened again
    obtain ⟨-, rfl⟩ := opens_eq_some isOpened
    obtain ⟨-, eq⟩ := opens_eq_some again
    have epochs := (generationOf_inj eq).1
    rw [reached, reached, (numbering_foldl _ _).2, (numbering_foldl _ _).2] at epochs
    exact absurd epochs (ne_of_lt smaller)

end Gridwork.Pty.PtyHub
