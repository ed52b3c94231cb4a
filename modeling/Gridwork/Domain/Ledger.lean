import Gridwork.Domain.Transition
import Gridwork.Lib.Run

/-!
# Runs of the transition function

`apply` decides one call.  A `Ledger` is the cursor of one aggregate with the answers it has given
under a key: the storage layer answers a repeated key from them and asks `apply` for every other
call.  `runs_lawful` says what holds of every sequence of calls on every machine.
-/

namespace Gridwork.Domain

open Lib List Option

/-! ## Calls -/

/-- An aggregate's cursor, and the first answer given under each key. -/
structure Ledger (S : Type) where
  cursor : Cursor S
  answers : List (IdempotencyKey × TransitionResult S)

namespace Ledger

variable {S : Type} [DecidableEq S] [TransitionGuard S] (ledger : Ledger S)
  (req : TransitionRequest S)

def remembered : Option (TransitionResult S) :=
  req.idempotencyKey.bind fun key => ledger.answers.lookup key

/-- The call moves the cursor: its key is new, `apply` answers it, and not by an echo. -/
def Applies : Prop :=
  ledger.remembered req = none ∧ isEcho ledger.cursor req = false ∧
    ∃ version, apply ledger.cursor req = .applied req.target version

def answer : TransitionResult S :=
  (ledger.remembered req).getD (apply ledger.cursor req)

/-- Where an answer of `apply` leaves the cursor. -/
def moved : TransitionResult S → Cursor S
  | .applied state version =>
    if isEcho ledger.cursor req then ledger.cursor
    else
      { state, version, appliedIdempotencyKey := req.idempotencyKey, appliedBy := some req.actor }
  | _ => ledger.cursor

/-- One call. -/
def call : Ledger S :=
  match ledger.remembered req with
  | some _ => ledger
  | none =>
    { cursor := ledger.moved req (apply ledger.cursor req)
      answers := ledger.answers ++
        (req.idempotencyKey.map fun key => (key, apply ledger.cursor req)).toList }

/-- The ledger a sequence of calls leaves. -/
def after (calls : List (TransitionRequest S)) : Ledger S :=
  calls.foldl call ledger

end Ledger

section Steps

variable {S : Type} [DecidableEq S] [TransitionGuard S] {ledger : Ledger S}
  {req other again : TransitionRequest S} {given : TransitionResult S}

/-- What `apply` checks before it moves a cursor. -/
structure Advances (cursor : Cursor S) (req : TransitionRequest S) (version : UInt32) : Prop where
  guarded : TransitionGuard.guard cursor.state req.target ⟨req.actor, req.receiptId⟩ = .ok ()
  legal : StateMachine.canTransition cursor.state req.target = true
  current : cursor.version = req.expectedVersion
  next : version.toNat = cursor.version.toNat + 1

theorem advances_of_applied {state : S} {version : UInt32}
    (answered : apply ledger.cursor req = .applied state version)
    (fresh : isEcho ledger.cursor req = false) :
    state = req.target ∧ Advances ledger.cursor req version := by
  unfold apply at answered
  split at answered
  · cases answered
  next guarded =>
    rw [if_neg (by simp [fresh])] at answered
    split at answered
    · cases answered
    next legal =>
      split at answered
      · cases answered
      next current =>
        have current : ledger.cursor.version = req.expectedVersion := not_not.mp current
        split at answered
        · cases answered
        next next succeeds =>
          cases answered
          refine ⟨rfl, guarded, by simpa using legal, current, ?_⟩
          rw [current]
          exact (checkedSucc_some _ _).mp succeeds

theorem Ledger.call_cursor_of_not (still : ¬ ledger.Applies req) :
    (ledger.call req).cursor = ledger.cursor := by
  unfold call
  split
  · rfl
  next unknown =>
    simp only [moved]
    split
    next state version answered =>
      split
      · rfl
      next fresh =>
        have fresh : isEcho ledger.cursor req = false := by simpa using fresh
        obtain ⟨rfl, -⟩ := advances_of_applied answered fresh
        exact absurd ⟨unknown, fresh, version, answered⟩ still
    · rfl

theorem Ledger.Applies.advances (applies : ledger.Applies req) :
    (ledger.call req).cursor.state = req.target ∧
      Advances ledger.cursor req (ledger.call req).cursor.version := by
  obtain ⟨unknown, fresh, version, answered⟩ := applies
  obtain ⟨-, moves⟩ := advances_of_applied answered fresh
  have after : (ledger.call req).cursor = {
      state := req.target, version, appliedIdempotencyKey := req.idempotencyKey
      appliedBy := some req.actor } := by
    simp [call, unknown, moved, answered, fresh]
  rw [after]
  exact ⟨rfl, moves⟩

theorem Ledger.version_le (ledger : Ledger S) (calls : List (TransitionRequest S)) :
    ledger.cursor.version.toNat ≤ (ledger.after calls).cursor.version.toNat := by
  induction calls generalizing ledger with
  | nil => exact Nat.le_refl _
  | cons req calls ih =>
    refine Nat.le_trans ?_ (ih (ledger.call req))
    by_cases applies : ledger.Applies req
    · rw [applies.advances.2.next]
      exact Nat.le_succ _
    · rw [call_cursor_of_not applies]

theorem Ledger.remembered_call (known : ledger.remembered req = some given) :
    (ledger.call other).remembered req = some given := by
  unfold call
  split
  · exact known
  · obtain ⟨key, isKey, hit⟩ := bind_eq_some_iff.mp known
    rw [remembered, isKey, bind_some, lookup_append, hit]
    rfl

theorem Ledger.remembered_after (known : ledger.remembered req = some given)
    (calls : List (TransitionRequest S)) : (ledger.after calls).remembered req = some given := by
  induction calls generalizing ledger with
  | nil => exact known
  | cons other calls ih => exact ih (remembered_call known)

theorem Ledger.remembered_own {key : IdempotencyKey}
    (named : req.idempotencyKey = some key) (eq : again.idempotencyKey = some key) :
    (ledger.call req).remembered again = some (ledger.answer req) := by
  unfold call
  split
  next given known =>
    rw [answer, known, getD_some, ← known, remembered, remembered, named, eq]
  next unknown =>
    have absent : ledger.answers.lookup key = none := by
      rw [remembered, named] at unknown
      exact unknown
    rw [answer, unknown, getD_none, remembered, eq, bind_some, lookup_append, absent, named]
    simp

end Steps

/-! ## Runs -/

/-- The flip of an attempt between `running` and `blocked`. -/
def Machine.isFlip : (machine : Machine) → machine.State → machine.State → Bool
  | .attempt, source, target => AttemptState.isFlip source target
  | .task, _, _ | .message, _, _ | .command, _, _ => false

theorem Machine.guard_of_isFlip {machine : Machine} {source target : machine.State} {ctx : GuardCtx}
    (flips : machine.isFlip source target = true)
    (guarded : TransitionGuard.guard source target ctx = .ok ()) :
    ctx.actor.kind = LIVENESS_PRODUCER_KIND ∧ receiptMissing ctx.receiptId = false := by
  cases machine with
  | attempt =>
    have flips : AttemptState.isFlip source target = true := flips
    simp only [TransitionGuard.guard, flips, if_true] at guarded
    split at guarded
    · cases guarded
    next producer =>
      split at guarded
      · cases guarded
      next receipted => exact ⟨not_not.mp producer, by simpa using receipted⟩
  | _ => cases flips

/-- What holds of a sequence of calls. -/
structure RunLaw {machine : Machine} (start : Ledger machine.State)
    (calls : List (TransitionRequest machine.State)) : Prop where
  /-- The version rises by one with a call that is applied. -/
  counts : ∀ before req later, calls = before ++ req :: later →
    (start.after before).Applies req →
      ((start.after before).call req).cursor.version.toNat =
        (start.after before).cursor.version.toNat + 1
  /-- Any other call leaves the cursor. -/
  still : ∀ before req later, calls = before ++ req :: later →
    ¬ (start.after before).Applies req →
      ((start.after before).call req).cursor = (start.after before).cursor
  /-- A repeated key gets its first answer, and the cursor stays. -/
  echoes : ∀ before first between again later key,
    calls = before ++ first :: between ++ again :: later →
    first.idempotencyKey = some key → again.idempotencyKey = some key →
      (start.after (before ++ first :: between)).answer again = (start.after before).answer first ∧
      (start.after (before ++ first :: between)).call again =
        start.after (before ++ first :: between)
  /-- Nothing leaves a terminal state. -/
  terminal : ∀ before req later, calls = before ++ req :: later →
    StateMachine.isTerminal (start.after before).cursor.state = true →
      ¬ (start.after before).Applies req
  /-- A flip was made by the liveness producer, with a receipt. -/
  flips : ∀ before req later, calls = before ++ req :: later → (start.after before).Applies req →
    machine.isFlip (start.after before).cursor.state req.target = true →
      req.actor.kind = LIVENESS_PRODUCER_KIND ∧
        ∃ receipt, req.receiptId = some receipt ∧ receipt.isEmpty = false
  /-- Of two calls that expect one version, at most one is applied. -/
  single : ∀ before first between again later,
    calls = before ++ first :: between ++ again :: later →
    first.expectedVersion = again.expectedVersion → (start.after before).Applies first →
      ¬ (start.after (before ++ first :: between)).Applies again

/-- **Every sequence of calls on every machine keeps the law.** -/
theorem runs_lawful (machine : Machine) (start : Ledger machine.State)
    (calls : List (TransitionRequest machine.State)) : RunLaw start calls := by
  have onward (before : List (TransitionRequest machine.State))
      (first : TransitionRequest machine.State) (between : List (TransitionRequest machine.State)) :
      start.after (before ++ first :: between) =
        ((start.after before).call first).after between := by
    rw [Ledger.after, foldl_append]
    rfl
  constructor
  · intro before req later _ applies
    exact applies.advances.2.next
  · intro before req later _ still
    exact Ledger.call_cursor_of_not still
  · intro before first between again later key _ named eq
    have own : ((start.after before).call first).remembered again =
        some ((start.after before).answer first) :=
      Ledger.remembered_own named eq
    have known := Ledger.remembered_after own between
    rw [onward]
    refine ⟨?_, ?_⟩
    · rw [Ledger.answer, known]
      rfl
    · rw [Ledger.call, known]
  · rintro before req later _ terminal applies
    have edge := of_decide_eq_true applies.advances.2.legal
    rw [StateMachine.isTerminal, Bool.not_eq_true', List.any_eq_false] at terminal
    exact terminal _ edge (by simp)
  · intro before req later _ applies flips
    obtain ⟨producer, receipted⟩ := Machine.guard_of_isFlip flips applies.advances.2.guarded
    refine ⟨producer, ?_⟩
    cases receipt : req.receiptId with
    | none => simp [receiptMissing, receipt] at receipted
    | some given => exact ⟨given, rfl, by simpa [receiptMissing, receipt] using receipted⟩
  · intro before first between again later _ eq applies again
    have moved := applies.advances.2
    have rises := ((start.after before).call first).version_le between
    rw [onward] at again
    have current := congrArg UInt32.toNat again.advances.2.current
    rw [← eq, ← moved.current] at current
    rw [moved.next, current] at rises
    exact absurd rises (Nat.not_succ_le_self _)

end Gridwork.Domain
