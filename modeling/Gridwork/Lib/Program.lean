import Gridwork.Lib.Run
import Mathlib.Data.List.Infix
import Mathlib.Logic.Function.Basic

/-!
# Programs that share a state

A program is a tree of atomic operations: it performs one, gets a reply, and goes on from
there.  Several calls run at once over one state; each operation takes effect in one step, and
between two operations of a call the others may perform any number of theirs.

Properties of such a system are proved call by call.  A `Discipline` says what holds of the
shared state at all times, and for each call what it may rely on while others move.
`Program.Ensures` is the weakest precondition of a program under a discipline: every operation
it performs keeps the invariant and what the others rely on, and its answer meets the
postcondition.  If every call's program ensures as much, the invariant holds throughout every
run (`Discipline.Upheld.run`).
-/

namespace Gridwork.Lib

open List Function Option

/-- Atomic operations, each with the type of its reply. -/
structure Signature where
  Op : Type
  Reply : Op → Type

/-- Operations performed one after the other, each depending on the replies so far. -/
inductive Program (sig : Signature) (Answer : Type) : Type where
  | answer (result : Answer)
  | perform (op : sig.Op) (next : sig.Reply op → Program sig Answer)

namespace Program

variable {sig : Signature} {Answer Result : Type}

def andThen : Program sig Answer → (Answer → Program sig Result) → Program sig Result
  | answer result, rest => rest result
  | perform op next, rest => perform op fun reply => (next reply).andThen rest

end Program

open Program

def Fallible (sig : Signature) (ε Answer : Type) : Type :=
  Program sig (Except ε Answer)

namespace Fallible

variable {sig : Signature} {ε Answer Result Last : Type} {condition : Prop}

def andThen (first : Fallible sig ε Answer) (rest : Answer → Fallible sig ε Result) :
    Fallible sig ε Result :=
  Program.andThen first fun outcome =>
    match outcome with
    | .ok value => rest value
    | .error error => Program.answer (.error error)

instance : Monad (Fallible sig ε) where
  pure value := Program.answer (.ok value)
  bind := andThen

theorem bind_assoc (first : Fallible sig ε Answer)
    (second : Answer → Fallible sig ε Result) (third : Result → Fallible sig ε Last) :
    first >>= second >>= third = first >>= fun value => second value >>= third := by
  change andThen (andThen first _) _ = andThen first _
  induction first with
  | answer outcome =>
    cases outcome with
    | ok value | error error => rfl
  | perform verb next ih =>
    exact congrArg (perform verb) (funext ih)

theorem pure_bind (value : Answer) (next : Answer → Fallible sig ε Result) :
    pure value >>= next = next value :=
  rfl

def op (verb : sig.Op) : Fallible sig ε (sig.Reply verb) :=
  Program.perform verb fun reply => Program.answer (.ok reply)

def lift (outcome : Except ε Answer) : Fallible sig ε Answer :=
  Program.answer outcome

def check (condition : Prop) [Decidable condition] (error : ε) : Fallible sig ε Unit :=
  lift (require condition error)

def need (reply : Option Answer) (error : ε) : Fallible sig ε Answer :=
  lift (reply.elim (.error error) .ok)

def mapError {η : Type} (report : ε → η) (program : Fallible sig ε Answer) :
    Fallible sig η Answer :=
  Program.andThen program fun outcome => Program.answer (outcome.mapError report)

theorem lift_bind (value : Answer) (next : Answer → Fallible sig ε Result) :
    lift (.ok value) >>= next = next value :=
  rfl

theorem check_bind [Decidable condition] (holds : condition) (error : ε)
    (next : Unit → Fallible sig ε Result) : check condition error >>= next = next () := by
  rw [check, require, if_pos holds, lift_bind]

theorem need_bind (value : Answer) (error : ε) (next : Answer → Fallible sig ε Result) :
    need (some value) error >>= next = next value :=
  rfl

end Fallible

/-! ## Calls under way -/

section System

variable (sig : Signature) (State Call Answer Choice Env : Type)

/-- What the operations do, what else happens to the state, and the program of each call.  The
choice given to an operation is what the system does not determine. -/
structure System where
  exec : State → (op : sig.Op) → Choice → Option (sig.Reply op × State)
  disturb : State → Env → State
  code : Call → Program sig Answer

inductive Moment where
  | issued (index : Nat) (call : Call)
  | performed (index : Nat) (op : sig.Op) (reply : sig.Reply op)
  | returned (index : Nat) (call : Call) (answer : Answer)
  | stopped (index : Nat)

def Moment.index {sig : Signature} {Call Answer : Type} : Moment sig Call Answer → Nat
  | .issued index _ => index
  | .performed index _ _ => index
  | .returned index _ _ => index
  | .stopped index => index

/-- The state, the calls under way, and what happened so far, oldest first. -/
structure View where
  state : State
  running : Nat → Option Call
  history : List (Moment sig Call Answer)

/-- A view, with what each call under way has still to do. -/
structure Pool where
  view : View sig State Call Answer
  programs : Nat → Option (Program sig Answer)

inductive Act where
  | issue (call : Call)
  | perform (index : Nat) (choice : Choice)
  | finish (index : Nat)
  | stop (index : Nat)
  | outside (event : Env)

end System

section Steps

variable {sig : Signature}
  {State Call Answer Choice Env Result ε Result' Last η Answer' Item : Type}
  {system : System sig State Call Answer Choice Env} {call called : Call}
  {moment : Moment sig Call Answer} {choice : Choice} {state : State} {program : Program sig Result}
  {rest : Result → Fallible sig ε Result'} {verb : sig.Op} {error : ε} {among : sig.Op → Prop}
  {act : Act Call Choice Env} {acts : List (Act Call Choice Env)}
  {pool : Pool sig State Call Answer} {value : Result}
  {allowed : Pool sig State Call Answer → Act Call Choice Env → Bool}

namespace View

variable (view : View sig State Call Answer)

def start (state : State) : View sig State Call Answer :=
  ⟨state, fun _ => none, []⟩

def fresh : Nat :=
  view.history.length

def issue (call : Call) : View sig State Call Answer :=
  ⟨view.state, Function.update view.running view.fresh (some call),
    view.history ++ [.issued view.fresh call]⟩

def perform (index : Nat) (op : sig.Op) (reply : sig.Reply op) (after : State) :
    View sig State Call Answer :=
  ⟨after, view.running, view.history ++ [.performed index op reply]⟩

def finish (index : Nat) (call : Call) (answer : Answer) : View sig State Call Answer :=
  ⟨view.state, Function.update view.running index none,
    view.history ++ [.returned index call answer]⟩

def stop (index : Nat) : View sig State Call Answer :=
  ⟨view.state, Function.update view.running index none, view.history ++ [.stopped index]⟩

def disturb (after : State) : View sig State Call Answer :=
  ⟨after, view.running, view.history⟩

section Fresh

variable {view}

@[simp] theorem fresh_issue : (view.issue call).fresh = view.fresh + 1 := by
  simp [fresh, issue]

@[simp] theorem fresh_perform {index : Nat} {op : sig.Op} {reply : sig.Reply op} {after : State} :
    (view.perform index op reply after).fresh = view.fresh + 1 := by
  simp [fresh, perform]

@[simp] theorem fresh_finish {index : Nat} {answer : Answer} :
    (view.finish index call answer).fresh = view.fresh + 1 := by
  simp [fresh, finish]

@[simp] theorem fresh_stop {index : Nat} : (view.stop index).fresh = view.fresh + 1 := by
  simp [fresh, stop]

end Fresh

section Running

variable {view} {index other : Nat}

theorem running_of_ended (here : Function.update view.running index none other = some called) :
    view.running other = some called := by
  by_cases eq : other = index
  · rw [eq, update_self] at here
    cases here
  · rwa [update_of_ne eq] at here

theorem running_of_issue (old : other < view.fresh)
    (here : (view.issue call).running other = some called) : view.running other = some called := by
  rw [← here]
  exact (update_of_ne (Nat.ne_of_lt old) ..).symm

end Running

/-- Where only other moments were added, what was performed was so before. -/
theorem performed_of_aside {view later : View sig State Call Answer}
    {more : List (Moment sig Call Answer)} (appended : later.history = view.history ++ more)
    (unperformed : ∀ index op reply, .performed index op reply ∉ more) {index : Nat} {op : sig.Op}
    {reply : sig.Reply op} (hit : .performed index op reply ∈ later.history) :
    .performed index op reply ∈ view.history := by
  rw [appended, mem_append] at hit
  exact hit.resolve_right (unperformed index op reply)

/-- Calls under way or answered were issued, a call's index is the place of its issue, and what
happened belongs to calls issued before: the next index is new. -/
structure Orderly : Prop where
  issued : ∀ index call, view.running index = some call → .issued index call ∈ view.history
  answered : ∀ index call answer, .returned index call answer ∈ view.history →
    .issued index call ∈ view.history
  place : ∀ index call, .issued index call ∈ view.history →
    view.history[index]? = some (.issued index call)
  past : ∀ moment ∈ view.history, moment.index < view.fresh

namespace Orderly

theorem start (state : State) : (View.start state : View sig State Call Answer).Orderly :=
  ⟨fun _ _ hit => (by cases hit), fun _ _ _ hit => (by cases hit),
    fun _ _ hit => (by cases hit), fun _ hit => (by cases hit)⟩

variable {view}

theorem called_once (orderly : view.Orderly) {index : Nat} {other : Call}
    (first : .issued index call ∈ view.history) (second : .issued index other ∈ view.history) :
    call = other := by
  have eq := (orderly.place index call first).symm.trans (orderly.place index other second)
  cases eq
  rfl

theorem before (orderly : view.Orderly) {index : Nat}
    (here : view.running index = some call) : index < view.fresh :=
  orderly.past _ (orderly.issued index call here)

theorem unperformed (orderly : view.Orderly) (call : Call) (op : sig.Op) (reply : sig.Reply op) :
    .performed view.fresh op reply ∉ (view.issue call).history := by
  intro performed
  rcases mem_snoc.mp performed with prior | ⟨⟨⟩⟩
  exact absurd (orderly.past _ prior) (Nat.lt_irrefl _)

section Steps

variable (orderly : view.Orderly)

include orderly

theorem past_append (known : moment.index < view.history.length + 1) :
    ∀ other ∈ view.history ++ [moment], other.index < (view.history ++ [moment]).length := by
  intro other hit
  rw [length_append, length_singleton]
  rcases mem_snoc.mp hit with prior | rfl
  · exact Nat.lt_succ_of_lt (orderly.past other prior)
  · exact known

theorem answered_append (answers : ∀ index call answer, moment = .returned index call answer →
      .issued index call ∈ view.history) :
    ∀ index call answer, .returned index call answer ∈ view.history ++ [moment] →
      .issued index call ∈ view.history ++ [moment] := by
  intro index call answer hit
  rcases mem_snoc.mp hit with prior | last
  · exact mem_append_left _ (orderly.answered index call answer prior)
  · exact mem_append_left _ (answers index call answer last.symm)

theorem place_append {index : Nat} (hit : .issued index call ∈ view.history) :
    (view.history ++ [moment])[index]? = some (.issued index call) := by
  have known : index < view.history.length := orderly.past _ hit
  rw [getElem?_append_left known]
  exact orderly.place index call hit

theorem issue (call : Call) : (view.issue call).Orderly := by
  refine ⟨fun index other hit => ?_, orderly.answered_append nofun,
    fun index other hit => ?_, orderly.past_append (Nat.lt_succ_self _)⟩
  · by_cases eq : index = view.fresh
    · subst eq
      have new : (view.issue call).running view.fresh = some call := update_self ..
      rw [new] at hit
      cases hit
      exact mem_concat_self
    · have old : (view.issue call).running index = view.running index :=
        update_of_ne eq ..
      rw [old] at hit
      exact mem_append_left _ (orderly.issued index other hit)
  · rcases mem_snoc.mp hit with prior | ⟨⟨⟩⟩
    · exact orderly.place_append prior
    · exact getElem?_concat_length

theorem place_ending (ending : ∀ index call, moment ≠ .issued index call) :
    ∀ index call, .issued index call ∈ view.history ++ [moment] →
      (view.history ++ [moment])[index]? = some (.issued index call) := by
  intro index call hit
  rcases mem_snoc.mp hit with prior | last
  · exact orderly.place_append prior
  · exact absurd last.symm (ending index call)

theorem perform {index : Nat} (here : view.running index = some call)
    (op : sig.Op) (reply : sig.Reply op) (after : State) :
    (view.perform index op reply after).Orderly :=
  ⟨fun other running hit => mem_append_left _ (orderly.issued other running hit),
    orderly.answered_append nofun, orderly.place_ending (fun _ _ => nofun),
    orderly.past_append (Nat.lt_succ_of_lt (orderly.before here))⟩

theorem ends {index : Nat} (here : view.running index = some call)
    (own : moment.index = index) (ending : ∀ other call, moment ≠ .issued other call)
    (answers : ∀ other called answer, moment = .returned other called answer →
      .issued other called ∈ view.history) :
    (View.Orderly ⟨view.state, Function.update view.running index none,
      view.history ++ [moment]⟩) := by
  refine ⟨fun other running hit => ?_, orderly.answered_append answers,
    orderly.place_ending ending,
    orderly.past_append (own ▸ Nat.lt_succ_of_lt (orderly.before here))⟩
  exact mem_append_left _ (orderly.issued other running (running_of_ended hit))

theorem finish {index : Nat} (here : view.running index = some call) (answer : Answer) :
    (view.finish index call answer).Orderly := by
  refine orderly.ends here rfl nofun ?_
  rintro _ _ _ ⟨⟩
  exact orderly.issued index call here

end Steps

theorem stop (orderly : view.Orderly) {index : Nat}
    (here : view.running index = some call) : (view.stop index).Orderly :=
  orderly.ends here rfl nofun nofun

theorem disturb (orderly : view.Orderly) (after : State) : (view.disturb after).Orderly :=
  ⟨orderly.issued, orderly.answered, orderly.place, orderly.past⟩

end Orderly

end View

/-- What a program answers when it runs by itself, and the state it leaves. -/
def Program.alone {Result : Type} (system : System sig State Call Answer Choice Env)
    (choice : Choice) : Program sig Result → State → Option (Result × State)
  | .answer result, state => some (result, state)
  | .perform op next, state =>
    (system.exec state op choice).bind fun outcome => (next outcome.1).alone system choice outcome.2

theorem Fallible.alone_op (system : System sig State Call Answer Choice Env)
    (choice : Choice) (verb : sig.Op) (next : sig.Reply verb → Fallible sig ε Result)
    (state : State) :
    alone system choice (op verb >>= next : Fallible sig ε Result) state =
      (system.exec state verb choice).bind fun outcome =>
        alone system choice (next outcome.1) outcome.2 :=
  rfl

theorem Fallible.alone_bind {first : Fallible sig ε Result} {after : State}
    (succeeded : Program.alone system choice first state = some (.ok value, after))
    (next : Result → Fallible sig ε Last) :
    Program.alone system choice (first >>= next : Fallible sig ε Last) state =
      Program.alone system choice (next value) after := by
  change Program.alone system choice (Program.andThen first _) state = _
  induction first generalizing state with
  | answer outcome =>
    cases some.inj succeeded
    rfl
  | perform verb next ih =>
    obtain ⟨outcome, performed, later⟩ := bind_eq_some_iff.mp succeeded
    rw [Program.andThen, Program.alone, performed, bind_some]
    exact ih outcome.1 later

/-- A program performed while others move the state: each operation takes place in the state that
is there at its moment.  The answer comes with the number of operations performed. -/
def Program.during (system : System sig State Call Answer Choice Env) (choice : Choice)
    {Result : Type} : Program sig Result → (Nat → State) → Option (Result × Nat)
  | .answer result, _ => some (result, 0)
  | .perform op next, states =>
    (system.exec (states 0) op choice).bind fun outcome =>
      ((next outcome.1).during system choice fun moment => states (moment + 1)).map
        fun ended => (ended.1, ended.2 + 1)

theorem Fallible.during_op (system : System sig State Call Answer Choice Env)
    (choice : Choice) (verb : sig.Op) (next : sig.Reply verb → Fallible sig ε Result)
    (states : Nat → State) :
    during system choice (op verb >>= next : Fallible sig ε Result) states =
      (system.exec (states 0) verb choice).bind fun outcome =>
        (during system choice (next outcome.1) fun moment => states (moment + 1)).map
          fun ended => (ended.1, ended.2 + 1) :=
  rfl

theorem Fallible.during_mapError (report : ε → η)
    (program : Fallible sig ε Result) (states : Nat → State) :
    during system choice (program.mapError report) states =
      (during system choice program states).map fun ended =>
        (ended.1.mapError report, ended.2) := by
  change Program.during system choice (Program.andThen program _) states = _
  induction program generalizing states with
  | answer outcome => rfl
  | perform verb next ih =>
    rw [Program.andThen, Program.during, Program.during, Option.map_bind]
    refine congrArg _ (funext fun outcome => ?_)
    rw [ih, comp_apply, Option.map_map, Option.map_map]
    rfl

theorem Fallible.during_bind {first : Fallible sig ε Result} {states : Nat → State} {spent : Nat}
    (succeeded : Program.during system choice first states = some (.ok value, spent))
    (next : Result → Fallible sig ε Last) :
    Program.during system choice (first >>= next : Fallible sig ε Last) states =
      (Program.during system choice (next value) fun moment => states (moment + spent)).map
        fun ended => (ended.1, ended.2 + spent) := by
  change Program.during system choice (Program.andThen first _) states = _
  induction first generalizing states spent with
  | answer outcome =>
    cases some.inj succeeded
    exact Option.map_id'.symm
  | perform verb next ih =>
    obtain ⟨outcome, performed, later⟩ := bind_eq_some_iff.mp succeeded
    obtain ⟨⟨ended, more⟩, rest, eq⟩ := map_eq_some_iff.mp later
    cases eq
    rw [Program.andThen, Program.during, performed, bind_some, ih outcome.1 rest, Option.map_map]
    rfl

namespace Pool

def start (state : State) : Pool sig State Call Answer :=
  ⟨.start state, fun _ => none⟩

def step (system : System sig State Call Answer Choice Env)
    (pool : Pool sig State Call Answer) : Act Call Choice Env → Option (Pool sig State Call Answer)
  | .issue call =>
    some ⟨pool.view.issue call,
      Function.update pool.programs pool.view.fresh (some (system.code call))⟩
  | .perform index choice =>
    match pool.programs index with
    | some (.perform op next) =>
      (system.exec pool.view.state op choice).map fun outcome =>
        ⟨pool.view.perform index op outcome.1 outcome.2,
          Function.update pool.programs index (some (next outcome.1))⟩
    | _ => none
  | .finish index =>
    match pool.programs index, pool.view.running index with
    | some (.answer result), some call =>
      some ⟨pool.view.finish index call result, Function.update pool.programs index none⟩
    | _, _ => none
  | .stop index =>
    match pool.programs index with
    | some _ => some ⟨pool.view.stop index, Function.update pool.programs index none⟩
    | none => none
  | .outside event => some ⟨pool.view.disturb (system.disturb pool.view.state event), pool.programs⟩

def play (system : System sig State Call Answer Choice Env) :
    Pool sig State Call Answer → List (Act Call Choice Env) → Option (Pool sig State Call Answer) :=
  fun pool acts => acts.foldlM (step system) pool

end Pool

/-! ## Disciplines -/

/-- What holds at all times, what a call relies on while others move, and the guards on
operations and calls. -/
structure Discipline (sig : Signature) (State Call Answer : Type) where
  invariant : View sig State Call Answer → Prop
  rely : Nat → View sig State Call Answer → View sig State Call Answer → Prop
  careful : View sig State Call Answer → Nat → sig.Op → Prop
  admits : View sig State Call Answer → Call → Prop
  refl : ∀ index view, rely index view view
  trans : ∀ index first second third,
    rely index first second → rely index second third → rely index first third

namespace Discipline

variable (rule : Discipline sig State Call Answer)

def permits (pool : Pool sig State Call Answer) : Act Call Choice Env → Prop
  | .issue call => rule.admits pool.view call
  | .perform index _ => ∀ op next, pool.programs index = some (.perform op next) →
      rule.careful pool.view index op
  | _ => True

def Step (system : System sig State Call Answer Choice Env) (before : Pool sig State Call Answer)
    (act : Act Call Choice Env) (after : Pool sig State Call Answer) : Prop :=
  rule.permits before act ∧ before.step system act = some after

end Discipline

namespace Program

/-- The weakest precondition of a program of a call: as long as the others keep to what the call
relies on, its operations keep the invariant and what the others rely on, and its answer meets
the postcondition. -/
def Ensures (rule : Discipline sig State Call Answer)
    (system : System sig State Call Answer Choice Env) (index : Nat) (call : Call) :
    Program sig Result → (Result → View sig State Call Answer → Prop) →
      View sig State Call Answer → Prop
  | answer result, post, view =>
    ∀ later, rule.rely index view later → rule.invariant later →
      later.running index = some call → post result later
  | perform op next, post, view =>
    ∀ later, rule.rely index view later → rule.invariant later →
      later.running index = some call → rule.careful later index op →
      ∀ choice reply after, system.exec later.state op choice = some (reply, after) →
        rule.invariant (later.perform index op reply after) ∧
        (∀ other, other ≠ index →
          rule.rely other later (later.perform index op reply after)) ∧
        (next reply).Ensures rule system index call post (later.perform index op reply after)

section Rules

variable {rule : Discipline sig State Call Answer} {index : Nat}
  {view later : View sig State Call Answer}

theorem Ensures.rely {post : Result → View sig State Call Answer → Prop}
    (ensures : program.Ensures rule system index call post view)
    (moved : rule.rely index view later) :
    program.Ensures rule system index call post later := by
  cases program with
  | answer | perform =>
    intro last further holds here
    exact ensures last (rule.trans _ _ _ _ moved further) holds here

theorem Ensures.of_later {post : Result → View sig State Call Answer → Prop}
    (ensures : ∀ later, rule.rely index view later → rule.invariant later →
      later.running index = some call → program.Ensures rule system index call post later) :
    program.Ensures rule system index call post view := by
  cases program with
  | answer | perform =>
    intro last moved holds here
    exact ensures last moved holds here last (rule.refl _ _) holds here

theorem Ensures.mono {post wider : Result → View sig State Call Answer → Prop}
    (ensures : program.Ensures rule system index call post view)
    (weaken : ∀ result last, rule.invariant last → last.running index = some call →
      post result last → wider result last) :
    program.Ensures rule system index call wider view := by
  induction program generalizing view with
  | answer result =>
    intro last further holds here
    exact weaken result last holds here (ensures last further holds here)
  | perform op next ih =>
    intro last further holds here guard choice reply after done
    obtain ⟨kept, relied, rest⟩ := ensures last further holds here guard choice reply after done
    exact ⟨kept, relied, ih reply rest⟩

theorem Ensures.andThen {rest : Result → Program sig Answer'}
    {post : Answer' → View sig State Call Answer → Prop}
    (ensures : program.Ensures rule system index call
      (fun result => (rest result).Ensures rule system index call post) view) :
    (program.andThen rest).Ensures rule system index call post view := by
  induction program generalizing view with
  | answer result => exact .of_later ensures
  | perform op next ih =>
    intro last further holds here guard choice reply after done
    obtain ⟨kept, relied, rest⟩ := ensures last further holds here guard choice reply after done
    exact ⟨kept, relied, ih reply rest⟩

end Rules

/-! ### Programs of some operations only -/

/-- All operations a program may come to perform are among some. -/
def Only (among : sig.Op → Prop) : Program sig Result → Prop
  | answer _ => True
  | perform op next => among op ∧ ∀ reply, (next reply).Only among

theorem Only.andThen {rest : Result → Program sig Result'} (first : program.Only among)
    (later : ∀ result, (rest result).Only among) : (program.andThen rest).Only among := by
  induction program with
  | answer result => exact later result
  | perform op next ih =>
    exact ⟨first.1, fun reply => ih reply (first.2 reply)⟩

theorem Only.mono {wider : sig.Op → Prop} (only : program.Only among)
    (into : ∀ op, among op → wider op) : program.Only wider := by
  induction program with
  | answer result => exact trivial
  | perform op next ih =>
    exact ⟨into op only.1, fun reply => ih reply (only.2 reply)⟩

/-- A fact that the operations keep, and that the others cannot take away, is there at the end;
operations that keep it may keep the invariant and what others rely on because of it. -/
theorem Only.ensures {rule : Discipline sig State Call Answer} {index : Nat}
    (fact : View sig State Call Answer → Prop)
    (each : ∀ view op choice reply after, among op → rule.invariant view →
      view.running index = some call → rule.careful view index op → fact view →
      system.exec view.state op choice = some (reply, after) →
      rule.invariant (view.perform index op reply after) ∧
      (∀ other, other ≠ index → rule.rely other view (view.perform index op reply after)) ∧
      fact (view.perform index op reply after))
    (stable : ∀ view later, rule.rely index view later → fact view → fact later)
    (only : program.Only among) {view : View sig State Call Answer} (holds : fact view) :
    program.Ensures rule system index call (fun _ => fact) view := by
  induction program generalizing view with
  | answer result =>
    intro later moved _ _
    exact stable view later moved holds
  | perform op next ih =>
    intro later moved sound here guard choice reply after done
    obtain ⟨kept, relied, still⟩ := each later op choice reply after only.1 sound here guard
      (stable view later moved holds) done
    exact ⟨kept, relied, ih reply (only.2 reply) still⟩

end Program

namespace Fallible

variable {rule : Discipline sig State Call Answer} {index : Nat}
  {view : View sig State Call Answer}

/-- The weakest precondition of a program that may fail. -/
abbrev Ensures (rule : Discipline sig State Call Answer)
    (system : System sig State Call Answer Choice Env) (index : Nat) (call : Call)
    (program : Fallible sig ε Result) (post : Except ε Result → View sig State Call Answer → Prop)
    (view : View sig State Call Answer) : Prop :=
  Program.Ensures rule system index call program post view

/-- All operations the program may come to perform are among some. -/
abbrev Only (among : sig.Op → Prop) (program : Fallible sig ε Result) : Prop :=
  Program.Only among program

variable {post : Except ε Result' → View sig State Call Answer → Prop}

theorem ensures_bind {first : Fallible sig ε Result}
    (ensures : Ensures rule system index call first (fun outcome last =>
        (∀ value, outcome = .ok value →
          Ensures rule system index call (rest value) post last) ∧
        ∀ error, outcome = .error error →
          Ensures rule system index call (lift (.error error)) post last) view) :
    Ensures rule system index call (first >>= rest) post view := by
  refine Program.Ensures.andThen (ensures.mono fun outcome last _ _ continues => ?_)
  cases outcome with
  | ok value => exact continues.1 value rfl
  | error error => exact continues.2 error rfl

theorem ensures_op {rest : sig.Reply verb → Fallible sig ε Result}
    {post : Except ε Result → View sig State Call Answer → Prop}
    (each : ∀ later, rule.rely index view later → rule.invariant later →
      later.running index = some call → rule.careful later index verb →
      ∀ choice reply after, system.exec later.state verb choice = some (reply, after) →
        rule.invariant (later.perform index verb reply after) ∧
        (∀ other, other ≠ index →
          rule.rely other later (later.perform index verb reply after)) ∧
        Ensures rule system index call (rest reply) post
          (later.perform index verb reply after)) :
    Ensures rule system index call (op verb >>= rest) post view :=
  each

theorem ensures_lift {outcome : Except ε Result} (failed : ∀ error, outcome = .error error →
      Ensures rule system index call (lift (.error error)) post view)
    (continues : ∀ value, outcome = .ok value →
      Ensures rule system index call (rest value) post view) :
    Ensures rule system index call (lift outcome >>= rest) post view := by
  cases outcome with
  | ok value => exact continues value rfl
  | error error => exact failed error rfl

theorem ensures_check {condition : Prop} [Decidable condition] {rest : Unit → Fallible sig ε Result}
    {post : Except ε Result → View sig State Call Answer → Prop}
    (failed : ¬ condition → Ensures rule system index call (lift (.error error)) post view)
    (continues : condition → Ensures rule system index call (rest ()) post view) :
    Ensures rule system index call (check condition error >>= rest) post view := by
  refine ensures_lift (fun hit refused => ?_) fun _ passed =>
    continues (require_ok.mp passed)
  obtain ⟨fails, rfl⟩ := require_error.mp refused
  exact failed fails

theorem ensures_need {reply : Option Result}
    (failed : reply = none → Ensures rule system index call (lift (.error error)) post view)
    (continues : ∀ value, reply = some value →
      Ensures rule system index call (rest value) post view) :
    Ensures rule system index call (need reply error >>= rest) post view := by
  cases reply with
  | none => exact failed rfl
  | some hit => exact continues hit rfl

theorem only_bind {first : Fallible sig ε Result} (before : Only among first)
    (after : ∀ value, Only among (rest value)) :
    Only among (first >>= rest) := by
  refine Program.Only.andThen before fun outcome => ?_
  cases outcome with
  | ok value => exact after value
  | error error => exact trivial

theorem only_op (mem : among verb) : Only (ε := ε) among (op verb) :=
  ⟨mem, fun _ => trivial⟩

theorem only_forM {items : List Item} {each : Item → Fallible sig ε Unit}
    (every : ∀ item, Only among (each item)) : Only among (items.forM each) := by
  induction items with
  | nil => exact trivial
  | cons item rest ih => exact only_bind (every item) fun _ => ih

end Fallible

/-! ## Runs -/

namespace Discipline

variable (rule : Discipline sig State Call Answer)
  (system : System sig State Call Answer Choice Env)
  (post : Nat → Call → Answer → View sig State Call Answer → Prop)

/-- What is to be shown of a system: issuing, returning, stopping and what happens outside keep
the invariant and what calls rely on, and every call's program ensures its postcondition. -/
structure Upheld : Prop where
  issue : ∀ view call, rule.invariant view → rule.admits view call →
    rule.invariant (view.issue call) ∧
    ∀ other, other ≠ view.fresh → rule.rely other view (view.issue call)
  code : ∀ view call, rule.invariant view → rule.admits view call →
    (system.code call).Ensures rule system view.fresh call (post view.fresh call)
      (view.issue call)
  finish : ∀ view index call answer, rule.invariant view →
    view.running index = some call → post index call answer view →
    rule.invariant (view.finish index call answer) ∧
    ∀ other, other ≠ index → rule.rely other view (view.finish index call answer)
  stop : ∀ view index call, rule.invariant view → view.running index = some call →
    rule.invariant (view.stop index) ∧
    ∀ other, other ≠ index → rule.rely other view (view.stop index)
  outside : ∀ view event, rule.invariant view →
    rule.invariant (view.disturb (system.disturb view.state event)) ∧
    ∀ other, rule.rely other view (view.disturb (system.disturb view.state event))

/-- The invariant holds, and every call under way ensures its postcondition. -/
structure Good (pool : Pool sig State Call Answer) : Prop where
  invariant : rule.invariant pool.view
  ensures : ∀ index program, pool.programs index = some program →
    ∃ call, pool.view.running index = some call ∧
      program.Ensures rule system index call (post index call) pool.view
  idle : ∀ index, pool.view.fresh ≤ index → pool.programs index = none

variable {rule system post}

theorem Good.move {before : Pool sig State Call Answer} {index : Nat}
    {view : View sig State Call Answer} {program : Option (Program sig Answer)}
    (good : rule.Good system post before) (holds : rule.invariant view)
    (relied : ∀ other, other ≠ index → rule.rely other before.view view)
    (others : ∀ other, other ≠ index → view.running other = before.view.running other)
    (own : ∀ present, program = some present → ∃ call, view.running index = some call ∧
      present.Ensures rule system index call (post index call) view)
    (grown : before.view.fresh ≤ view.fresh) (known : index < view.fresh) :
    rule.Good system post ⟨view, Function.update before.programs index program⟩ := by
  refine ⟨holds, fun other present hit => ?_, fun other unused => ?_⟩
  · by_cases eq : other = index
    · subst eq
      dsimp only at hit
      rw [update_self] at hit
      exact own present hit
    · dsimp only at hit ⊢
      rw [update_of_ne eq] at hit
      obtain ⟨call, here, ensures⟩ := good.ensures other present hit
      exact ⟨call, (others other eq).trans here, ensures.rely (relied other eq)⟩
  · dsimp only at unused ⊢
    have ne : other ≠ index := by omega
    rw [update_of_ne ne]
    exact good.idle other (by omega)

theorem Good.lt_fresh {index : Nat}
    {program : Program sig Answer} (good : rule.Good system post pool)
    (hit : pool.programs index = some program) : index < pool.view.fresh := by
  by_contra unused
  rw [good.idle index (by omega)] at hit
  cases hit

/-- **One step.** -/
theorem Good.step (upheld : rule.Upheld system post)
    {before after : Pool sig State Call Answer} (good : rule.Good system post before)
    (step : rule.Step system before act after) : rule.Good system post after := by
  obtain ⟨permitted, stepped⟩ := step
  cases act with
  | issue call =>
    cases stepped
    obtain ⟨holds, relied⟩ := upheld.issue before.view call good.invariant permitted
    refine good.move holds relied (fun other ne => ?_) (fun present hit => ?_) ?_ ?_
    · exact update_of_ne ne ..
    · cases hit
      exact ⟨call, update_self .., upheld.code before.view call good.invariant permitted⟩
    · simp
    · simp
  | perform index choice =>
    simp only [Pool.step] at stepped
    split at stepped
    next op next hit =>
      obtain ⟨⟨reply, state⟩, done, rfl⟩ := map_eq_some_iff.mp stepped
      obtain ⟨call, here, ensures⟩ := good.ensures index _ hit
      obtain ⟨holds, relied, rest⟩ := ensures before.view (rule.refl _ _) good.invariant
        here (permitted op next hit) choice reply state done
      have known := good.lt_fresh hit
      refine good.move holds relied (fun _ _ => rfl) (fun present continues => ?_) ?_ ?_
      · cases continues
        exact ⟨call, here, rest⟩
      · simp
      · rw [View.fresh_perform]
        omega
    next => cases stepped
  | finish index =>
    simp only [Pool.step] at stepped
    split at stepped
    next result call hit here =>
      cases stepped
      obtain ⟨running, eq, ensures⟩ := good.ensures index _ hit
      rw [here] at eq
      cases eq
      have answered := ensures before.view (rule.refl _ _) good.invariant here
      obtain ⟨holds, relied⟩ :=
        upheld.finish before.view index call result good.invariant here answered
      have known := good.lt_fresh hit
      refine good.move holds relied (fun other ne => ?_) (fun _ ended => ?_) ?_ ?_
      · exact update_of_ne ne ..
      · cases ended
      · simp
      · rw [View.fresh_finish]
        omega
    next => cases stepped
  | stop index =>
    simp only [Pool.step] at stepped
    split at stepped
    next program hit =>
      cases stepped
      obtain ⟨call, here, -⟩ := good.ensures index _ hit
      obtain ⟨holds, relied⟩ := upheld.stop before.view index call good.invariant here
      have known := good.lt_fresh hit
      refine good.move holds relied (fun other ne => ?_) (fun _ ended => ?_) ?_ ?_
      · exact update_of_ne ne ..
      · cases ended
      · simp
      · rw [View.fresh_stop]
        omega
    next => cases stepped
  | outside event =>
    cases stepped
    obtain ⟨holds, relied⟩ := upheld.outside before.view event good.invariant
    refine ⟨holds, fun index program hit => ?_, good.idle⟩
    obtain ⟨call, here, ensures⟩ := good.ensures index program hit
    exact ⟨call, here, ensures.rely (relied index)⟩

theorem Good.start (initially : rule.invariant (.start state)) :
    rule.Good system post (.start state) :=
  ⟨initially, fun _ _ hit => (by cases hit), fun _ _ => rfl⟩

/-- **The rule for runs.**  Where every call's program ensures its postcondition, the invariant
holds in every state of every run whose steps meet the guards. -/
theorem Upheld.run (upheld : rule.Upheld system post)
    (initially : rule.invariant (.start state))
    (run : Run (rule.Step system) (.start state) acts pool) :
    rule.Good system post pool :=
  run.invariant_induction (rule.Good system post) (.start initially)
    fun _ _ _ _ good step => good.step upheld step

end Discipline

/-! ## Taking turns -/

namespace View

def idle (view : View sig State Call Answer) : Bool :=
  (List.range view.fresh).all fun index => (view.running index).isNone

/-- No other call that has performed a marked operation is still running. -/
def HasTurn (marked : sig.Op → Bool) (view : View sig State Call Answer) (index : Nat) : Prop :=
  ∀ other ≠ index, ∀ op reply, .performed other op reply ∈ view.history → marked op = true →
    view.running other = none

theorem HasTurn.eq {view : View sig State Call Answer} {reply : sig.Reply op}
    (turn : view.HasTurn marked index) (running : view.running other = some call)
    (performed : .performed other op reply ∈ view.history) (isMarked : marked op = true) :
    other = index := by
  by_contra ne
  cases (turn other ne op reply performed isMarked).symm.trans running

end View

namespace Pool

def playIf (allowed : Pool sig State Call Answer → Act Call Choice Env → Bool)
    (system : System sig State Call Answer Choice Env) :
    Pool sig State Call Answer → List (Act Call Choice Env) → Option (Pool sig State Call Answer) :=
  fun pool acts => acts.foldlM (fun pool act =>
    if allowed pool act then pool.step system act else none) pool

theorem run_of_playIf {start : Pool sig State Call Answer}
    (played : playIf allowed system start acts = some pool) :
    Run (fun before act after => allowed before act = true ∧ before.step system act = some after)
      start acts pool :=
  (Run.of_foldlM_option played).mono fun _ _ _ => ite_none_right_eq_some.mp

/-- Calls overlap, and take turns with the marked operations. -/
def inTurn (marked : sig.Op → Bool) (pool : Pool sig State Call Answer) :
    Act Call Choice Env → Bool
  | .perform index _ =>
    match pool.programs index with
    | some (.perform op _) => !marked op || pool.view.history.all fun
      | .performed other prior _ =>
        other = index || !marked prior || (pool.view.running other).isNone
      | _ => true
    | _ => true
  | _ => true

theorem hasTurn_of_inTurn {pool : Pool sig State Call Answer} {index : Nat} {choice : Choice}
    {op : sig.Op} {next : sig.Reply op → Program sig Answer}
    (taken : pool.inTurn marked (.perform index choice : Act Call Choice Env) = true)
    (hit : pool.programs index = some (.perform op next)) (isMarked : marked op = true) :
    pool.view.HasTurn marked index := by
  intro other ne prior reply performed priorMarked
  simp only [inTurn, hit, isMarked, Bool.not_true, Bool.false_or, List.all_eq_true] at taken
  simpa [ne, priorMarked] using taken _ performed

end Pool

theorem Discipline.run_of_playIf {rule : Discipline sig State Call Answer}
    (permits : ∀ pool act, allowed pool act = true → rule.permits pool act)
    {start : Pool sig State Call Answer}
    (played : Pool.playIf allowed system start acts = some pool) :
    Run (rule.Step system) start acts pool :=
  (Pool.run_of_playIf played).mono fun _ _ _ stepped => ⟨permits _ _ stepped.1, stepped.2⟩

/-- **Calls that take turns meet every guard on the marked operations.** -/
theorem Discipline.run_of_inTurn {rule : Discipline sig State Call Answer}
    (careful : ∀ view index op, (marked op = true → view.HasTurn marked index) →
      rule.careful view index op)
    (admits : ∀ view call, rule.admits view call)
    (played : Pool.playIf (Pool.inTurn marked) system (.start state) acts = some pool) :
    Run (rule.Step system) (.start state) acts pool := by
  refine Discipline.run_of_playIf (fun pool act taken => ?_) played
  cases act with
  | issue call => exact admits pool.view call
  | perform index choice =>
    exact fun op _ hit => careful pool.view index op (Pool.hasTurn_of_inTurn taken hit)
  | _ => exact trivial

end Steps

end Gridwork.Lib
