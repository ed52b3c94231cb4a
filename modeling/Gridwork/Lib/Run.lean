import Mathlib.Data.List.Induction
import Gridwork.Lib.Checks

/-!
# Runs of a step relation

A loop over a list, or a system driven by a list of inputs, is a run: one step for
each item, each from where the last one ended.  `Run step start items final` says so
for a step relation.  Loops written as folds, total or failing, are runs of their
step functions.
-/

namespace Gridwork.Lib

open List Option

variable {State Item ε : Type} {step wider : State → Item → State → Prop}
  {start final before mid : State} {items rest more first second : List Item} {item last : Item}
  {compute next : State → Item → State}

/-- One step for each item, each from where the last one ended. -/
inductive Run (step : State → Item → State → Prop) : State → List Item → State → Prop where
  | nil (state : State) : Run step state [] state
  | cons {before mid after : State} {item : Item} {rest : List Item}
      (first : step before item mid) (later : Run step mid rest after) :
      Run step before (item :: rest) after

theorem mem_snoc {Item : Type*} {item last : Item} {items : List Item} :
    item ∈ items ++ [last] ↔ item ∈ items ∨ item = last := by
  rw [mem_append, mem_singleton]

namespace Run

/-- **The prefix rule.**  An invariant of the items read so far that holds at the
start, and that each step carries over its item, holds of all items at the end. -/
theorem prefix_induction (invariant : List Item → State → Prop) (run : Run step start items final)
    (initially : invariant [] start)
    (preserved : ∀ read item rest before after, items = read ++ item :: rest →
      invariant read before → step before item after → invariant (read ++ [item]) after) :
    invariant items final := by
  -- the induction is on what is left of the list, with what was read generalized
  suffices fromRead : ∀ (read left : List Item) (state : State), items = read ++ left →
      invariant read state → Run step state left final → invariant items final from
    fromRead [] items start rfl initially run
  clear run initially
  intro read left state split holds remaining
  induction remaining generalizing read with
  | nil state =>
    rw [split, append_nil]
    exact holds
  | @cons before mid after item rest first later ih =>
    refine ih (read ++ [item]) ?_ (preserved read item rest before mid split holds first)
    rw [split, append_assoc, singleton_append]

theorem invariant_induction (invariant : State → Prop) (run : Run step start items final)
    (initially : invariant start)
    (preserved : ∀ item ∈ items, ∀ before after, invariant before → step before item after →
      invariant after) : invariant final := by
  refine run.prefix_induction (fun _ state => invariant state) initially ?_
  intro read item rest before after split holds stepped
  exact preserved item (by simp [split]) before after holds stepped

theorem exists_cons {reached : State → Prop} (first : step before item mid)
    (later : ∃ final, Run step mid rest final ∧ reached final) :
    ∃ final, Run step before (item :: rest) final ∧ reached final := by
  obtain ⟨final, run, holds⟩ := later
  exact ⟨final, .cons first run, holds⟩

theorem mono (run : Run step start items final)
    (into : ∀ before item after, step before item after → wider before item after) :
    Run wider start items final := by
  induction run with
  | nil state => exact .nil state
  | cons first _ ih => exact .cons (into _ _ _ first) ih

theorem append (run : Run step start items mid) (later : Run step mid more final) :
    Run step start (items ++ more) final := by
  induction run with
  | nil state => exact later
  | cons first _ ih => exact .cons first (ih later)

theorem exists_of_append (run : Run step start (items ++ more) final) :
    ∃ mid, Run step start items mid ∧ Run step mid more final := by
  induction items generalizing start with
  | nil => exact ⟨start, .nil start, run⟩
  | cons item rest ih =>
    cases run with
    | cons first later =>
      obtain ⟨mid, prior, onward⟩ := ih later
      exact ⟨mid, .cons first prior, onward⟩

theorem foldl_eq (run : Run step start items final)
    (computes : ∀ before item after, step before item after → compute before item = after) :
    items.foldl compute start = final := by
  induction run with
  | nil state => rfl
  | cons first _ ih =>
    rw [foldl_cons, computes _ _ _ first]
    exact ih

theorem of_foldl (step : State → Item → State) (items : List Item) (start : State) :
    Run (fun before item after => step before item = after) start items
      (items.foldl step start) := by
  induction items generalizing start with
  | nil => exact .nil start
  | cons item rest ih => exact .cons rfl (ih (step start item))

theorem of_foldlM_option {step : State → Item → Option State}
    (finished : items.foldlM step start = some final) :
    Run (fun before item after => step before item = some after) start items final := by
  induction items generalizing start with
  | nil =>
    have eq : start = final := by simpa using finished
    exact eq ▸ .nil start
  | cons item rest ih =>
    rw [foldlM_cons] at finished
    obtain ⟨mid, first, later⟩ := bind_eq_some_iff.mp finished
    exact .cons first (ih later)

theorem of_foldlM_except {step : State → Item → Except ε State}
    (finished : items.foldlM step start = .ok final) :
    Run (fun before item after => step before item = .ok after) start items final := by
  induction items generalizing start with
  | nil =>
    have eq : start = final := by simpa [pure, Except.pure] using finished
    exact eq ▸ .nil start
  | cons item rest ih =>
    rw [foldlM_cons] at finished
    obtain ⟨mid, first, later⟩ := bind_ok.mp finished
    exact .cons first (ih later)

end Run

theorem foldlM_append_eq_some (step : State → Item → Option State) (first second : List Item)
    (start final : State) :
    (first ++ second).foldlM step start = some final ↔
      ∃ mid, first.foldlM step start = some mid ∧ second.foldlM step mid = some final := by
  rw [foldlM_append]
  exact bind_eq_some_iff

theorem foldlM_snoc_eq_ok {step : State → Item → Except ε State} :
    (items ++ [item]).foldlM step start = .ok final ↔
      ∃ mid, items.foldlM step start = .ok mid ∧ step mid item = .ok final := by
  rw [foldlM_append, bind_ok]
  simp only [foldlM_cons, foldlM_nil, bind_pure]

theorem forall_split_snoc {holds : List Item → Item → Prop} :
    (∀ before item later, items ++ [last] = before ++ item :: later → holds before item) ↔
      (∀ before item later, items = before ++ item :: later → holds before item) ∧
        holds items last := by
  constructor
  · intro all
    refine ⟨?_, all items last [] rfl⟩
    rintro before item later rfl
    exact all before item (later ++ [last]) (by simp)
  · rintro ⟨prior, final⟩ before item later split
    rcases eq_nil_or_concat later with rfl | ⟨mid, other, rfl⟩
    · obtain ⟨rfl, isLast⟩ := append_inj' split rfl
      cases isLast
      exact final
    · rw [concat_eq_append, ← cons_append, ← append_assoc] at split
      exact prior before item mid (append_inj' split rfl).1

/-- **The splitting rule.**  Where a step keeps a property exactly when its item is fine, the
property holds at the end exactly when every item was fine where it stood. -/
theorem foldl_iff_splits (holds invariant : State → Prop)
    {fine : State → Item → Prop} (opening : invariant start)
    (initially : holds start) (keeps : ∀ state item, invariant state → invariant (next state item))
    (step : ∀ state item, invariant state →
      (holds (next state item) ↔ holds state ∧ fine state item)) (items : List Item) :
    holds (items.foldl next start) ↔ ∀ before item later, items = before ++ item :: later →
        fine (before.foldl next start) item := by
  have kept (items : List Item) : invariant (items.foldl next start) := by
    induction items using List.reverseRecOn with
    | nil => exact opening
    | append_singleton items item ih =>
      rw [foldl_concat]
      exact keeps _ _ ih
  induction items using List.reverseRecOn with
  | nil => simp [initially]
  | append_singleton items last ih =>
    rw [foldl_concat, step _ _ (kept items)]
    exact (and_congr_left' ih).trans forall_split_snoc.symm

end Gridwork.Lib
