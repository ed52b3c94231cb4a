import Mathlib.Data.Finset.Card
import Gridwork.Lib.Rows

/-!
# Forests by parent pointers

A set of nodes where each names its parent, or none, is a forest when every walk upward
ends.  `Grounded` says so.  A grounded forest has no cycle, a walk through it takes no more
steps than there are nodes (`Grounded.steps_le`), and it stays grounded when one node is
hung below a node that it is not itself above (`Grounded.change`): that one lemma covers a
new node, a moved one and a removed one.
-/

namespace Gridwork.Lib.Forest

open Option Finset Std.TreeMap

variable {Id Row : Type} {parent changed : Id → Option Id} {id met top : Id}

def walk (parent : Id → Option Id) : Nat → Id → Option Id
  | 0, id => some id
  | steps + 1, id => (parent id).bind (walk parent steps)

def Grounded (parent : Id → Option Id) : Prop :=
  ∀ id, Acc (fun above below => parent below = some above) id

theorem walk_add (first second : Nat) (id : Id) :
    walk parent (first + second) id = (walk parent first id).bind (walk parent second) := by
  induction first generalizing id with
  | zero => simp [walk]
  | succ first ih =>
    rw [Nat.succ_add, walk, walk, Option.bind_assoc]
    exact congrArg _ (funext ih)

theorem walk_succ (steps : Nat) (id : Id) :
    walk parent (steps + 1) id = (walk parent steps id).bind parent := by
  rw [walk_add]
  exact congrArg _ (funext fun id => by simp [walk])

namespace Grounded

theorem walk_ne (grounded : Grounded parent) (steps : Nat) (id : Id) :
    walk parent (steps + 1) id ≠ some id := by
  -- a walk round a cycle could as well start one node higher, and so on without end
  induction grounded id with
  | intro id _ ih =>
    intro returns
    rw [walk, bind_eq_some_iff] at returns
    obtain ⟨above, isParent, later⟩ := returns
    refine ih above isParent ?_
    rw [walk_succ, later]
    exact isParent

theorem walk_inj (grounded : Grounded parent) {first second : Nat}
    (meets : walk parent first id = some met) (again : walk parent second id = some met) :
    first = second := by
  -- the later meeting would be a walk from the node to itself
  have prior {first second : Nat} (less : first < second)
      (meets : walk parent first id = some met) : walk parent second id ≠ some met := by
    obtain ⟨extra, rfl⟩ := Nat.exists_eq_add_of_lt less
    rw [Nat.add_assoc, walk_add, meets]
    exact grounded.walk_ne extra met
  rcases Nat.lt_trichotomy first second with less | eq | more
  · exact absurd again (prior less meets)
  · exact eq
  · exact absurd meets (prior more again)

/-- **A walk takes no more steps than there are nodes with a parent.** -/
theorem steps_le (grounded : Grounded parent) {nodes : Finset Id}
    (inside : ∀ id above, parent id = some above → id ∈ nodes) {steps : Nat}
    (reaches : walk parent steps id = some top) : steps ≤ nodes.card := by
  have visits (step : Nat) (less : step < steps) :
      ∃ met ∈ nodes, walk parent step id = some met := by
    obtain ⟨extra, rfl⟩ := Nat.exists_eq_add_of_lt less
    rw [Nat.add_assoc, walk_add, bind_eq_some_iff] at reaches
    obtain ⟨met, meets, later⟩ := reaches
    rw [walk, bind_eq_some_iff] at later
    obtain ⟨above, isParent, -⟩ := later
    exact ⟨met, inside met above isParent, meets⟩
  calc steps = (range steps).card := (card_range steps).symm
    _ ≤ (nodes.map .some).card := by
      refine card_le_card_of_injOn (fun step => walk parent step id) ?_ ?_
      · intro step less
        obtain ⟨met, mem, meets⟩ := visits step (mem_range.mp less)
        simp [meets, mem]
      · intro first firstLess second _ eq
        obtain ⟨met, -, meets⟩ := visits first (mem_range.mp firstLess)
        exact grounded.walk_inj meets (eq.symm.trans meets)
    _ = nodes.card := card_map _

theorem steps_le_size {parent : String → Option String} (grounded : Grounded parent)
    {rows : Rows Row} (inside : ∀ id above, parent id = some above → rows[id]?.isSome)
    {steps : Nat} {id top : String} (reaches : walk parent steps id = some top) :
    steps ≤ rows.size := by
  have isKey (id above : String) (isParent : parent id = some above) : id ∈ rows.keys.toFinset := by
    rw [List.mem_toFinset, mem_keys, mem_iff_isSome_getElem?]
    exact inside id above isParent
  calc steps ≤ rows.keys.toFinset.card := grounded.steps_le isKey reaches
    _ ≤ rows.keys.length := List.toFinset_card_le _
    _ = rows.size := length_keys

/-- **One node changes its place.**  A grounded forest stays grounded when only one node
gets another parent, and that node was not above its new parent. -/
theorem change (grounded : Grounded parent) (id : Id)
    (others : ∀ other above, other ≠ id → changed other = some above → parent other = some above)
    (clear : ∀ above steps, changed id = some above → walk parent steps above ≠ some id) :
    Grounded changed := by
  -- first the nodes that do not have `id` above them: nothing on their way up has changed
  have untouched (node : Id) (away : ∀ steps, walk parent steps node ≠ some id) :
      Acc (fun above below => changed below = some above) node := by
    induction grounded node with
    | intro node _ ih =>
      refine .intro node fun above isParent => ?_
      have before : parent node = some above := by
        refine others node above ?_ isParent
        rintro rfl
        exact away 0 rfl
      refine ih above before fun steps reaches => away (steps + 1) ?_
      rw [walk, before]
      exact reaches
  intro node
  induction grounded node with
  | intro node _ ih =>
    refine .intro node fun above isParent => ?_
    by_cases eq : node = id
    · subst eq
      exact untouched above fun steps => clear above steps isParent
    · exact ih above (others node above eq isParent)

end Grounded

end Gridwork.Lib.Forest
