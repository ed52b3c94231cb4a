import Gridwork.Kernel.History
import Gridwork.Lib.Forest

/-!
# The workspace tree

The workspace nodes of every history are a forest: `WorkspaceForest` says which kinds sit where,
that every parent is there, that only panes hold a session, and that every walk upward ends.

The walk `decide` makes for a move is bounded here by the number of nodes.  The source
leaves it to the database and gives it no bound; `WorkspaceForest.walk_eq_none` says that
it needs none.
-/

namespace Gridwork.Kernel

open Domain Lib Option Forest Rows

variable {pg : Postgres} {codec : Codec} {nodes result : Rows WorkspaceNode}
  {id sought parentId met : String} {steps : Nat}

/-! ## Legal trees -/

def SitsUnder : WorkspaceNodeKind → WorkspaceNodeKind → Prop
  | .tab, .workspace | .pane, .tab | .pane, .pane => True
  | _, _ => False

def parentOf (nodes : Rows WorkspaceNode) (id : String) : Option String :=
  nodes[id]?.bind (·.parentId)

theorem parentOf_some : parentOf nodes id = some parentId ↔
      ∃ node, nodes[id]? = some node ∧ node.parentId = some parentId :=
  bind_eq_some_iff

/-- Workspaces are the roots, every other node sits under one that is there and may hold
it, only panes hold a session, and every walk upward ends. -/
structure WorkspaceForest (nodes : Rows WorkspaceNode) : Prop where
  roots : ∀ (id : String) (node : WorkspaceNode), nodes[id]? = some node →
    (node.kind = .workspace ↔ node.parentId = none)
  under : ∀ (id : String) (node : WorkspaceNode) (parentId : String), nodes[id]? = some node →
    node.parentId = some parentId →
    ∃ parent, nodes[parentId]? = some parent ∧ SitsUnder node.kind parent.kind
  sessions : ∀ (id : String) (node : WorkspaceNode), nodes[id]? = some node →
    node.sessionId ≠ none → node.kind = .pane
  grounded : Forest.Grounded (parentOf nodes)

section

variable (forest : WorkspaceForest nodes)
include forest

theorem WorkspaceForest.acyclic (steps : Nat)
    (id : String) : walk (parentOf nodes) (steps + 1) id ≠ some id :=
  forest.grounded.walk_ne steps id

theorem WorkspaceForest.walk_mem (present : nodes[id]?.isSome)
    (meets : walk (parentOf nodes) steps id = some met) : nodes[met]?.isSome := by
  induction steps generalizing id with
  | zero =>
    cases meets
    exact present
  | succ steps ih =>
    rw [walk, bind_eq_some_iff] at meets
    obtain ⟨parentId, isParent, later⟩ := meets
    obtain ⟨node, hit, names⟩ := parentOf_some.mp isParent
    obtain ⟨parent, there, -⟩ := forest.under id node parentId hit names
    exact ih (by simp [there]) later

theorem WorkspaceForest.steps_le (meets : walk (parentOf nodes) steps id = some met) :
    steps ≤ nodes.size := by
  refine forest.grounded.steps_le_size ?_ meets
  intro node parentId isParent
  obtain ⟨row, hit, -⟩ := parentOf_some.mp isParent
  simp [hit]

/-- **The ancestor walk ends.**  After as many steps as there are nodes, nothing is left. -/
theorem WorkspaceForest.walk_eq_none (many : nodes.size < steps) (id : String) :
    walk (parentOf nodes) steps id = none := by
  cases met : walk (parentOf nodes) steps id with
  | none => rfl
  | some top => exact absurd (forest.steps_le met) (Nat.not_le.mpr many)

end

/-! ## What the decision checks -/

theorem assertLegalParent_ok {kind : WorkspaceNodeKind} :
    assertLegalParent nodes kind parentId = .ok () ↔
      ∃ parent, nodes[parentId]? = some parent ∧ SitsUnder kind parent.kind := by
  simp only [assertLegalParent, bind_ok, fetch_ok, require_ok]
  refine exists_congr fun parent => and_congr_right fun _ => ?_
  cases kind <;> cases parent.kind <;> simp [SitsUnder]

theorem isAncestor_eq_true_iff (present : nodes[sought]?.isSome) (fuel : Nat) (id : String) :
    isAncestor nodes sought fuel id = true ↔
      ∃ steps < fuel, walk (parentOf nodes) steps id = some sought := by
  induction fuel generalizing id with
  | zero => simp [isAncestor]
  | succ fuel ih =>
    constructor
    · intro meets
      simp only [isAncestor] at meets
      split at meets
      next => cases meets
      next node hit =>
        simp only [Bool.or_eq_true, beq_iff_eq, Option.any_eq_true] at meets
        rcases meets with rfl | ⟨parentId, names, above⟩
        · exact ⟨0, Nat.succ_pos fuel, rfl⟩
        · obtain ⟨steps, less, later⟩ := (ih parentId).mp above
          refine ⟨steps + 1, Nat.succ_lt_succ less, ?_⟩
          rw [walk, parentOf, hit, bind_some, names]
          exact later
    · rintro ⟨steps, less, meets⟩
      cases steps with
      | zero =>
        cases meets
        obtain ⟨node, hit⟩ := isSome_iff_exists.mp present
        simp [isAncestor, hit]
      | succ steps =>
        rw [walk, bind_eq_some_iff] at meets
        obtain ⟨parentId, isParent, later⟩ := meets
        obtain ⟨node, hit, names⟩ := parentOf_some.mp isParent
        have above := (ih parentId).mpr ⟨steps, Nat.lt_of_succ_lt_succ less, later⟩
        simp [isAncestor, hit, names, above]

section

variable (forest : WorkspaceForest nodes)
include forest

theorem WorkspaceForest.isAncestor_iff (present : nodes[sought]?.isSome)
    (id : String) : isAncestor nodes sought (nodes.size + 1) id = true ↔
      ∃ steps, walk (parentOf nodes) steps id = some sought := by
  rw [isAncestor_eq_true_iff present]
  constructor
  · rintro ⟨steps, -, meets⟩
    exact ⟨steps, meets⟩
  · rintro ⟨steps, meets⟩
    exact ⟨steps, Nat.lt_succ_of_le (forest.steps_le meets), meets⟩

/-! ## What a command does to the forest -/

theorem WorkspaceForest.insert {node : WorkspaceNode}
    (root : node.kind = .workspace ↔ node.parentId = none)
    (sits : ∀ parentId, node.parentId = some parentId →
      ∃ parent, nodes[parentId]? = some parent ∧ SitsUnder node.kind parent.kind)
    (session : node.sessionId ≠ none → node.kind = .pane)
    (kind : ∀ before ∈ nodes[id]?, node.kind = before.kind)
    (clear : ∀ parentId steps, node.parentId = some parentId →
      walk (parentOf nodes) steps parentId ≠ some id) :
    WorkspaceForest (nodes.insert id node) where
  roots other row hit := by
    rw [getElem?_insert_eq] at hit
    split at hit
    next =>
      cases hit
      exact root
    next => exact forest.roots other row hit
  under other row parentId hit names := by
    rw [getElem?_insert_eq] at hit
    split at hit
    next eq =>
      cases hit
      obtain ⟨parent, there, legal⟩ := sits parentId names
      have apart : id ≠ parentId := fun own => clear parentId 0 names (own ▸ rfl)
      exact ⟨parent, by rw [getElem?_insert_eq, if_neg apart, there], legal⟩
    next =>
      obtain ⟨parent, there, legal⟩ := forest.under other row parentId hit names
      rw [getElem?_insert_eq]
      split
      next eq =>
        -- a child of the node itself: the node is there already and keeps its kind
        subst eq
        exact ⟨node, rfl, kind parent there ▸ legal⟩
      next => exact ⟨parent, there, legal⟩
  sessions other row hit := by
    rw [getElem?_insert_eq] at hit
    split at hit
    next =>
      cases hit
      exact session
    next => exact forest.sessions other row hit
  grounded := by
    have parentOf_insert (other : String) : parentOf (nodes.insert id node) other =
        if id = other then node.parentId else parentOf nodes other := by
      rw [parentOf, getElem?_insert_eq]
      split
      · rfl
      · rfl
    refine forest.grounded.change id ?_ ?_
    · intro other above ne
      rw [parentOf_insert, if_neg (Ne.symm ne)]
      exact fun isParent => isParent
    · intro above steps
      rw [parentOf_insert, if_pos rfl]
      exact clear above steps

theorem WorkspaceForest.erase
    (childless : ∀ (other : String) (row : WorkspaceNode), nodes[other]? = some row →
      row.parentId ≠ some id) :
    WorkspaceForest (nodes.erase id) := by
  have getElem?_erase (other : String) :
      (nodes.erase id)[other]? = if id = other then none else nodes[other]? := by
    rw [Std.TreeMap.getElem?_erase]
    simp only [Std.compare_eq_iff_eq]
  have kept {other : String} {row : WorkspaceNode} (hit : (nodes.erase id)[other]? = some row) :
      nodes[other]? = some row := by
    rw [getElem?_erase] at hit
    split at hit
    next => cases hit
    next => exact hit
  refine ⟨fun other row hit => forest.roots other row (kept hit), ?_,
    fun other row hit => forest.sessions other row (kept hit), ?_⟩
  · intro other row parentId hit names
    obtain ⟨parent, there, legal⟩ := forest.under other row parentId (kept hit) names
    have apart : id ≠ parentId := fun own => childless other row (kept hit) (own ▸ names)
    exact ⟨parent, by rw [getElem?_erase, if_neg apart, there], legal⟩
  · refine forest.grounded.change id ?_ ?_
    · intro other above _ isParent
      obtain ⟨row, hit, names⟩ := parentOf_some.mp isParent
      exact parentOf_some.mpr ⟨row, kept hit, names⟩
    · intro above steps isParent
      simp [parentOf] at isParent

end

theorem WorkspaceForest.empty : WorkspaceForest (∅ : Rows WorkspaceNode) where
  roots id node hit := by simp at hit
  under id node parentId hit := by simp at hit
  sessions id node hit := by simp at hit
  grounded id := .intro id fun above isParent => by simp [parentOf] at isParent

/-- **A command that was accepted and applied leaves a forest.** -/
theorem WorkspaceForest.of_applies {db : Db} {envelope : CommandEnvelope}
    {command : KernelCommand} {route : Route} {accepted : UInt32} {event : Event}
    (forest : WorkspaceForest db.tables.derived.workspaceNode)
    (shape : command.checkShape = .ok ())
    (decided : decide db envelope command route = .ok accepted)
    (applies : applyWorkspaceNode pg event command db.tables.derived.workspaceNode = .ok result) :
    WorkspaceForest result := by
  cases command with
  | createWorkspaceNode id kind parentId sessionId =>
    simp only [KernelCommand.checkShape, bind_ok, exists_unit, require_ok] at shape
    obtain ⟨session, root, child, -⟩ := shape
    simp only [decide, bind_ok, exists_unit] at decided
    obtain ⟨legal, -⟩ := decided
    simp only [applyWorkspaceNode, bind_ok, exists_unit, insertNew_ok, pure_ok] at applies
    obtain ⟨time, -, -, -, _, ⟨free, rfl⟩, -, rfl⟩ := applies
    have sits (parent : String) (names : parentId = some parent) :
        ∃ above, db.tables.derived.workspaceNode[parent]? = some above ∧
          SitsUnder kind above.kind := by
      rw [names] at legal
      exact assertLegalParent_ok.mp legal
    refine forest.insert ⟨root, ?_⟩ sits ?_ ?_ ?_
    · intro none
      by_contra other
      exact absurd none (isSome_iff_ne_none.mp (child other))
    · exact session.resolve_left
    · simp [free]
    · intro parent steps names meets
      obtain ⟨above, there, -⟩ := sits parent names
      have present := forest.walk_mem (by simp [there]) meets
      simp [free] at present
  | moveWorkspaceNode id parentId want =>
    simp only [decide, decideMove, bind_ok, exists_unit, fetch_ok,
      require_ok, assertLegalParent_ok] at decided
    obtain ⟨node, hit, notRoot, legal, clear, -⟩ := decided
    simp only [applyWorkspaceNode, bind_ok, exists_unit, pure_ok, revise_ok] at applies
    obtain ⟨_, ⟨row, time, _, foundAgain, -, ⟨-, rfl⟩, -, rfl⟩, -, rfl⟩ := applies
    obtain rfl : node = row := some.inj (hit.symm.trans foundAgain)
    refine forest.insert ⟨fun isRoot => absurd isRoot notRoot, fun none => by cases none⟩ ?_
      (forest.sessions id node hit) ?_ ?_
    · rintro _ ⟨⟩
      exact legal
    · rintro before isBefore
      rw [hit] at isBefore
      cases isBefore
      rfl
    · rintro _ steps ⟨⟩ meets
      have ancestor := (forest.isAncestor_iff (by simp [hit]) parentId).mpr ⟨steps, meets⟩
      rw [clear] at ancestor
      cases ancestor
  | rebindWorkspacePane id sessionId want =>
    simp only [applyWorkspaceNode, revise_ok, bind_ok, exists_unit, require_ok, pure_ok] at applies
    obtain ⟨node, time, _, hit, -, ⟨-, isPane, rfl⟩, -, rfl⟩ := applies
    refine forest.insert (forest.roots id node hit) (forest.under id node · hit)
      (fun _ => isPane) ?_ ?_
    · rintro before isBefore
      rw [hit] at isBefore
      cases isBefore
      rfl
    · intro parentId steps names meets
      refine forest.acyclic steps id ?_
      rw [walk, parentOf_some.mpr ⟨node, hit, names⟩]
      exact meets
  | closeWorkspaceNode id want =>
    simp only [applyWorkspaceNode, bind_ok, exists_unit, require_ok, pure_ok] at applies
    obtain ⟨-, childless, rfl⟩ := applies
    refine forest.erase fun other row hit => ?_
    exact childless row (mem_values_iff.mpr ⟨other, hit⟩)
  | _ =>
    cases applies
    exact forest

theorem Stores.applyWorkspaceNode_eq {command kept : KernelCommand}
    (stores : Stores pg command kept) (later : Postgres) (event : Event)
    (nodes : Rows WorkspaceNode) :
    applyWorkspaceNode later event kept nodes = applyWorkspaceNode later event command nodes := by
  cases stores with
  | eq | message | record => rfl

/-- **The workspace nodes of every history are a forest.** -/
theorem after_workspaceForest {initial : Db} (init : Initialised pg codec initial)
    (calls : List Call) :
    WorkspaceForest (after pg codec initial calls).tables.derived.workspaceNode := by
  obtain ⟨genesis, opened⟩ := init.opened
  refine after_induction (fun db => WorkspaceForest db.tables.derived.workspaceNode) ?_ ?_ calls
  · rw [opened.tables]
    exact .empty
  · intro db call request committed forest passes admits step
    cases step with
    | replayed | refusedInput | paged | refusedControl => exact forest
    | landed _ _ _ _ _ _ accepted lands =>
      obtain ⟨kept, made, each⟩ := lands.applies passes
      have applied := each.workspaceNode
      rw [made.stores.applyWorkspaceNode_eq] at applied
      obtain ⟨shape, -⟩ := routeOf_ok.mp passes.routed
      rw [landing_tables]
      exact forest.of_applies shape accepted applied

end Gridwork.Kernel
