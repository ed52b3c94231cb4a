import Gridwork.Kernel.Workspace
import Gridwork.Lib.Sorting

/-!
# Reproducing the arrangement

The client rebuilds its workspaces, tabs and split panes from the rows of the
`workspace_node` projection.  `reproduce` indexes the rows, groups them under their
parents, walks down from the roots, and lists what the walk did not reach.
-/

namespace Gridwork.Tui

open Domain Lib Kernel List Option Std.TreeMap

/-! ## The model of the surface -/

/-- A row of the projection, as the client reads it. -/
structure WorkspaceRow where
  id : String
  version : UInt32
  kind : WorkspaceNodeKind
  (parentId sessionId : Option String)
  createdAt : Timestamp
  deriving DecidableEq

/-- The identity of a pane, minted once. -/
abbrev PaneId := Nat

inductive Axis where
  | columns | rows

inductive Node where
  | pane (id : PaneId)
  | split (axis : Axis) (parts : List (UInt32 × Node))

def WEIGHT_UNIT : UInt32 := 120

/-- `first_pane`.  A split without parts has none. -/
def firstPane : Node → Option PaneId
  | .pane id => some id
  | .split _ [] => none
  | .split _ ((_, first) :: _) => firstPane first

mutual

def Node.panes : Node → List PaneId
  | .pane id => [id]
  | .split _ parts => partPanes parts

def partPanes : List (UInt32 × Node) → List PaneId
  | [] => []
  | (_, node) :: rest => node.panes ++ partPanes rest

end

structure Tab where
  title : String
  root : Node
  focus : PaneId

structure Workspace where
  name : String
  tabs : List Tab
  active : Nat
  nextTab : UInt32

structure WorkspaceState where
  workspaces : List Workspace
  active : Nat
  nextPane : PaneId
  nextWorkspace : UInt32

structure PaneBinding where
  pane : PaneId
  node : Option String
  version : Option UInt32
  (parent session : Option String)

structure TabBinding where
  node : String
  version : UInt32

structure WorkspaceBinding where
  node : String
  version : UInt32
  tabs : List TabBinding

structure Reproduced where
  state : WorkspaceState
  bindings : List PaneBinding
  workspaces : List WorkspaceBinding
  ignored : List String

def Tab.new (title : String) (pane : PaneId) : Tab where
  title := title
  root := .pane pane
  focus := pane

def Workspace.panes (workspace : Workspace) : List PaneId :=
  workspace.tabs.flatMap (·.root.panes)

def WorkspaceState.panes (state : WorkspaceState) : List PaneId :=
  state.workspaces.flatMap (·.panes)

/-- `u32::try_from(count).unwrap_or(u32::MAX).saturating_add(1)`. -/
def following (count : Nat) : UInt32 := .ofNat (min (count + 1) (2 ^ 32 - 1))

/-! ## The builder -/

def siblingOrder (left right : WorkspaceRow) : Ordering :=
  (compare left.createdAt right.createdAt).then (compare left.id right.id)

structure Builder where
  placed : List String
  bindings : List PaneBinding
  nextPane : PaneId

namespace Builder

def place (builder : Builder) (row : WorkspaceRow) : Builder :=
  { builder with placed := builder.placed ++ [row.id] }

def bindingOf (pane : PaneId) (node : Option WorkspaceRow) : PaneBinding where
  pane := pane
  node := node.map (·.id)
  version := node.map (·.version)
  parent := node.bind (·.parentId)
  session := node.bind (·.sessionId)

def mint (builder : Builder) (node : Option WorkspaceRow) : PaneId × Builder :=
  (builder.nextPane, { builder with
      nextPane := builder.nextPane + 1
      bindings := builder.bindings ++ [bindingOf builder.nextPane node] })

variable (byId : Rows WorkspaceRow)

/-- The children of a kind, in sibling order.  A row whose parent is not there is a child of
no row that is built. -/
def kids (row : WorkspaceRow) (kind : WorkspaceNodeKind) : List WorkspaceRow :=
  (sortBy siblingOrder (byId.values.filter (·.parentId = some row.id))).filter (·.kind = kind)

/-- Place rows and build each, with its position counted from one. -/
def each {Built : Type} (build : WorkspaceRow → Nat → Builder → Option (Built × Builder)) :
    List WorkspaceRow → Nat → Builder → Option (List Built × Builder)
  | [], _, builder => some ([], builder)
  | row :: rest, position, builder => do
    let (first, builder) ← build row position (builder.place row)
    let (others, builder) ← each build rest (position + 1) builder
    return (first :: others, builder)

def parts (build : WorkspaceRow → Builder → Option (Node × Builder)) (rows : List WorkspaceRow)
    (builder : Builder) : Option (List (UInt32 × Node) × Builder) := do
  let (nodes, builder) ← each (fun row _ => build row) rows 1 builder
  return (nodes.map fun node => (WEIGHT_UNIT, node), builder)

/-- `Builder::pane`: the pane itself, and its children beside it. -/
def pane : Nat → WorkspaceRow → Builder → Option (Node × Builder)
  | 0, _, _ => none
  | fuel + 1, row, builder =>
    let (leaf, builder) := builder.mint (some row)
    match kids byId row .pane with
    | [] => some (.pane leaf, builder)
    | first :: others => do
      let (nodes, builder) ← parts (pane fuel) (first :: others) builder
      return (.split .columns ((WEIGHT_UNIT, .pane leaf) :: nodes), builder)

/-- The tree of a tab: a placeholder, its only pane, or a split of its panes. -/
def tabRoot (fuel : Nat) (row : WorkspaceRow) (builder : Builder) : Option (Node × Builder) :=
  match kids byId row .pane with
  | [] =>
    let (leaf, builder) := builder.mint none
    some (.pane leaf, builder)
  | [only] => pane byId fuel only (builder.place only)
  | many => do
    let (nodes, builder) ← parts (pane byId fuel) many builder
    return (.split .columns nodes, builder)

def tab (fuel : Nat) (row : WorkspaceRow) (position : Nat) (builder : Builder) :
    Option ((Tab × TabBinding) × Builder) := do
  let (root, builder) ← tabRoot byId fuel row builder
  let focus ← firstPane root
  return (({ title := toString position, root, focus }, ⟨row.id, row.version⟩), builder)

def husk (tabs : List Tab) (builder : Builder) : List Tab × Builder :=
  match tabs with
  | [] =>
    let (leaf, builder) := builder.mint none
    ([.new "1" leaf], builder)
  | tabs => (tabs, builder)

def workspace (fuel : Nat) (row : WorkspaceRow) (position : Nat) (builder : Builder) :
    Option ((Workspace × WorkspaceBinding) × Builder) := do
  let (built, builder) ← each (tab byId fuel) (kids byId row .tab) 1 builder
  let (tabs, builder) := husk (built.map (·.1)) builder
  return (({ name := toString position, tabs, active := 0, nextTab := following tabs.length },
    ⟨row.id, row.version, built.map (·.2)⟩), builder)

end Builder

/-! ## Reproducing -/

def index (rows : List WorkspaceRow) : Rows WorkspaceRow × List String :=
  rows.foldl (fun (byId, ignored) row =>
    (byId.insert row.id row, if byId.contains row.id then ignored ++ [row.id] else ignored)) (∅, [])

def roots (byId : Rows WorkspaceRow) : List WorkspaceRow :=
  sortBy siblingOrder (byId.values.filter (·.parentId = none))

/-- The workspaces: a tab or a pane without a parent does not get to be a root. -/
def topRows (byId : Rows WorkspaceRow) : List WorkspaceRow :=
  (roots byId).filter (·.kind = .workspace)

def reproduce (rows : List WorkspaceRow) : Option Reproduced := do
  let (byId, again) := index rows
  let (built, builder) ← Builder.each (Builder.workspace byId (byId.size + 1))
    (topRows byId) 1 ⟨[], [], 1⟩
  let unplaced := byId.keys.filter (· ∉ builder.placed)
  return {
    state := {
      workspaces := built.map (·.1)
      active := 0
      nextPane := builder.nextPane
      nextWorkspace := following built.length }
    bindings := builder.bindings
    workspaces := built.map (·.2)
    ignored := sortDedup (again ++ unplaced) }

/-! ## What the builder draws -/

namespace Builder

structure Grows (before after : Builder) : Prop where
  placed : before.placed ⊆ after.placed
  bindings : before.bindings ⊆ after.bindings

theorem Grows.refl (builder : Builder) : Grows builder builder :=
  ⟨fun _ mem => mem, fun _ mem => mem⟩

theorem Grows.trans {first second third : Builder} (early : Grows first second)
    (late : Grows second third) : Grows first third :=
  ⟨fun _ mem => late.placed (early.placed mem),
    fun _ mem => late.bindings (early.bindings mem)⟩

theorem grows_place (builder : Builder) (row : WorkspaceRow) : Grows builder (builder.place row) :=
  ⟨subset_append_left _ _, fun _ mem => mem⟩

theorem grows_mint (builder : Builder) (node : Option WorkspaceRow) :
    Grows builder (builder.mint node).2 :=
  ⟨fun _ mem => mem, subset_append_left _ _⟩

/-- A row is placed, and one of the panes shows it. -/
structure Draws (builder : Builder) (panes : List PaneId) (row : WorkspaceRow) : Prop where
  placed : row.id ∈ builder.placed
  shown : ∃ pane ∈ panes, bindingOf pane (some row) ∈ builder.bindings

theorem Draws.mono {before after : Builder} {few many : List PaneId} {row : WorkspaceRow}
    (draws : Draws before few row) (grows : Grows before after) (more : few ⊆ many) :
    Draws after many row := by
  obtain ⟨pane, mem, bound⟩ := draws.shown
  exact ⟨grows.placed draws.placed, pane, more mem, grows.bindings bound⟩

/-- **Building rows one after the other.**  What building one row gives, and later building
keeps, holds of every row at the end. -/
theorem each_spec {Built : Type} (build : WorkspaceRow → Nat → Builder → Option (Built × Builder))
    (good : WorkspaceRow → Built → Builder → Prop)
    (keeps : ∀ row built before after, Grows before after → good row built before →
      good row built after)
    (rows : List WorkspaceRow)
    (builds : ∀ row ∈ rows, ∀ position builder, row.id ∈ builder.placed →
      ∃ built after, build row position builder = some (built, after) ∧ Grows builder after ∧
        good row built after)
    (position : Nat) (builder : Builder) :
    ∃ built after, each build rows position builder = some (built, after) ∧ Grows builder after ∧
      (∀ row ∈ rows, row.id ∈ after.placed ∧ ∃ one ∈ built, good row one after) ∧
      ∀ one ∈ built, ∃ row ∈ rows, good row one after := by
  induction rows generalizing position builder with
  | nil =>
    refine ⟨[], builder, rfl, .refl builder, ?_, ?_⟩
    · simp
    · simp
  | cons row rest ih =>
    obtain ⟨first, mid, builtFirst, grown, isGood⟩ :=
      builds row mem_cons_self position (builder.place row) (by simp [place])
    obtain ⟨others, after, builtRest, grows, later, every⟩ := ih
      (fun other mem => builds other (mem_cons_of_mem row mem)) (position + 1) mid
    refine ⟨first :: others, after, by simp [each, builtFirst, builtRest],
      (grows_place builder row).trans (grown.trans grows), ?_, ?_⟩
    · intro other mem
      rcases mem_cons.mp mem with rfl | inRest
      · exact ⟨grows.placed (grown.placed (by simp [place])), first, mem_cons_self,
          keeps _ _ _ _ grows isGood⟩
      · obtain ⟨placed, one, isOne, holds⟩ := later other inRest
        exact ⟨placed, one, mem_cons_of_mem first isOne, holds⟩
    · intro one mem
      rcases mem_cons.mp mem with rfl | inRest
      · exact ⟨row, mem_cons_self, keeps _ _ _ _ grows isGood⟩
      · obtain ⟨other, isOther, holds⟩ := every one inRest
        exact ⟨other, mem_cons_of_mem row isOther, holds⟩

variable {byId : Rows WorkspaceRow} {kind : WorkspaceNodeKind} {fuel : Nat}

/-- The panes below a pane, and the pane itself. -/
abbrev Below (byId : Rows WorkspaceRow) : WorkspaceRow → WorkspaceRow → Prop :=
  Relation.ReflTransGen fun row kid => kid ∈ kids byId row .pane

/-- A tree that shows a pane row and all below it. -/
structure DrawsPane (byId : Rows WorkspaceRow) (row : WorkspaceRow) (node : Node)
    (builder : Builder) : Prop where
  focus : (firstPane node).isSome
  below : ∀ other, Below byId row other → Draws builder node.panes other

theorem DrawsPane.keep (row : WorkspaceRow) (node : Node) (before after : Builder)
    (grows : Grows before after) (draws : DrawsPane byId row node before) :
    DrawsPane byId row node after :=
  ⟨draws.focus, fun other below => (draws.below other below).mono grows fun _ mem => mem⟩

theorem panes_subset {node : Node} {nodes : List Node} (mem : node ∈ nodes) :
    node.panes ⊆ partPanes (nodes.map fun node => (WEIGHT_UNIT, node)) := by
  induction nodes with
  | nil => cases mem
  | cons first rest ih =>
    rw [map_cons, partPanes]
    rcases mem_cons.mp mem with rfl | inRest
    · exact subset_append_left _ _
    · exact fun _ inNode => mem_append_right _ (ih inRest inNode)

def Indexed (byId : Rows WorkspaceRow) : Prop :=
  ∀ (id : String) (row : WorkspaceRow), byId[id]? = some row → row.id = id

def parentId (byId : Rows WorkspaceRow) (id : String) : Option String :=
  byId[id]?.bind (·.parentId)

theorem mem_kids_iff (indexed : Indexed byId) {row kid : WorkspaceRow} : kid ∈ kids byId row kind ↔
      byId[kid.id]? = some kid ∧ kid.parentId = some row.id ∧ kid.kind = kind := by
  simp only [kids, mem_filter, (perm_sortBy siblingOrder _).mem_iff, Rows.mem_values_iff,
    decide_eq_true_eq, and_assoc]
  constructor
  · rintro ⟨⟨id, hit⟩, names, isKind⟩
    obtain rfl := indexed id kid hit
    exact ⟨hit, names, isKind⟩
  · rintro ⟨hit, names, isKind⟩
    exact ⟨⟨kid.id, hit⟩, names, isKind⟩

def Enough (byId : Rows WorkspaceRow) (fuel : Nat) (row : WorkspaceRow) : Prop :=
  ∀ steps id, Forest.walk (parentId byId) steps id = some row.id → steps < fuel

theorem Enough.kid (indexed : Indexed byId) {row kid : WorkspaceRow}
    (enough : Enough byId (fuel + 1) row) (isKid : kid ∈ kids byId row kind) :
    Enough byId fuel kid := by
  intro steps id reaches
  obtain ⟨hit, names, -⟩ := (mem_kids_iff indexed).mp isKid
  refine Nat.lt_of_succ_lt_succ (enough (steps + 1) id ?_)
  rw [Forest.walk_succ, reaches, bind_some, parentId, hit, bind_some, names]

/-- **A pane is drawn with all below it**, and the fuel lasts. -/
theorem pane_spec (indexed : Indexed byId) {row : WorkspaceRow} {builder : Builder}
    (enough : Enough byId fuel row) (placed : row.id ∈ builder.placed) :
    ∃ node after, pane byId fuel row builder = some (node, after) ∧ Grows builder after ∧
      DrawsPane byId row node after := by
  induction fuel generalizing row builder with
  | zero => exact absurd (enough 0 row.id rfl) (Nat.lt_irrefl 0)
  | succ fuel ih =>
    have minted := grows_mint builder (some row)
    have own {panes : List PaneId} (mem : builder.nextPane ∈ panes) :
        Draws (builder.mint (some row)).2 panes row :=
      ⟨minted.placed placed, builder.nextPane, mem, by simp [mint]⟩
    cases isKids : kids byId row .pane with
    | nil =>
      refine ⟨.pane builder.nextPane, (builder.mint (some row)).2,
        by simp only [pane, isKids, mint], minted, rfl, ?_⟩
      intro other below
      rcases below.cases_head with rfl | ⟨kid, isKid, -⟩
      · exact own (by simp [Node.panes])
      · rw [isKids] at isKid
        cases isKid
    | cons first others =>
      obtain ⟨nodes, after, built, grows, good, -⟩ := each_spec (fun row _ => pane byId fuel row)
        (DrawsPane byId) DrawsPane.keep (kids byId row .pane)
        (fun kid isKid _ _ => ih (enough.kid indexed isKid)) 1
        (builder.mint (some row)).2
      refine ⟨.split .columns ((WEIGHT_UNIT, .pane builder.nextPane) ::
        nodes.map fun node => (WEIGHT_UNIT, node)), after, ?_, minted.trans grows, rfl, ?_⟩
      · rw [isKids] at built
        simp only [mint] at built
        simp [pane, isKids, mint, parts, built]
      · intro other below
        rcases below.cases_head with rfl | ⟨kid, isKid, further⟩
        · refine (own (mem_singleton_self _)).mono grows ?_
          simp [Node.panes, partPanes]
        · obtain ⟨-, node, isNode, draws⟩ := good kid isKid
          refine (draws.below other further).mono (.refl after) ?_
          intro pane inNode
          rw [Node.panes, partPanes]
          exact mem_append_right _ (panes_subset isNode inNode)

def DrawsPanes (byId : Rows WorkspaceRow) (tab : WorkspaceRow) (panes : List PaneId)
    (builder : Builder) : Prop :=
  ∀ pane ∈ kids byId tab .pane, ∀ below, Below byId pane below → Draws builder panes below

theorem DrawsPanes.mono {tab : WorkspaceRow} {few many : List PaneId} {before after : Builder}
    (draws : DrawsPanes byId tab few before) (grows : Grows before after) (more : few ⊆ many) :
    DrawsPanes byId tab many after :=
  fun pane isPane other below => (draws pane isPane other below).mono grows more

theorem tabRoot_spec (indexed : Indexed byId) {row : WorkspaceRow}
    (enough : Enough byId (fuel + 1) row) (builder : Builder) :
    ∃ node after, tabRoot byId fuel row builder = some (node, after) ∧ Grows builder after ∧
      (firstPane node).isSome ∧ DrawsPanes byId row node.panes after := by
  have eachPane (kid : WorkspaceRow) (isKid : kid ∈ kids byId row .pane) (at_ : Builder) :=
    @pane_spec byId fuel indexed kid at_ (enough.kid indexed isKid)
  unfold tabRoot DrawsPanes
  split
  next isKids =>
    refine ⟨_, _, rfl, grows_mint builder none, rfl, ?_⟩
    simp [isKids]
  next only isKids =>
    obtain ⟨node, after, built, grows, draws⟩ :=
      eachPane only (by simp [isKids]) (builder.place only) (by simp [place])
    refine ⟨node, after, built, (grows_place builder only).trans grows, draws.focus, ?_⟩
    intro pane isPane
    rw [isKids, mem_singleton] at isPane
    subst isPane
    exact draws.below
  next isKids notEmpty notOne =>
    obtain ⟨nodes, after, built, grows, good, every⟩ := each_spec (fun row _ => pane byId fuel row)
      (DrawsPane byId) DrawsPane.keep (kids byId row .pane)
      (fun kid isKid _ at_ => eachPane kid isKid at_) 1 builder
    refine ⟨.split .columns (nodes.map fun node => (WEIGHT_UNIT, node)), after,
      by simp [parts, built], grows, ?_, ?_⟩
    · obtain ⟨first, isFirst⟩ := exists_mem_of_ne_nil _ notEmpty
      obtain ⟨-, node, isNode, -⟩ := good first isFirst
      cases nodes with
      | nil => cases isNode
      | cons head others =>
        obtain ⟨row, -, draws⟩ := every head mem_cons_self
        exact draws.focus
    · intro pane isPane other below
      obtain ⟨-, node, isNode, draws⟩ := good pane isPane
      refine (draws.below other below).mono (.refl after) ?_
      rw [Node.panes]
      exact panes_subset isNode

/-- A tab with its binding, and the panes it shows. -/
structure DrawsTab (byId : Rows WorkspaceRow) (row : WorkspaceRow) (built : Tab × TabBinding)
    (builder : Builder) : Prop where
  binding : built.2 = ⟨row.id, row.version⟩
  panes : DrawsPanes byId row built.1.root.panes builder

theorem DrawsTab.keep (row : WorkspaceRow) (built : Tab × TabBinding) (before after : Builder)
    (grows : Grows before after) (draws : DrawsTab byId row built before) :
    DrawsTab byId row built after :=
  ⟨draws.binding, draws.panes.mono grows fun _ mem => mem⟩

theorem tab_spec (indexed : Indexed byId) {row : WorkspaceRow} (enough : Enough byId (fuel + 1) row)
    (position : Nat) (builder : Builder) :
    ∃ built after, tab byId fuel row position builder = some (built, after) ∧
      Grows builder after ∧ DrawsTab byId row built after := by
  obtain ⟨root, after, built, grows, focused, draws⟩ := tabRoot_spec indexed enough builder
  obtain ⟨focus, isFocus⟩ := isSome_iff_exists.mp focused
  exact ⟨(⟨toString position, root, focus⟩, ⟨row.id, row.version⟩), after,
    by simp [tab, built, isFocus], grows, rfl, draws⟩

theorem husk_spec (built : List (Tab × TabBinding)) (builder : Builder) :
    Grows builder (husk (built.map (·.1)) builder).2 ∧
      ∀ one ∈ built, one ∈ (husk (built.map (·.1)) builder).1.zip (built.map (·.2)) := by
  cases built with
  | nil => exact ⟨grows_mint builder none, fun one mem => by cases mem⟩
  | cons first rest =>
    refine ⟨.refl builder, fun one mem => ?_⟩
    have kept : husk ((first :: rest).map (·.1)) builder = ((first :: rest).map (·.1), builder) :=
      rfl
    rw [kept, zip_map']
    exact List.mem_map.mpr ⟨one, mem, rfl⟩

/-- A workspace with its binding, the tabs it holds, and the panes they show. -/
structure DrawsWorkspace (byId : Rows WorkspaceRow) (row : WorkspaceRow)
    (built : Workspace × WorkspaceBinding) (builder : Builder) : Prop where
  node : built.2.node = row.id
  version : built.2.version = row.version
  tabs : ∀ tab ∈ kids byId row .tab, tab.id ∈ builder.placed ∧
    (∃ one ∈ built.1.tabs.zip built.2.tabs, one.2 = ⟨tab.id, tab.version⟩) ∧
    DrawsPanes byId tab built.1.panes builder

theorem DrawsWorkspace.keep (row : WorkspaceRow) (built : Workspace × WorkspaceBinding)
    (before after : Builder) (grows : Grows before after)
    (draws : DrawsWorkspace byId row built before) : DrawsWorkspace byId row built after := by
  refine ⟨draws.node, draws.version, fun tab isTab => ?_⟩
  obtain ⟨placed, bound, shown⟩ := draws.tabs tab isTab
  exact ⟨grows.placed placed, bound, shown.mono grows fun _ mem => mem⟩

theorem workspace_spec (indexed : Indexed byId) {row : WorkspaceRow}
    (enough : Enough byId (fuel + 2) row) (position : Nat) (builder : Builder) :
    ∃ built after, workspace byId fuel row position builder = some (built, after) ∧
      Grows builder after ∧ DrawsWorkspace byId row built after := by
  obtain ⟨built, mid, isBuilt, grows, good, -⟩ := each_spec (tab byId fuel) (DrawsTab byId)
    DrawsTab.keep (kids byId row .tab)
    (fun kid isKid position at_ _ => tab_spec indexed (enough.kid indexed isKid) position at_)
    1 builder
  obtain ⟨husked, zipped⟩ := husk_spec built mid
  refine ⟨_, _, by simp only [workspace, isBuilt, bind_eq_bind, bind_some]; rfl,
    grows.trans husked, rfl, rfl, ?_⟩
  intro tab isTab
  obtain ⟨placed, one, isOne, draws⟩ := good tab isTab
  refine ⟨husked.placed placed, ⟨one, zipped one isOne, draws.binding⟩, draws.panes.mono husked ?_⟩
  intro pane inTab
  exact mem_flatMap.mpr ⟨one.1, (of_mem_zip (zipped one isOne)).1, inTab⟩

end Builder

/-! ## What the result shows -/

/-- A row appears in the result: a workspace and a tab with the binding that names the row
beside its model, a pane with its whole row bound to a pane on the surface. -/
def Reproduced.Shows (result : Reproduced) (row : WorkspaceRow) : Prop :=
  match row.kind with
  | .workspace =>
    ∃ shown ∈ result.state.workspaces.zip result.workspaces,
      shown.2.node = row.id ∧ shown.2.version = row.version
  | .tab =>
    ∃ shown ∈ result.state.workspaces.zip result.workspaces, some shown.2.node = row.parentId ∧
      ∃ tab ∈ shown.1.tabs.zip shown.2.tabs, tab.2 = ⟨row.id, row.version⟩
  | .pane => ∃ pane ∈ result.state.panes, Builder.bindingOf pane (some row) ∈ result.bindings

variable {rows : List WorkspaceRow} {row : WorkspaceRow} {pg : Postgres} {codec : Codec}
  {nodes : Rows WorkspaceNode}

theorem index_spec (distinct : (rows.map (·.id)).Nodup) : (index rows).2 = [] ∧
      ∀ (id : String) (row : WorkspaceRow),
        (index rows).1[id]? = some row ↔ row ∈ rows ∧ row.id = id := by
  induction rows using List.reverseRecOn with
  | nil => simp [index]
  | append_singleton rows last ih =>
    rw [map_append, nodup_append] at distinct
    obtain ⟨before, -, apart⟩ := distinct
    obtain ⟨none, hit⟩ := ih before
    have fresh (row : WorkspaceRow) (mem : row ∈ rows) : row.id ≠ last.id :=
      apart row.id (List.mem_map_of_mem mem) last.id (by simp)
    have absent : (index rows).1.contains last.id = false := by
      rw [← Bool.not_eq_true, contains_eq_isSome_getElem?, isSome_iff_exists]
      rintro ⟨row, isRow⟩
      obtain ⟨mem, eq⟩ := (hit last.id row).mp isRow
      exact fresh row mem eq
    have unfolded : index (rows ++ [last]) = ((index rows).1.insert last.id last,
        if (index rows).1.contains last.id then (index rows).2 ++ [last.id]
        else (index rows).2) := by
      rw [index, foldl_append]
      rfl
    rw [unfolded]
    refine ⟨by simp [absent, none], fun id row => ?_⟩
    rw [Rows.getElem?_insert_eq, mem_snoc]
    by_cases eq : last.id = id
    · rw [if_pos eq, some_inj]
      constructor
      · rintro rfl
        exact ⟨.inr rfl, eq⟩
      · rintro ⟨inRows | rfl, isId⟩
        · exact absurd (isId.trans eq.symm) (fresh row inRows)
        · rfl
    · rw [if_neg eq, hit]
      constructor
      · rintro ⟨mem, isId⟩
        exact ⟨.inl mem, isId⟩
      · rintro ⟨inRows | rfl, isId⟩
        · exact ⟨inRows, isId⟩
        · exact absurd isId eq

structure Arranged (byId : Rows WorkspaceRow) : Prop where
  indexed : Builder.Indexed byId
  roots : ∀ (id : String) (row : WorkspaceRow), byId[id]? = some row →
    (row.kind = .workspace ↔ row.parentId = none)
  under : ∀ (id : String) (row : WorkspaceRow) (parentId : String), byId[id]? = some row →
    row.parentId = some parentId →
    ∃ parent, byId[parentId]? = some parent ∧ SitsUnder row.kind parent.kind
  grounded : Forest.Grounded (Builder.parentId byId)

namespace Arranged

open Builder

variable {byId : Rows WorkspaceRow}

section Rows

variable (arranged : Arranged byId) (hit : byId[row.id]? = some row)

include arranged hit

theorem exists_parent (notRoot : row.kind ≠ .workspace) :
    ∃ parent, byId[parent.id]? = some parent ∧ SitsUnder row.kind parent.kind ∧
      parentId byId row.id = some parent.id ∧ row ∈ kids byId parent row.kind := by
  have named : row.parentId ≠ none := fun none =>
    notRoot ((arranged.roots row.id row hit).mpr none)
  obtain ⟨above, names⟩ := ne_none_iff_exists'.mp named
  obtain ⟨parent, there, sits⟩ := arranged.under row.id row above hit names
  obtain rfl := arranged.indexed above parent there
  refine ⟨parent, there, sits, ?_, (mem_kids_iff arranged.indexed).mpr ⟨hit, names, rfl⟩⟩
  rw [parentId, hit, bind_some, names]

theorem workspace_mem (isWorkspace : row.kind = .workspace) : row ∈ topRows byId := by
  simp only [topRows, Gridwork.Tui.roots, mem_filter, (perm_sortBy siblingOrder _).mem_iff,
    Rows.mem_values_iff, decide_eq_true_eq]
  exact ⟨⟨⟨row.id, hit⟩, (arranged.roots row.id row hit).mp isWorkspace⟩, isWorkspace⟩

theorem tab_mem (isTab : row.kind = .tab) :
    ∃ workspace ∈ topRows byId, row.parentId = some workspace.id ∧
      row ∈ kids byId workspace .tab := by
  obtain ⟨parent, there, sits, -, isKid⟩ := arranged.exists_parent hit (by simp [isTab])
  rw [isTab] at sits isKid
  have isWorkspace : parent.kind = .workspace := by
    cases kind : parent.kind with
    | workspace => rfl
    | tab | pane => simp [kind, SitsUnder] at sits
  exact ⟨parent, arranged.workspace_mem there isWorkspace,
    ((mem_kids_iff arranged.indexed).mp isKid).2.1, isKid⟩

end Rows

theorem pane_mem (arranged : Arranged byId) (hit : byId[row.id]? = some row)
    (isPane : row.kind = .pane) :
    ∃ tab, byId[tab.id]? = some tab ∧ tab.kind = .tab ∧
      ∃ pane ∈ kids byId tab .pane, Below byId pane row := by
  have upward := arranged.grounded row.id
  generalize isId : row.id = id at upward
  induction upward generalizing row with
  | intro id _ ih =>
    subst isId
    obtain ⟨parent, there, sits, names, isKid⟩ := arranged.exists_parent hit (by simp [isPane])
    rw [isPane] at sits isKid
    cases kind : parent.kind with
    | workspace => simp [kind, SitsUnder] at sits
    | tab => exact ⟨parent, there, kind, row, isKid, .refl⟩
    | pane =>
      obtain ⟨tab, inTable, isTab, pane, isTop, below⟩ :=
        ih parent.id names there kind rfl
      exact ⟨tab, inTable, isTab, pane, isTop, below.tail isKid⟩

theorem enough (arranged : Arranged byId) (extra : Nat) (row : WorkspaceRow) :
    Enough byId (byId.size + 1 + extra) row := by
  intro steps id reaches
  have bounded : steps ≤ byId.size := by
    refine arranged.grounded.steps_le_size ?_ reaches
    intro id above isParent
    obtain ⟨row, hit, -⟩ := bind_eq_some_iff.mp isParent
    simp [hit]
  omega

end Arranged

/-- **Rows that form a forest are all shown.**  The builder returns, ignores none of them,
and each appears in its result. -/
theorem reproduce_spec (distinct : (rows.map (·.id)).Nodup) (arranged : Arranged (index rows).1) :
    ∃ result, reproduce rows = some result ∧ result.ignored = [] ∧
      ∀ row ∈ rows, result.Shows row := by
  obtain ⟨none, lookup⟩ := index_spec distinct
  obtain ⟨built, after, isBuilt, -, good, -⟩ := Builder.each_spec
    (Builder.workspace (index rows).1 ((index rows).1.size + 1))
    (Builder.DrawsWorkspace (index rows).1) Builder.DrawsWorkspace.keep (topRows (index rows).1)
    (fun row _ position at_ _ =>
      Builder.workspace_spec arranged.indexed (arranged.enough 2 row) position at_)
    1 ⟨[], [], 1⟩
  let result : Reproduced := {
    state := ⟨built.map (·.1), 0, after.nextPane, following built.length⟩
    bindings := after.bindings
    workspaces := built.map (·.2)
    ignored := sortDedup ((index rows).2 ++ (index rows).1.keys.filter (· ∉ after.placed)) }
  have beside (one : Workspace × WorkspaceBinding) (mem : one ∈ built) :
      one ∈ result.state.workspaces.zip result.workspaces := by
    rw [zip_map']
    exact List.mem_map.mpr ⟨one, mem, rfl⟩
  have covered (row : WorkspaceRow) (mem : row ∈ rows) :
      row.id ∈ after.placed ∧ result.Shows row := by
    have hit := (lookup row.id row).mpr ⟨mem, rfl⟩
    unfold Reproduced.Shows
    cases kind : row.kind with
    | workspace =>
      obtain ⟨placed, one, isOne, draws⟩ := good row (arranged.workspace_mem hit kind)
      exact ⟨placed, one, beside one isOne, draws.node, draws.version⟩
    | tab =>
      obtain ⟨workspace, isTop, names, isKid⟩ := arranged.tab_mem hit kind
      obtain ⟨-, one, isOne, draws⟩ := good workspace isTop
      obtain ⟨placed, bound, -⟩ := draws.tabs row isKid
      exact ⟨placed, one, beside one isOne, by rw [draws.node, names], bound⟩
    | pane =>
      obtain ⟨tab, inTable, isTab, pane, isPane, below⟩ := arranged.pane_mem hit kind
      obtain ⟨workspace, isTop, -, isKid⟩ := arranged.tab_mem inTable isTab
      obtain ⟨-, one, isOne, draws⟩ := good workspace isTop
      obtain ⟨placed, shown, inPanes, bound⟩ := (draws.tabs tab isKid).2.2 pane isPane row below
      refine ⟨placed, shown, mem_flatMap.mpr ⟨one.1, ?_, inPanes⟩, bound⟩
      exact List.mem_map.mpr ⟨one, isOne, rfl⟩
  refine ⟨result, by simp [reproduce, isBuilt, result], ?_, fun row mem => (covered row mem).2⟩
  refine eq_nil_iff_forall_not_mem.mpr fun id ignored => ?_
  have missed := mem_of_mem_sortDedup ignored
  rw [none, nil_append, mem_filter, Std.TreeMap.mem_keys, mem_iff_isSome_getElem?,
    isSome_iff_exists] at missed
  obtain ⟨⟨row, hit⟩, unplaced⟩ := missed
  obtain ⟨mem, rfl⟩ := (lookup id row).mp hit
  exact absurd (covered row mem).1 (by simpa using unplaced)

/-! ## The table of the kernel -/

def rowOf (pg : Postgres) (id : String) (node : WorkspaceNode) : WorkspaceRow where
  id := id
  version := node.version
  kind := node.kind
  parentId := node.parentId
  sessionId := node.sessionId
  createdAt := pg.render node.createdAt

def listing (pg : Postgres) (nodes : Rows WorkspaceNode) : List WorkspaceRow :=
  nodes.toList.map fun entry => rowOf pg entry.1 entry.2

theorem mem_listing_iff :
    row ∈ listing pg nodes ↔ ∃ node, nodes[row.id]? = some node ∧ rowOf pg row.id node = row := by
  simp only [listing, List.mem_map, Prod.exists, mem_toList_iff_getElem?_eq_some]
  constructor
  · rintro ⟨id, node, hit, rfl⟩
    exact ⟨node, hit, rfl⟩
  · rintro ⟨node, hit, isRow⟩
    exact ⟨row.id, node, hit, isRow⟩

theorem nodup_listing : ((listing pg nodes).map (·.id)).Nodup := by
  have ids : (listing pg nodes).map (·.id) = nodes.keys := by
    rw [listing, List.map_map, ← map_fst_toList_eq_keys]
    rfl
  rw [ids]
  exact nodup_keys

theorem getElem?_index (lists : rows.Perm (listing pg nodes)) (id : String) :
    (index rows).1[id]? = nodes[id]?.map (rowOf pg id) := by
  have distinct := (lists.map (·.id)).nodup_iff.mpr nodup_listing
  refine Option.ext fun row => ?_
  rw [(index_spec distinct).2, lists.mem_iff, mem_listing_iff, map_eq_some_iff]
  constructor
  · rintro ⟨⟨node, hit, isRow⟩, rfl⟩
    exact ⟨node, hit, isRow⟩
  · rintro ⟨node, hit, rfl⟩
    exact ⟨⟨node, hit, rfl⟩, rfl⟩

theorem arranged_of_forest (forest : WorkspaceForest nodes) (lists : rows.Perm (listing pg nodes)) :
    Arranged (index rows).1 := by
  have stored {id : String} {row : WorkspaceRow} (hit : (index rows).1[id]? = some row) :
      ∃ node, nodes[id]? = some node ∧ rowOf pg id node = row := by
    rwa [getElem?_index lists, map_eq_some_iff] at hit
  refine ⟨?_, ?_, ?_, ?_⟩
  · intro id row hit
    obtain ⟨node, -, rfl⟩ := stored hit
    rfl
  · intro id row hit
    obtain ⟨node, isNode, rfl⟩ := stored hit
    exact forest.roots id node isNode
  · intro id row parentId hit names
    obtain ⟨node, isNode, rfl⟩ := stored hit
    obtain ⟨parent, there, sits⟩ := forest.under id node parentId isNode names
    exact ⟨rowOf pg parentId parent, by simp [getElem?_index lists, there], sits⟩
  · have eq : Builder.parentId (index rows).1 = parentOf nodes := by
      funext id
      rw [Builder.parentId, getElem?_index lists, parentOf]
      cases nodes[id]? with
      | none | some node => rfl
    rw [eq]
    exact forest.grounded

/-- **The tree stays a forest and is shown in full.**  After every history the workspace
nodes are a forest, the walk of a move ends and misses no ancestor, and from the rows, in
whatever order, the client reproduces an arrangement in which each of them appears. -/
theorem after_workspaces_shown {initial : Db} (init : Initialised pg codec initial)
    (calls : List Call) :
    let nodes := (after pg codec initial calls).tables.derived.workspaceNode
    WorkspaceForest nodes ∧
      (∀ id steps, nodes.size < steps → Forest.walk (parentOf nodes) steps id = none) ∧
      (∀ id sought, nodes[sought]?.isSome → (isAncestor nodes sought (nodes.size + 1) id = true ↔
          ∃ steps, Forest.walk (parentOf nodes) steps id = some sought)) ∧
      ∀ rows : List WorkspaceRow, rows.Perm (listing pg nodes) →
        ∃ result, reproduce rows = some result ∧ result.ignored = [] ∧
          ∀ row ∈ rows, result.Shows row := by
  intro nodes
  have forest : WorkspaceForest nodes := after_workspaceForest init calls
  refine ⟨forest, fun id steps many => forest.walk_eq_none many id,
    fun id sought present => forest.isAncestor_iff present id, fun rows lists => ?_⟩
  have distinct := (lists.map (·.id)).nodup_iff.mpr nodup_listing
  exact reproduce_spec distinct (arranged_of_forest forest lists)

open Sample in
/-- A workspace, a tab, a pane and a pane split from it, of which the second pane has been
moved to the tab. -/
def Sample.arranged : List Call :=
  [activate,
    call (.createWorkspaceNode "w" .workspace none none) "k1" operator,
    call (.createWorkspaceNode "t" .tab (some "w") none) "k2" operator,
    call (.createWorkspaceNode "p" .pane (some "t") (some "s")) "k3" operator,
    call (.createWorkspaceNode "q" .pane (some "p") none) "k4" operator,
    call (.moveWorkspaceNode "q" "t" 1) "k5" operator]

open Sample in
theorem after_workspaces_shown_arranged :
    let nodes := (after postgres Sample.codec initial
      Sample.arranged).tables.derived.workspaceNode
    ∃ result, reproduce (listing postgres nodes) = some result ∧
      result.ignored = [] ∧ result.Shows ⟨"w", 1, .workspace, none, none, "p"⟩ ∧
      result.Shows ⟨"t", 1, .tab, some "w", none, "p"⟩ ∧
      result.Shows ⟨"p", 1, .pane, some "t", some "s", "p"⟩ ∧
      result.Shows ⟨"q", 2, .pane, some "t", none, "p"⟩ := by
  intro nodes
  obtain ⟨-, -, -, shown⟩ := after_workspaces_shown init Sample.arranged
  obtain ⟨result, reproduced, none, shows⟩ := shown (listing postgres nodes) (.refl _)
  exact ⟨result, reproduced, none, shows _ (by decide +kernel), shows _ (by decide +kernel),
    shows _ (by decide +kernel), shows _ (by decide +kernel)⟩

end Gridwork.Tui
