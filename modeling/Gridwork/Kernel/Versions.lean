import Gridwork.Kernel.Ownership

/-!
# Versions of the log and of the rows

Eleven projection tables carry a version column.  `decide` reads that column while the append reads
the log, and the two meet because every event of an aggregate stamps its own version on the
aggregate's row and on no other.
-/

namespace Gridwork.Kernel

open Domain Lib List Rows

variable {pg : Postgres} {codec : Codec} {aggregateId : AggregateId}
  {aggregateType context kind id cutoverId manifest : String} {row event genesis : Event}
  {envelope : CommandEnvelope} {tasks : Rows Task} {attempts : Rows Attempt}
  {events stored batch : List Event} {accepted want version : UInt32} {db initial : Db}
  {call : Call} {request : Request} {now : Instant}

/-! ## The versions of one aggregate -/

def Contiguous (events : List Event) : Prop :=
  ∀ aggregate, (aggregateEvents aggregate events).map (·.aggregateVersion.toNat) =
    List.range' 1 (aggregateEvents aggregate events).length

theorem le_currentAggregateVersion (mem : event ∈ events) : event.aggregateVersion.toNat ≤
      (currentAggregateVersion events event.aggregateType event.aggregateId).toNat := by
  have listed : event.aggregateVersion ∈
      (aggregateEvents event.aggregate events).map (·.aggregateVersion) :=
    mem_map_of_mem (mem_aggregateEvents.mpr ⟨mem, rfl⟩)
  unfold currentAggregateVersion
  cases highest : ((aggregateEvents event.aggregate events).map (·.aggregateVersion)).max? with
  | none =>
    rw [max?_eq_none_iff.mp highest] at listed
    cases listed
  | some version =>
    have eq : ((aggregateEvents (event.aggregateType, event.aggregateId) events).map
        (·.aggregateVersion)).max? = some version := highest
    rw [eq]
    exact UInt32.le_iff_toNat_le.mp ((max?_eq_some_iff.mp highest).2 _ listed)

theorem currentAggregateVersion_eq_zero
    (none : aggregateEvents (aggregateType, aggregateId) events = []) :
    currentAggregateVersion events aggregateType aggregateId = 0 := by
  rw [currentAggregateVersion, none]
  rfl

theorem currentAggregateVersion_snoc_of_ne (other : row.aggregate ≠ (aggregateType, aggregateId)) :
    currentAggregateVersion (events ++ [row]) aggregateType aggregateId =
      currentAggregateVersion events aggregateType aggregateId := by
  rw [currentAggregateVersion, aggregateEvents_snoc, if_neg other, append_nil,
    currentAggregateVersion]

theorem currentAggregateVersion_snoc
    (next : (currentAggregateVersion events row.aggregateType row.aggregateId).toNat <
      row.aggregateVersion.toNat) :
    currentAggregateVersion (events ++ [row]) row.aggregateType row.aggregateId =
      row.aggregateVersion := by
  have highest : ((aggregateEvents (row.aggregateType, row.aggregateId) (events ++ [row])).map
      (·.aggregateVersion)).max? = some row.aggregateVersion := by
    rw [max?_eq_some_iff]
    have isOwn : row.aggregate = (row.aggregateType, row.aggregateId) := rfl
    simp only [aggregateEvents_snoc, if_pos isOwn, map_append, map_cons, map_nil,
      mem_append, mem_map, mem_singleton, or_true, true_and]
    rintro version (⟨event, mem, rfl⟩ | rfl)
    · obtain ⟨inLog, eq⟩ := mem_aggregateEvents.mp mem
      obtain ⟨sameType, sameId⟩ := Prod.ext_iff.mp eq
      have reached := le_currentAggregateVersion inLog
      rw [show event.aggregateType = row.aggregateType from sameType,
        show event.aggregateId = row.aggregateId from sameId] at reached
      exact UInt32.le_iff_toNat_le.mpr (reached.trans next.le)
    · exact UInt32.le_refl _
  rw [currentAggregateVersion, highest]
  rfl

theorem Contiguous.toNat_currentAggregateVersion
    (contiguous : Contiguous events) (aggregateType : String) (aggregateId : AggregateId) :
    (currentAggregateVersion events aggregateType aggregateId).toNat =
      (aggregateEvents (aggregateType, aggregateId) events).length := by
  have counted := contiguous (aggregateType, aggregateId)
  cases listed : (aggregateEvents (aggregateType, aggregateId) events).reverse with
  | nil =>
    have empty := reverse_eq_nil_iff.mp listed
    rw [currentAggregateVersion_eq_zero empty, empty]
    rfl
  | cons last prior =>
    have split : aggregateEvents (aggregateType, aggregateId) events =
        prior.reverse ++ [last] := by
      rw [← reverse_reverse (aggregateEvents (aggregateType, aggregateId) events), listed,
        reverse_cons]
    have versions := counted
    rw [split, map_append, length_append, length_singleton, range'_concat,
      map_singleton] at versions
    obtain ⟨below, atEnd⟩ := append_inj' versions rfl
    have ends : last.aggregateVersion.toNat = 1 + 1 * prior.reverse.length :=
      (List.cons.inj atEnd).1
    have highest : ((aggregateEvents (aggregateType, aggregateId) events).map
        (·.aggregateVersion)).max? = some last.aggregateVersion := by
      rw [max?_eq_some_iff, split]
      refine ⟨by simp, ?_⟩
      intro version mem
      simp only [map_append, map_cons, map_nil, mem_append, mem_map, mem_singleton] at mem
      rcases mem with ⟨event, inside, rfl⟩ | rfl
      · have place : event.aggregateVersion.toNat ∈ List.range' 1 prior.reverse.length := by
          rw [← below]
          exact mem_map_of_mem inside
        rw [mem_range'_1] at place
        rw [UInt32.le_iff_toNat_le]
        omega
      · exact UInt32.le_refl _
    rw [currentAggregateVersion, highest, split, Option.getD_some, ends, length_append,
      length_singleton]
    omega

theorem Contiguous.snoc (contiguous : Contiguous events) (next : row.aggregateVersion.toNat =
      (currentAggregateVersion events row.aggregateType row.aggregateId).toNat + 1) :
    Contiguous (events ++ [row]) := by
  intro aggregate
  rw [aggregateEvents_snoc]
  by_cases eq : row.aggregate = aggregate
  · subst eq
    have count := contiguous.toNat_currentAggregateVersion row.aggregateType row.aggregateId
    rw [if_pos rfl, map_append, contiguous, length_append, length_singleton,
      range'_concat, map_singleton, next, count]
    congr 2
    change (aggregateEvents row.aggregate events).length + 1 = _
    omega
  · rw [if_neg eq, append_nil]
    exact contiguous aggregate

/-! ## Versioned tables -/

/-- A table of versioned rows: the family of its aggregates, and the column a stamp
writes. -/
class Numbered (Row : Type) [Versioned Row] where
  family : String
  version : Row → UInt32
  version_stamp : ∀ (row : Row) (number : UInt32) (time : Instant),
    version (Versioned.stamp row number time) = number

instance : Numbered Task := ⟨"task", Task.version, fun _ _ _ => rfl⟩

instance : Numbered Attempt := ⟨"attempt", Attempt.version, fun _ _ _ => rfl⟩

instance : Numbered Message := ⟨"message", Message.version, fun _ _ _ => rfl⟩

instance : Numbered Command := ⟨"command", Command.version, fun _ _ _ => rfl⟩

open Numbered

instance : Numbered Lease := ⟨"lease", Lease.version, fun _ _ _ => rfl⟩

instance : Numbered DispatchNode := ⟨"dispatch_node", DispatchNode.version, fun _ _ _ => rfl⟩

instance : Numbered Gate := ⟨"gate", Gate.version, fun _ _ _ => rfl⟩

instance : Numbered WorkspaceNode := ⟨"workspace_node", WorkspaceNode.version, fun _ _ _ => rfl⟩

instance : Numbered WorkflowRun := ⟨"workflow_run", WorkflowRun.version, fun _ _ _ => rfl⟩

instance : Numbered PtySession := ⟨"pty_session", PtySession.version, fun _ _ _ => rfl⟩

instance : Numbered PtySessionTemplate :=
  ⟨"pty_session_template", PtySessionTemplate.version, fun _ _ _ => rfl⟩

section Tables

variable {Row : Type} [Versioned Row] [Numbered Row] {rows result : Rows Row}

/-- Every row is at the version its aggregate has reached in the log. -/
def Tracks (events : List Event) (rows : Rows Row) : Prop :=
  ∀ (id : String) (row : Row), rows[id]? = some row →
    Numbered.version row = currentAggregateVersion events (Numbered.family Row) id

/-- An event writes the row of its own aggregate, at its own version, and no other. -/
def Moves (event : Event) (rows result : Rows Row) : Prop :=
  ∀ (id : String) (row : Row), result[id]? = some row →
    if id = event.aggregateId then Numbered.version row = event.aggregateVersion
    else rows[id]? = some row

/-- What an event does to a table: it moves the table of its own family and leaves every
other table alone. -/
def Touches (event : Event) (rows result : Rows Row) : Prop :=
  if event.aggregateType = Numbered.family Row then Moves event rows result else result = rows

theorem moves_insert {row : Row} (stamped : Numbered.version row = event.aggregateVersion) :
    Moves event rows (rows.insert event.aggregateId row) := by
  intro id hit
  rw [getElem?_insert_eq]
  by_cases eq : event.aggregateId = id
  · rw [if_pos eq, if_pos eq.symm]
    intro isRow
    rw [← Option.some.inj isRow]
    exact stamped
  · rw [if_neg eq, if_neg (Ne.symm eq)]
    exact fun kept => kept

theorem moves_revise {change : Row → Instant → Except Refusal Row}
    (revised : revise pg event context kind event.aggregateId change rows = .ok result) :
    Moves event rows result := by
  obtain ⟨row, time, changed, -, -, -, -, rfl⟩ := revise_ok.mp revised
  exact moves_insert (version_stamp changed event.aggregateVersion time)

theorem moves_erase : Moves event rows (rows.erase event.aggregateId) := by
  intro id row hit
  rw [Std.TreeMap.getElem?_erase] at hit
  simp only [Std.compare_eq_iff_eq] at hit
  split at hit
  · cases hit
  next ne =>
    rw [if_neg (Ne.symm ne)]
    exact hit

theorem Tracks.snoc (tracks : Tracks events rows) (touches : Touches event rows result)
    (next : (currentAggregateVersion events event.aggregateType event.aggregateId).toNat <
      event.aggregateVersion.toNat) :
    Tracks (events ++ [event]) result := by
  intro id row hit
  unfold Touches at touches
  by_cases family : event.aggregateType = family Row
  · rw [if_pos family] at touches
    have moved := touches id row hit
    by_cases own : id = event.aggregateId
    · rw [if_pos own] at moved
      rw [own, ← family, currentAggregateVersion_snoc next]
      exact moved
    · rw [if_neg own] at moved
      rw [currentAggregateVersion_snoc_of_ne]
      · exact tracks id row moved
      · intro eq
        exact own (Prod.ext_iff.mp eq).2.symm
  · rw [if_neg family] at touches
    rw [currentAggregateVersion_snoc_of_ne]
    · exact tracks id row (touches ▸ hit)
    · intro eq
      exact family (Prod.ext_iff.mp eq).1

end Tables

/-! ## One lemma per table -/

/-- An event stands on the aggregate its command names. -/
structure Addressed (event : Event) (command : KernelCommand) : Prop where
  family : event.aggregateType = command.address.1
  target : ∃ envelope, command.targetId envelope = some event.aggregateId

section Touches

variable {command : KernelCommand} (addressed : Addressed event command)

include addressed

theorem touches_of_moves {Row : Type} [Versioned Row] [Numbered Row] {rows result : Rows Row}
    (own : command.address.1 = family Row)
    (moves : Moves event rows result) : Touches event rows result := by
  rw [Touches, if_pos (addressed.family.trans own)]
  exact moves

theorem touches_of_ne {Row : Type} [Versioned Row] [Numbered Row] {rows result : Rows Row}
    (other : (command.address.1 == family Row) = false)
    (unchanged : (.ok rows : Except Refusal (Rows Row)) = .ok result) :
    Touches event rows result := by
  have ne : ¬ event.aggregateType = family Row := by
    rw [addressed.family]
    exact beq_eq_false_iff_ne.mp other
  rw [Touches, if_neg ne]
  exact (Except.ok.inj unchanged).symm

theorem touches_revise {Row : Type} [Versioned Row] [Numbered Row] {rows result : Rows Row}
    {change : Row → Instant → Except Refusal Row}
    (own : command.address.1 = family Row) (target : some id = some event.aggregateId)
    (revised : revise pg event context kind id change rows = .ok result) :
    Touches event rows result := by
  cases target
  exact touches_of_moves addressed own (moves_revise revised)

theorem touches_insert {Row : Type} [Versioned Row] [Numbered Row] {rows : Rows Row} {row : Row}
    (own : command.address.1 = family Row) (target : some id = some event.aggregateId)
    (stamped : Numbered.version row = event.aggregateVersion) :
    Touches event rows (rows.insert id row) := by
  cases target
  exact touches_of_moves addressed own (moves_insert stamped)

variable (target : command.targetId envelope = some event.aggregateId)

include target

theorem touches_applyTask {rows result : Rows Task}
    (applies : applyTask pg event command rows = .ok result) : Touches event rows result := by
  cases command with
  | createTask =>
    simp only [applyTask, bind_ok, exists_unit, insertNew_ok] at applies
    obtain ⟨time, -, -, -, rfl⟩ := applies
    exact touches_insert addressed rfl target rfl
  | transitionTask => exact touches_revise addressed rfl target applies
  | _ => exact touches_of_ne addressed rfl applies

theorem touches_applyAttempt {leases : Rows Lease} {rows result : Rows Attempt}
    (applies : applyAttempt pg event command tasks leases rows = .ok result) :
    Touches event rows result := by
  cases command with
  | createAttempt =>
    simp only [applyAttempt, bind_ok, exists_unit, insertNew_ok, pure_ok] at applies
    obtain ⟨time, -, -, _, ⟨-, rfl⟩, -, -, rfl⟩ := applies
    exact touches_insert addressed rfl target rfl
  | transitionAttempt | updateBudget | recordAttemptRuntime | recordAttemptOutcome
  | recordRound | recordFinding => exact touches_revise addressed rfl target applies
  | _ => exact touches_of_ne addressed rfl applies

theorem touches_applyLease {rows result : Rows Lease}
    (applies : applyLease pg event command rows = .ok result) : Touches event rows result := by
  cases command with
  | acquireLease =>
    simp only [applyLease, bind_ok, insertNew_ok] at applies
    obtain ⟨expiresAt, -, time, -, -, rfl⟩ := applies
    exact touches_insert addressed rfl target rfl
  | renewLease | releaseLease | expireLease => exact touches_revise addressed rfl target applies
  | _ => exact touches_of_ne addressed rfl applies

theorem touches_applyDispatchNode {rows result : Rows DispatchNode}
    (applies : applyDispatchNode pg event command attempts rows = .ok result) :
    Touches event rows result := by
  cases command with
  | registerDispatchNode =>
    simp only [applyDispatchNode, bind_ok, exists_unit, insertNew_ok, pure_ok] at applies
    obtain ⟨time, -, _, ⟨-, rfl⟩, -, -, rfl⟩ := applies
    exact touches_insert addressed rfl target rfl
  | transitionDispatchNode => exact touches_revise addressed rfl target applies
  | _ => exact touches_of_ne addressed rfl applies

theorem touches_applyWorkspaceNode {rows result : Rows WorkspaceNode}
    (applies : applyWorkspaceNode pg event command rows = .ok result) :
    Touches event rows result := by
  cases command with
  | createWorkspaceNode =>
    simp only [applyWorkspaceNode, bind_ok, exists_unit, insertNew_ok, pure_ok] at applies
    obtain ⟨time, -, -, -, _, ⟨-, rfl⟩, -, rfl⟩ := applies
    exact touches_insert addressed rfl target rfl
  | moveWorkspaceNode =>
    refine touches_of_moves addressed rfl ?_
    cases target
    simp only [applyWorkspaceNode, bind_ok, exists_unit, pure_ok] at applies
    obtain ⟨moved, revised, -, rfl⟩ := applies
    exact moves_revise revised
  | rebindWorkspacePane => exact touches_revise addressed rfl target applies
  | closeWorkspaceNode =>
    refine touches_of_moves addressed rfl ?_
    cases target
    simp only [applyWorkspaceNode, bind_ok, exists_unit, pure_ok] at applies
    obtain ⟨-, -, rfl⟩ := applies
    exact moves_erase
  | _ => exact touches_of_ne addressed rfl applies

theorem touches_applyWorkflowRun {rows result : Rows WorkflowRun}
    (applies : applyWorkflowRun pg event command tasks rows = .ok result) :
    Touches event rows result := by
  cases command with
  | openWorkflowRun =>
    simp only [applyWorkflowRun, bind_ok, exists_unit, insertNew_ok, pure_ok] at applies
    obtain ⟨time, -, -, _, ⟨-, rfl⟩, -, rfl⟩ := applies
    exact touches_insert addressed rfl target rfl
  | advanceWorkflowRun | closeWorkflowRun => exact touches_revise addressed rfl target applies
  | _ => exact touches_of_ne addressed rfl applies

theorem touches_applyMessage {rows result : Rows Message}
    (applies : applyMessage pg event command rows = .ok result) : Touches event rows result := by
  cases command with
  | sendMessage =>
    simp only [applyMessage] at applies
    split at applies
    next => cases applies
    next key keyed =>
      simp only [bind_ok, exists_unit, insertNew_ok, pure_ok] at applies
      obtain ⟨deadline, -, time, -, -, -, _, ⟨-, rfl⟩, -, rfl⟩ := applies
      exact touches_insert addressed rfl target rfl
  | transitionMessage => exact touches_revise addressed rfl target applies
  | _ => exact touches_of_ne addressed rfl applies

theorem touches_applyCommandRow {rows result : Rows Command}
    (applies : applyCommandRow pg event command rows = .ok result) : Touches event rows result := by
  cases command with
  | issueCommand =>
    simp only [applyCommandRow, bind_ok, exists_unit, insertNew_ok] at applies
    obtain ⟨time, -, -, -, -, rfl⟩ := applies
    exact touches_insert addressed rfl target rfl
  | transitionCommand | recordCommandOutcome => exact touches_revise addressed rfl target applies
  | _ => exact touches_of_ne addressed rfl applies

theorem touches_applyGate {rows result : Rows Gate}
    (applies : applyGate pg event command attempts rows = .ok result) :
    Touches event rows result := by
  cases command with
  | openGate =>
    simp only [applyGate, bind_ok, exists_unit, insertNew_ok, pure_ok] at applies
    obtain ⟨time, -, _, ⟨-, rfl⟩, -, rfl⟩ := applies
    exact touches_insert addressed rfl target rfl
  | decideGate => exact touches_revise addressed rfl target applies
  | _ => exact touches_of_ne addressed rfl applies

theorem touches_applyPtySession {engineSessions : Rows EngineSession}
    {rows result : Rows PtySession}
    (applies : applyPtySession pg event command engineSessions rows = .ok result) :
    Touches event rows result := by
  cases command with
  | openPtySession =>
    simp only [applyPtySession, bind_ok, exists_unit, insertNew_ok, pure_ok] at applies
    obtain ⟨time, -, _, ⟨-, rfl⟩, -, rfl⟩ := applies
    exact touches_insert addressed rfl target rfl
  | recordPtyAttach | recordPtyDetach | closePtySession | sendPtyInput | resizePtySession
  | stopPtySession => exact touches_revise addressed rfl target applies
  | _ => exact touches_of_ne addressed rfl applies

theorem touches_applyPtySessionTemplate {rows result : Rows PtySessionTemplate}
    (applies : applyPtySessionTemplate pg event command rows = .ok result) :
    Touches event rows result := by
  cases command with
  | declarePtySessionTemplate =>
    simp only [applyPtySessionTemplate, bind_ok, exists_unit, insertNew_ok] at applies
    obtain ⟨time, -, -, -, -, -, -, rfl⟩ := applies
    exact touches_insert addressed rfl target rfl
  | retirePtySessionTemplate => exact touches_revise addressed rfl target applies
  | _ => exact touches_of_ne addressed rfl applies

end Touches

/-! ## Every versioned table -/

/-- Every versioned table is in step with the log. -/
structure VersionsAgree (events : List Event) (tables : Derived) : Prop where
  attempt : Tracks events tables.attempt
  command : Tracks events tables.command
  dispatchNode : Tracks events tables.dispatchNode
  gate : Tracks events tables.gate
  lease : Tracks events tables.lease
  message : Tracks events tables.message
  ptySession : Tracks events tables.ptySession
  ptySessionTemplate : Tracks events tables.ptySessionTemplate
  task : Tracks events tables.task
  workflowRun : Tracks events tables.workflowRun
  workspaceNode : Tracks events tables.workspaceNode

theorem tracks_empty {Row : Type} [Versioned Row] [Numbered Row] (events : List Event) :
    Tracks events (∅ : Rows Row) := by
  intro id row hit
  simp at hit

theorem VersionsAgree.empty (events : List Event) : VersionsAgree events .empty :=
  ⟨tracks_empty _, tracks_empty _, tracks_empty _, tracks_empty _, tracks_empty _, tracks_empty _,
    tracks_empty _, tracks_empty _, tracks_empty _, tracks_empty _, tracks_empty _⟩

theorem VersionsAgree.snoc {command : KernelCommand}
    {tables result : Derived} (agree : VersionsAgree events tables)
    (addressed : Addressed event command)
    (each : AppliesDerived pg event command tables result)
    (next : (currentAggregateVersion events event.aggregateType event.aggregateId).toNat <
      event.aggregateVersion.toNat) :
    VersionsAgree (events ++ [event]) result := by
  obtain ⟨envelope, target⟩ := addressed.target
  exact {
    attempt := agree.attempt.snoc (touches_applyAttempt addressed target each.attempt) next
    command := agree.command.snoc (touches_applyCommandRow addressed target each.commandRow) next
    dispatchNode :=
      agree.dispatchNode.snoc (touches_applyDispatchNode addressed target each.dispatchNode) next
    gate := agree.gate.snoc (touches_applyGate addressed target each.gate) next
    lease := agree.lease.snoc (touches_applyLease addressed target each.lease) next
    message := agree.message.snoc (touches_applyMessage addressed target each.message) next
    ptySession :=
      agree.ptySession.snoc (touches_applyPtySession addressed target each.ptySession) next
    ptySessionTemplate := agree.ptySessionTemplate.snoc
      (touches_applyPtySessionTemplate addressed target each.ptySessionTemplate) next
    task := agree.task.snoc (touches_applyTask addressed target each.task) next
    workflowRun :=
      agree.workflowRun.snoc (touches_applyWorkflowRun addressed target each.workflowRun) next
    workspaceNode := agree.workspaceNode.snoc
      (touches_applyWorkspaceNode addressed target each.workspaceNode) next }

/-! ## What the decision reads -/

/-- The commands that open an aggregate: they assert that it has no events. -/
def KernelCommand.creates : KernelCommand → Bool
  | createWorkspaceNode .. | createTask .. | createAttempt .. | openEngineSession ..
  | acquireLease .. | registerWorktree .. | registerDispatchNode .. | sendMessage ..
  | issueCommand .. | openGate .. | recordEvidence .. | recordCostEntry .. | openWorkflowRun ..
  | openPtySession .. | declarePtySessionTemplate .. | requestPtySessionStart ..
  | grantAuthority .. | raiseAttention .. => true
  | _ => false

section Decides

variable {Row S : Type} [Versioned Row] [Numbered Row] {rows : Rows Row}

theorem Tracks.of_fetch {missing : Refusal} {row : Row} (tracks : Tracks events rows)
    (fetched : fetch rows missing id = .ok row) :
    currentAggregateVersion events (Numbered.family Row) id = Numbered.version row :=
  (tracks id row (fetch_ok.mp fetched)).symm

theorem Tracks.of_decideCas (tracks : Tracks events rows)
    (decided : decideCas rows Numbered.version kind id want = .ok accepted) :
    currentAggregateVersion events (family Row) id = accepted := by
  simp only [decideCas, bind_ok, exists_unit, pure_ok] at decided
  obtain ⟨row, fetched, -, rfl⟩ := decided
  exact tracks.of_fetch fetched

theorem decideTransition_eq [DecidableEq S] [TransitionGuard S] {state target : S}
    {receiptId : Option ReceiptId}
    (decided : decideTransition state version target want envelope receiptId =
      .ok accepted) : version = accepted := by
  unfold decideTransition at decided
  simp only at decided
  split at decided
  next => exact Except.ok.inj decided
  next => cases decided
  next => cases decided
  next => cases decided

end Decides

theorem currentAggregateVersion_of_activation
    (admits : admitted (epochOf events) (.activateKernel cutoverId manifest) = true)
    (first : checkSecondCutover events (epochOf events) (.activateKernel cutoverId manifest) =
      .ok ()) :
    currentAggregateVersion events KERNEL_AGGREGATE KERNEL_SINGLETON = 1 := by
  simp only [checkSecondCutover] at first
  split at first
  next active =>
    split at first
    next => cases first
    next => cases first
  next inactive =>
    unfold epochOf Epoch.ofVersion at admits inactive
    split at admits
    next => cases admits
    next started =>
      rw [if_neg started] at inactive
      by_contra advanced
      exact inactive (if_neg advanced)

/-- **What decide accepts is what the log says.**  Every command but a create is accepted at
the version its aggregate has in the log. -/
theorem decide_eq_current {command : KernelCommand} {route : Route}
    (agree : VersionsAgree db.events db.tables.derived)
    (routed : routeOf envelope command = .ok route)
    (admits : admitted (epochOf db.events) command = true)
    (first : checkSecondCutover db.events (epochOf db.events) command = .ok ())
    (existing : command.creates = false)
    (decided : decide db envelope command route = .ok accepted) :
    currentAggregateVersion db.events route.aggregateType route.aggregateId = accepted := by
  obtain ⟨-, target, -, address⟩ := routeOf_ok.mp routed
  obtain ⟨family, -⟩ := Prod.ext_iff.mp address
  change route.aggregateType = command.address.1 at family
  rw [family]
  cases command with
  | activateKernel =>
    rw [← Option.some.inj target, ← Except.ok.inj decided]
    exact currentAggregateVersion_of_activation admits first
  | transitionTask =>
    simp only [decide, bind_ok] at decided
    obtain ⟨row, fetched, accepts⟩ := decided
    exact (agree.task.of_fetch fetched).trans (decideTransition_eq accepts)
  | transitionAttempt =>
    simp only [decide, bind_ok] at decided
    obtain ⟨row, fetched, accepts⟩ := decided
    exact (agree.attempt.of_fetch fetched).trans (decideTransition_eq accepts)
  | transitionMessage =>
    simp only [decide, bind_ok] at decided
    obtain ⟨row, fetched, accepts⟩ := decided
    exact (agree.message.of_fetch fetched).trans (decideTransition_eq accepts)
  | transitionCommand =>
    simp only [decide, bind_ok, exists_unit] at decided
    obtain ⟨-, row, fetched, accepts⟩ := decided
    exact (agree.command.of_fetch fetched).trans (decideTransition_eq accepts)
  | recordCommandOutcome =>
    simp only [decide, bind_ok] at decided
    obtain ⟨row, fetched, accepts⟩ := decided
    exact (agree.command.of_fetch fetched).trans (decideTransition_eq accepts)
  | updateBudget | recordAttemptRuntime | recordAttemptOutcome =>
    exact agree.attempt.of_decideCas decided
  | renewLease | releaseLease | expireLease => exact agree.lease.of_decideCas decided
  | decideGate => exact agree.gate.of_decideCas decided
  | transitionDispatchNode => exact agree.dispatchNode.of_decideCas decided
  | moveWorkspaceNode =>
    rw [← Option.some.inj target]
    simp only [decide, decideMove, bind_ok, exists_unit] at decided
    obtain ⟨node, -, -, -, -, accepts⟩ := decided
    exact agree.workspaceNode.of_decideCas accepts
  | rebindWorkspacePane =>
    rw [← Option.some.inj target]
    simp only [decide, decideRebind, bind_ok, exists_unit] at decided
    obtain ⟨node, -, -, accepts⟩ := decided
    exact agree.workspaceNode.of_decideCas accepts
  | closeWorkspaceNode =>
    rw [← Option.some.inj target]
    simp only [decide, decideClose, bind_ok, exists_unit] at decided
    obtain ⟨-, accepts⟩ := decided
    exact agree.workspaceNode.of_decideCas accepts
  | advanceWorkflowRun | closeWorkflowRun =>
    rw [← Option.some.inj target]
    simp only [decide, decideWorkflowRun, bind_ok, exists_unit] at decided
    obtain ⟨run, -, -, accepts⟩ := decided
    exact agree.workflowRun.of_decideCas accepts
  | recordPtyAttach | recordPtyDetach | closePtySession =>
    rw [← Option.some.inj target]
    simp only [decide, decidePtySession, bind_ok, exists_unit] at decided
    obtain ⟨session, -, -, accepts⟩ := decided
    exact agree.ptySession.of_decideCas accepts
  | sendPtyInput | resizePtySession | stopPtySession =>
    simp only [decide, decidePtyControl_ok] at decided
    obtain ⟨session, hit, -, rfl⟩ := decided
    exact (agree.ptySession _ session hit).symm
  | retirePtySessionTemplate =>
    rw [← Option.some.inj target]
    simp only [decide, bind_ok] at decided
    obtain ⟨template, -, accepts⟩ := decided
    exact agree.ptySessionTemplate.of_decideCas accepts
  | writeOrchestratorCheckpoint =>
    simp only [decide, bind_ok, exists_unit, pure_ok] at decided
    rw [decided.2, family]
  | revokeAuthority | resolveAttention | ackAttention | muteAttention | unmuteAttention
  | closeEngineSession | updateWorktree | releaseWorktree | recordRound | recordFinding
  | ingestRecord => exact family ▸ Except.ok.inj decided
  | _ => cases existing

/-! ## Every history -/

theorem Made.addressed {kept : KernelCommand} (made : Made pg db call request want row kept)
    (passes : Passes codec call request) : Addressed row kept := by
  obtain ⟨-, target, -, -⟩ := routeOf_ok.mp passes.routed
  obtain ⟨-, sameId⟩ := Prod.ext_iff.mp made.aggregate
  refine ⟨(Prod.ext_iff.mp (made.commandEvent passes).address).1, call.envelope, ?_⟩
  rw [show row.aggregateId = request.route.aggregateId from sameId, ← target]
  exact made.stores.targetId_eq call.envelope

/-- What every history keeps of versions and sequence numbers. -/
structure VersionInvariant (db : Db) : Prop where
  agree : VersionsAgree db.events db.tables.derived
  contiguous : Contiguous db.events
  ordered : db.events.Pairwise fun prior later => prior.globalSequence < later.globalSequence

theorem VersionInvariant.of_opened (opened : Opened db genesis) :
    VersionInvariant db where
  agree := by
    rw [opened.tables]
    exact .empty _
  contiguous := by
    have nothing : Contiguous [] := fun _ => rfl
    rw [opened.events]
    refine Contiguous.snoc nothing ?_
    rw [opened.version]
    rfl
  ordered := by
    rw [opened.events]
    exact pairwise_singleton _ _

theorem VersionInvariant.of_lands {tables : Projections}
    (holds : VersionInvariant db) (log : LogInvariant db) (passes : Passes codec call request)
    (lands : Lands pg codec db call request want row tables) :
    VersionInvariant (landing pg codec db call request row tables) := by
  obtain ⟨kept, made, each⟩ := lands.applies passes
  have next : row.aggregateVersion.toNat =
      (currentAggregateVersion db.events row.aggregateType row.aggregateId).toNat + 1 := by
    obtain ⟨occurred, -, rfl⟩ := made.isRow
    exact (toNat_succ lands.below).trans (congrArg (·.toNat + 1) lands.current.symm)
  refine ⟨?_, ?_, ?_⟩
  · rw [landing_events, landing_tables]
    exact holds.agree.snoc (made.addressed passes) each (next ▸ Nat.lt_succ_self _)
  · rw [landing_events]
    exact holds.contiguous.snoc next
  · rw [landing_events, pairwise_append]
    refine ⟨holds.ordered, pairwise_singleton _ _, ?_⟩
    intro prior mem later isRow
    rw [mem_singleton] at isRow
    rw [isRow, made.sequence, UInt64.lt_iff_toNat_lt]
    exact log.sequenced prior mem

/-- **Every history keeps versions and sequence numbers.** -/
theorem after_versionInvariant (init : Initialised pg codec initial)
    (calls : List Call) : VersionInvariant (after pg codec initial calls) := by
  obtain ⟨genesis, opened⟩ := init.opened
  suffices both : LogInvariant (after pg codec initial calls) ∧
      VersionInvariant (after pg codec initial calls) from both.2
  refine after_induction (fun db => LogInvariant db ∧ VersionInvariant db)
    ⟨.of_opened opened, .of_opened opened⟩ ?_ calls
  rintro db call request committed ⟨log, versions⟩ passes admits step
  cases step with
  | replayed => exact ⟨log, versions⟩
  | refusedInput | paged | refusedControl =>
    exact ⟨⟨log.known, log.apart, log.sequenced⟩,
      ⟨versions.agree, versions.contiguous, versions.ordered⟩⟩
  | @landed _ receipts _ _ _ _ _ _ _ _ _ _ lands =>
    have logBefore : LogInvariant { db with receipts } :=
      ⟨log.known, log.apart, log.sequenced⟩
    have before : VersionInvariant { db with receipts } :=
      ⟨versions.agree, versions.contiguous, versions.ordered⟩
    exact ⟨logBefore.of_lands passes lands, before.of_lands logBefore passes lands⟩

/-- The checks of a batch and the inserts report no version conflict; the append's own
comparison is the only place that does. -/
theorem validateBatch_ne_versionConflict (actual stated : UInt32) :
    validateBatch codec want [event] ≠ .error (.versionConflict actual stated) := by
  intro failed
  simp only [validateBatch, validateFrom, validateEvent, bind_error, require_error,
    reduceCtorEq, and_false, exists_false, or_false] at failed

theorem insertEvent_ne_versionConflict {log : List Event} {seq : Seq} (actual stated : UInt32) :
    insertEvent pg now log seq event ≠ .error (.versionConflict actual stated) := by
  unfold insertEvent
  split
  next =>
    simp only
    split
    · simp
    · simp
  next => simp
  next => simp

theorem answerRepeated_ne_versionConflict (actual stated : UInt32) :
    answerRepeated db stored batch ≠ .error (.versionConflict actual stated) := by
  unfold answerRepeated
  split
  · split
    · simp
    · simp
  · simp

theorem appendLocked_ne_versionConflict
    (current : currentAggregateVersion db.events event.aggregateType event.aggregateId = want)
    (actual stated : UInt32) :
    appendLocked pg codec db now want [event] ≠ .error (.versionConflict actual stated) := by
  intro failed
  simp only [appendLocked, bind_error, validateBatch_ne_versionConflict, false_or] at failed
  obtain ⟨-, -, failed⟩ := failed
  split at failed
  next =>
    simp only [appendNew, insertBatch, current, bind_error, require_error,
      not_true_eq_false, false_and, false_or, reduceCtorEq, and_false, exists_false, or_false,
      pure, Except.pure] at failed
    obtain ⟨-, -, failed⟩ := failed
    split at failed
    next =>
      simp only [bind_error, insertEvent_ne_versionConflict, reduceCtorEq, and_false,
        exists_false, or_false] at failed
    next => cases failed
  next => exact answerRepeated_ne_versionConflict actual stated failed

/-- **Log and projection versions move together.**  In every history of calls each row of a
versioned table is at the highest version of its aggregate in the log, the versions of an
aggregate count up from 1 and the sequence numbers rise in commit order.  So once `decide`
has accepted a command that is not a create, the append's own version check reports no
conflict. -/
theorem after_versions (init : Initialised pg codec initial) (calls : List Call) :
    let db := after pg codec initial calls
    VersionsAgree db.events db.tables.derived ∧ Contiguous db.events ∧
      db.events.Pairwise (fun prior later => prior.globalSequence < later.globalSequence) ∧
      ∀ call request want event, Passes codec call request → Admits db call request →
        Fresh db call request → request.command.creates = false →
        decide db call.envelope request.command request.route = .ok want →
        buildEvent call.envelope request.command request.route want = .ok event →
        ∀ receipts actual stated,
          appendLocked pg codec { db with receipts } call.moment.now want [event] ≠
            .error (.versionConflict actual stated) := by
  intro db
  have holds : VersionInvariant db := after_versionInvariant init calls
  refine ⟨holds.agree, holds.contiguous, holds.ordered, ?_⟩
  intro call request want event passes admits fresh existing accepted built receipts
  obtain ⟨-, rfl⟩ := buildEvent_ok.mp built
  exact appendLocked_ne_versionConflict
    (decide_eq_current holds.agree passes.routed admits.admitted fresh.cutover existing accepted)

open Sample in
theorem after_versions_retire :
    let db := ran [activate, declared]
    let retire := Sample.call (.retirePtySessionTemplate "t" 1) "k1" operator
    let route : Route := ⟨"pty_session_template", "t", "pty_session_template_retired"⟩
    let retiring : KernelCommand := .retirePtySessionTemplate "t" 1
    decide db retire.envelope retiring route = .ok 1 ∧
      ∀ receipts actual stated, appendLocked postgres Sample.codec { db with receipts } 1 1
        [commandEvent retire.envelope retiring route 2] ≠
          .error (.versionConflict actual stated) := by
  intro db retire route retiring
  have passes : Passes Sample.codec retire ⟨retiring, route, none, none⟩ :=
    preflight_ok.mp rfl
  have fresh : Fresh db retire ⟨retiring, route, none, none⟩ :=
    ⟨rfl, by decide, by decide, fun control => absurd control (by decide), rfl⟩
  exact ⟨rfl, (after_versions init [activate, declared]).2.2.2 retire _
    1 _ passes ⟨rfl, rfl, rfl⟩ fresh rfl rfl rfl⟩

end Gridwork.Kernel
