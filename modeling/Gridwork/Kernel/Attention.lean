import Gridwork.Kernel.Project

/-!
# Attention items

An item is raised once, by an `attention_raised` event or by a page, and changed only by the events
that name it.
-/

namespace Gridwork.Kernel

open Domain Lib

/-! ## Which item a command is about -/

def KernelCommand.raisesItem : KernelCommand → Option String
  | .raiseAttention attentionItemId .. => some attentionItemId
  | _ => none

def KernelCommand.changesItem : KernelCommand → Option String
  | .resolveAttention attentionItemId _ | .ackAttention attentionItemId
  | .muteAttention attentionItemId _ | .unmuteAttention attentionItemId => some attentionItemId
  | _ => none

def EventBody.command? : EventBody → Option KernelCommand
  | .command issued => some issued
  | _ => none

def raisesItem (event : Event) : Option String :=
  event.payload.command?.bind (·.raisesItem)

def changesItem (event : Event) : Option String :=
  event.payload.command?.bind (·.changesItem)

/-! ## Open items -/

variable {items part whole result : Rows AttentionItem} {kind subject id summary : String}
  {pg : Postgres} {event : Event} {command : KernelCommand}

theorem unresolvedAttention_none : unresolvedAttention items kind (some subject) = none ↔
      ∀ (id : String) (item : AttentionItem), items[id]? = some item →
        item.opens kind subject = false := by
  simp only [unresolvedAttention, Option.map_eq_none_iff, List.find?_eq_none, Bool.not_eq_true,
    Prod.forall, Std.TreeMap.mem_toList_iff_getElem?_eq_some]

theorem unresolvedAttention_eq_none_of_subset {subjectRef : Option String}
    (subset : ∀ (id : String) (item : AttentionItem), part[id]? = some item →
      whole[id]? = some item) (clear : unresolvedAttention whole kind subjectRef = none) :
    unresolvedAttention part kind subjectRef = none := by
  cases subjectRef with
  | none => rfl
  | some subject =>
    rw [unresolvedAttention_none] at clear ⊢
    intro id item hit
    exact clear id item (subset id item hit)

/-! ## What an event does to the items -/

theorem applyAttention_raise (pg : Postgres) (event : Event)
    (raises : command.raisesItem = some id) :
    ∃ (kind : String) (subjectRef : Option String) (row : Instant → AttentionItem),
      ∀ items result, applyAttention pg event command items = .ok result ↔
        ∃ raisedAt, pg.instant event.appendedAt = some raisedAt ∧
          unresolvedAttention items kind subjectRef = none ∧ items[id]? = none ∧
          result = items.insert id (row raisedAt) := by
  cases command with
  | raiseAttention attentionItemId kind summary subjectRef raisedBy priority =>
    cases raises
    refine ⟨kind, subjectRef, fun raisedAt => ⟨kind, summary, subjectRef, raisedBy, priority,
      raisedAt, none, none, none, none⟩, ?_⟩
    intro items result
    simp only [applyAttention, bind_ok, exists_unit, require_ok, timestamptz_ok, Rows.insertNew_ok]
  | _ => cases raises

theorem applyAttention_change (pg : Postgres) (event : Event)
    (changes : command.changesItem = some id) :
    ∃ (missing : Refusal) (change : AttentionItem → Except Refusal AttentionItem),
      ∀ items, applyAttention pg event command items = items.updateOne missing id change := by
  cases command with
  | resolveAttention | ackAttention | muteAttention | unmuteAttention =>
    cases changes
    exact ⟨_, _, fun _ => rfl⟩
  | _ => cases changes

theorem applyAttention_other (raises : command.raisesItem = none)
    (changes : command.changesItem = none) (items : Rows AttentionItem) :
    applyAttention pg event command items = .ok items := by
  cases command with
  | raiseAttention => cases raises
  | resolveAttention | ackAttention | muteAttention | unmuteAttention => cases changes
  | _ => rfl

theorem changesItem_eq_none_of_raisesItem (raises : command.raisesItem = some id) :
    command.changesItem = none := by
  cases command with
  | raiseAttention => rfl
  | _ => cases raises

/-! ## What a page does to the items -/

theorem pageAttention_ok {raisedBy : Actor} {time : Timestamp} :
    pageAttention pg id summary subject raisedBy time items = .ok result ↔
      ∃ raisedAt, pg.instant time = some raisedAt ∧
        ((unresolvedAttention items PAGE_KIND (some subject)).isSome ∧ result = items ∨
          unresolvedAttention items PAGE_KIND (some subject) = none ∧ items[id]? = none ∧
            result = items.insert id
              { kind := PAGE_KIND
                summary
                subjectRef := some subject
                raisedBy := some raisedBy
                priority := none
                raisedAt
                ackedAt := none
                mutedUntil := none
                resolvedAt := none
                resolution := none }) := by
  simp only [pageAttention, bind_ok, timestamptz_ok]
  refine exists_congr fun raisedAt => and_congr_right fun _ => ?_
  cases covered : unresolvedAttention items PAGE_KIND (some subject) with
  | some openItem => simp [pure_ok]
  | none => simp [Rows.insertNew_ok]

end Gridwork.Kernel
