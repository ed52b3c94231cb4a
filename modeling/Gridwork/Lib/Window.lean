import Mathlib.Algebra.Order.Ring.Nat
import Mathlib.Data.List.Basic

/-!
# Replay windows over a numbered stream

A publisher numbers the items of a stream in increasing order and keeps only the
latest of them.  A reader that comes back with the number of the last item it holds can be
caught up from the kept items alone as long as nothing above that number was dropped.

`Window key head horizon history kept` says that `kept` is such a window: the items of `history`
above `horizon`, where `head` is the number the stream has reached.
-/

namespace Gridwork.Lib

open List

variable {Item Key : Type} [LinearOrder Key] {key : Item → Key} {head horizon low : Option Key}
  {history kept more rest : List Item} {item : Item}

/-- The items numbered above a mark, in order; all of them when there is no mark. -/
def itemsAbove (key : Item → Key) (mark : Option Key) (items : List Item) : List Item :=
  items.filter fun item => ∀ number ∈ mark, number < key item

/-- `kept` is what a publisher that has reached `head` still holds of `history`. -/
structure Window (key : Item → Key) (head horizon : Option Key)
    (history kept : List Item) : Prop where
  /-- Numbers only grow. -/
  increasing : history.Pairwise fun prior later => key prior < key later
  /-- The head is the last number sent, or the mark the stream was opened at. -/
  head_eq : head = (history.getLast?.map key).or horizon
  /-- The horizon never passes the head. -/
  horizon_le : ∀ mark ∈ horizon, ∃ number ∈ head, mark ≤ number
  /-- Everything above the horizon is kept, and nothing else. -/
  kept_eq : kept = itemsAbove key horizon history

theorem itemsAbove_append (mark : Option Key) (first second : List Item) :
    itemsAbove key mark (first ++ second) =
      itemsAbove key mark first ++ itemsAbove key mark second := by
  simp [itemsAbove]

theorem itemsAbove_eq_self {mark : Option Key}
    (above : ∀ item ∈ history, ∀ number ∈ mark, number < key item) :
    itemsAbove key mark history = history := by
  refine filter_eq_self.mpr fun item mem => ?_
  exact decide_eq_true (above item mem)

theorem itemsAbove_itemsAbove {mark : Key}
    (lower : ∀ number ∈ low, number ≤ mark) (items : List Item) :
    itemsAbove key (some mark) (itemsAbove key low items) = itemsAbove key (some mark) items := by
  simp only [itemsAbove, filter_filter]
  refine filter_congr fun item _ => ?_
  have implied : mark < key item → ∀ number ∈ low, number < key item :=
    fun above number mem => lt_of_le_of_lt (lower number mem) above
  by_cases above : mark < key item
  · simpa [above] using implied above
  · simp [above]

namespace Window

/-! ## Building a window -/

theorem opened (mark : Option Key) : Window key mark mark [] [] where
  increasing := .nil
  head_eq := by simp
  horizon_le := fun number mem => ⟨number, mem, le_refl number⟩
  kept_eq := rfl

section

variable (window : Window key head horizon history kept)
include window

theorem key_le_head (mem : item ∈ history) : ∃ number ∈ head, key item ≤ number := by
  have nonempty : history ≠ [] := ne_nil_of_mem mem
  refine ⟨key (history.getLast nonempty), ?_, ?_⟩
  · simp [window.head_eq, getLast?_eq_some_getLast nonempty]
  · -- the last item is at or after every other
    have ordered := window.increasing
    rw [← dropLast_append_getLast nonempty] at ordered mem
    rcases mem_append.mp mem with prior | last
    · exact le_of_lt ((pairwise_append.mp ordered).2.2 item prior _ (by simp))
    · rw [mem_singleton.mp last]

theorem push (item : Item) (advances : ∀ number ∈ head, number < key item) :
    Window key (some (key item)) horizon (history ++ [item]) (kept ++ [item]) where
  increasing := by
    refine pairwise_append.mpr ⟨window.increasing, pairwise_singleton _ _, ?_⟩
    intro prior mem later isItem
    rw [mem_singleton.mp isItem]
    obtain ⟨number, isHead, atMost⟩ := window.key_le_head mem
    exact lt_of_le_of_lt atMost (advances number isHead)
  head_eq := by simp
  horizon_le := by
    intro mark isHorizon
    obtain ⟨number, isHead, atMost⟩ := window.horizon_le mark isHorizon
    exact ⟨key item, rfl, le_of_lt (lt_of_le_of_lt atMost (advances number isHead))⟩
  kept_eq := by
    rw [itemsAbove_append, ← window.kept_eq]
    congr 1
    refine (itemsAbove_eq_self fun other isItem mark isHorizon => ?_).symm
    rw [mem_singleton.mp isItem]
    obtain ⟨number, isHead, atMost⟩ := window.horizon_le mark isHorizon
    exact lt_of_le_of_lt atMost (advances number isHead)

theorem head_lt_added
    (increasing : (history ++ more).Pairwise fun prior later => key prior < key later)
    (above : ∀ item ∈ history ++ more, ∀ mark ∈ horizon, mark < key item)
    (mem : item ∈ more) : ∀ number ∈ head, number < key item := by
  intro number isHead
  rw [window.head_eq] at isHead
  rcases history.eq_nil_or_concat' with rfl | ⟨sent, last, rfl⟩
  · exact above item (mem_append_right _ mem) number (by simpa using isHead)
  · obtain rfl : key last = number := by simpa using isHead
    exact (pairwise_append.mp increasing).2.2 last mem_concat_self item mem

end

theorem dropFirst (window : Window key head horizon history (item :: rest)) :
    Window key head (some (key item)) history rest := by
  have kept : item ∈ itemsAbove key horizon history := by
    rw [← window.kept_eq]
    exact mem_cons_self
  obtain ⟨mem, above⟩ := mem_filter.mp kept
  have lower : ∀ number ∈ horizon, number ≤ key item :=
    fun number isHorizon => le_of_lt (of_decide_eq_true above number isHorizon)
  have nonempty : history ≠ [] := ne_nil_of_mem mem
  refine ⟨window.increasing, ?_, ?_, ?_⟩
  · have sent := window.head_eq
    rw [getLast?_eq_some_getLast nonempty] at sent ⊢
    exact sent
  · rintro mark ⟨⟩
    exact window.key_le_head mem
  · -- what is above the dropped item is what the window held after it
    have later : ∀ other ∈ rest, key item < key other := by
      have ordered := window.increasing.filter fun item => ∀ number ∈ horizon, number < key item
      have eq : (item :: rest).Pairwise fun prior later => key prior < key later := by
        rw [window.kept_eq]
        exact ordered
      exact (pairwise_cons.mp eq).1
    rw [← itemsAbove_itemsAbove lower, ← window.kept_eq]
    have notAbove : itemsAbove key (some (key item)) (item :: rest) =
        itemsAbove key (some (key item)) rest := by
      simp [itemsAbove]
    rw [notAbove]
    refine (itemsAbove_eq_self fun other mem number isMark => ?_).symm
    cases isMark
    exact later other mem

/-! ## Reading from a window -/

section

variable (window : Window key head horizon history kept)
include window

/-- **Nothing is missing.**  Above a cursor at or past the horizon, the kept items are
all items. -/
theorem replay_eq {cursor : Key} (covered : ∀ mark ∈ horizon, mark ≤ cursor) :
    itemsAbove key (some cursor) kept = itemsAbove key (some cursor) history := by
  rw [window.kept_eq, itemsAbove_itemsAbove covered]

theorem replay_eq_nil_iff {cursor number : Key}
    (reached : head = some number) (produced : cursor ≤ number)
    (covered : ∀ mark ∈ horizon, mark ≤ cursor) :
    itemsAbove key (some cursor) history = [] ↔ cursor = number := by
  constructor
  · intro empty
    have sent := window.head_eq
    rw [reached] at sent
    cases last : history.getLast? with
    | none =>
      -- nothing was sent: the head is the horizon
      rw [last] at sent
      exact le_antisymm produced (covered number sent.symm)
    | some item =>
      rw [last] at sent
      have isHead : number = key item := by simpa using sent
      have mem : item ∈ history := mem_of_getLast? last
      have notAbove := filter_eq_nil_iff.mp empty item mem
      have atMost : key item ≤ cursor := by simpa using notAbove
      exact le_antisymm produced (isHead ▸ atMost)
  · intro atHead
    refine filter_eq_nil_iff.mpr fun item mem => ?_
    obtain ⟨top, isHead, atMost⟩ := window.key_le_head mem
    have isNumber : number = top := by simpa [reached] using isHead
    simpa [atHead, isNumber] using atMost

theorem replay_ends {cursor number : Key}
    (reached : head = some number) (produced : cursor ≤ number)
    (covered : ∀ mark ∈ horizon, mark ≤ cursor) :
    ((itemsAbove key (some cursor) history).getLast?.map key).getD cursor = number := by
  by_cases atHead : cursor = number
  · rw [(window.replay_eq_nil_iff reached produced covered).mpr atHead]
    exact atHead
  · have sent := window.head_eq
    rw [reached] at sent
    have nonempty : history ≠ [] := by
      rintro rfl
      exact atHead (le_antisymm produced (covered number (by simpa using sent.symm)))
    rw [getLast?_eq_some_getLast nonempty] at sent
    have isHead : key (history.getLast nonempty) = number := by simpa using sent.symm
    -- the last item is above the cursor, so the reading ends with it
    have above : itemsAbove key (some cursor) [history.getLast nonempty] =
        [history.getLast nonempty] := by
      refine itemsAbove_eq_self fun item isLast mark isCursor => ?_
      cases isCursor
      rw [mem_singleton.mp isLast, isHead]
      exact lt_of_le_of_ne produced atHead
    rw [← dropLast_append_getLast nonempty, itemsAbove_append, above]
    simp [isHead]

end

end Window

end Gridwork.Lib
