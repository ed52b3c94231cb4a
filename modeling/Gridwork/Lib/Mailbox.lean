import Mathlib.Data.List.Nodup
import Mathlib.Logic.Function.Basic

/-!
# A mailbox with one-shot replies

Senders put messages into a queue, each under a ticket of its own, and a receiver takes them
out in order.  Behind every ticket there is a slot for one reply: the receiver fills it, or
drops it by going away.
-/

namespace Gridwork.Lib

open List

inductive Slot (Result : Type) where
  | empty
  | filled (result : Result)
  | dropped

/-- The messages on their way, and the replies to all messages so far. -/
structure Mailbox (Message Result : Type) where
  queue : List (Nat × Message)
  taken : Option Nat
  slots : Nat → Slot Result

namespace Mailbox

variable {Message Result : Type} {mailbox : Mailbox Message Result} {ticket : Nat}
  {message : Message} {rest : List (Nat × Message)} {result : Result}

def empty : Mailbox Message Result := ⟨[], none, fun _ => .empty⟩

/-- The tickets of the messages the receiver still has to answer. -/
def held (mailbox : Mailbox Message Result) : List Nat :=
  mailbox.taken.toList ++ mailbox.queue.map (·.1)

def enlist (mailbox : Mailbox Message Result) (ticket : Nat) (message : Message) :
    Mailbox Message Result :=
  { mailbox with queue := mailbox.queue ++ [(ticket, message)] }

def take (mailbox : Mailbox Message Result) (ticket : Nat) (rest : List (Nat × Message)) :
    Mailbox Message Result :=
  { mailbox with queue := rest, taken := some ticket }

def answer (mailbox : Mailbox Message Result) (ticket : Nat) (result : Result) :
    Mailbox Message Result :=
  { mailbox with taken := none, slots := Function.update mailbox.slots ticket (.filled result) }

def close (mailbox : Mailbox Message Result) : Mailbox Message Result where
  queue := []
  taken := none
  slots ticket := if ticket ∈ mailbox.held then .dropped else mailbox.slots ticket

/-- No ticket is held twice, and held messages are unanswered. -/
structure Sound (mailbox : Mailbox Message Result) : Prop where
  apart : mailbox.held.Nodup
  unanswered : ∀ ticket ∈ mailbox.held, mailbox.slots ticket = .empty

theorem Sound.empty : Sound (empty : Mailbox Message Result) :=
  ⟨nodup_nil, fun _ mem => by cases mem⟩

@[simp] theorem held_enlist : (mailbox.enlist ticket message).held = mailbox.held ++ [ticket] := by
  simp [held, enlist, append_assoc]

theorem mem_held_of_first (first : mailbox.queue = (ticket, message) :: rest) :
    ticket ∈ mailbox.held := by
  simp [held, first]

theorem mem_held_of_taken (working : mailbox.taken = some ticket) : ticket ∈ mailbox.held := by
  simp [held, working]

theorem held_take_subset (first : mailbox.queue = (ticket, message) :: rest) :
    (mailbox.take ticket rest).held ⊆ mailbox.held := by
  intro other mem
  simp only [held, take, Option.toList_some, singleton_append, mem_cons] at mem
  simp only [held, first, map_cons, mem_append, mem_cons]
  exact .inr mem

theorem held_take (free : mailbox.taken = none)
    (first : mailbox.queue = (ticket, message) :: rest) :
    (mailbox.take ticket rest).held = mailbox.held := by
  simp [held, take, free, first]

theorem held_of_taken (result : Result) (working : mailbox.taken = some ticket) :
    mailbox.held = ticket :: (mailbox.answer ticket result).held := by
  simp [held, answer, working]

theorem held_answer_subset : (mailbox.answer ticket result).held ⊆ mailbox.held :=
  subset_append_right _ _

section

variable (sound : mailbox.Sound)
include sound

theorem Sound.enlist (outside : ticket ∉ mailbox.held)
    (empty : mailbox.slots ticket = .empty) : (mailbox.enlist ticket message).Sound where
  apart := by
    rw [held_enlist]
    exact sound.apart.append (nodup_singleton _) (by simpa using outside)
  unanswered other mem := by
    rw [held_enlist, mem_append, mem_singleton] at mem
    rcases mem with prior | rfl
    · exact sound.unanswered other prior
    · exact empty

theorem Sound.take (free : mailbox.taken = none)
    (first : mailbox.queue = (ticket, message) :: rest) : (mailbox.take ticket rest).Sound where
  apart := by
    rw [held_take free first]
    exact sound.apart
  unanswered other mem := by
    rw [held_take free first] at mem
    exact sound.unanswered other mem

theorem Sound.nodup_answer (working : mailbox.taken = some ticket) :
    (ticket :: (mailbox.answer ticket result).held).Nodup :=
  held_of_taken result working ▸ sound.apart

theorem Sound.answer (working : mailbox.taken = some ticket) :
    (mailbox.answer ticket result).Sound where
  apart := (nodup_cons.mp (sound.nodup_answer working)).2
  unanswered other mem := by
    have ne : other ≠ ticket := by
      rintro rfl
      exact (nodup_cons.mp (sound.nodup_answer working)).1 mem
    simp only [Mailbox.answer, Function.update_of_ne ne]
    exact sound.unanswered other (held_answer_subset mem)

end

theorem Sound.close : mailbox.close.Sound :=
  ⟨nodup_nil, fun _ mem => by cases mem⟩

end Mailbox

end Gridwork.Lib
