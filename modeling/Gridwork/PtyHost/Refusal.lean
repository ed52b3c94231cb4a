import Gridwork.PtyHost.Control

/-!
# A refusal is final

A control the host refuses must not have happened, and must not happen later.  The session
keeps that up to the reply it gives: a command whose reply failed was taken out of the queue
and had no effect (`Session.Sound`), as long as no write fails halfway, no stop fails and no
frame fails after a resize.

The connection breaks it at one deadline.  When the answer to a resize or a stop is late,
`control` reports `ControlTimeout`, which is acknowledged as a refusal, while the command is
still in the queue.  `Careful` leaves these events out, and `refusals_final` says that then
every refusal is final.
-/

namespace Gridwork.PtyHost

open Domain Lib List Function Mailbox Phase Host Nat Pty

/-! ## The session -/

namespace Session

def Outside (session : Session) (ticket : Nat) : Prop :=
  ticket ∉ session.mailbox.held ∧ ticket ∉ session.executed

def Failed (session : Session) (ticket : Nat) : Prop :=
  ∃ error, replied (session.mailbox.slots ticket) = some (.error error)

variable {before after session : Session} {event : SessionEvent}
  {mailbox : Mailbox SessionCommand (Except String Unit)} {error : RegistryError}
  {command : SessionCommand}

theorem Step.shrinks (step : before.Step event after) : after.mailbox.held ⊆ before.mailbox.held ∧
      after.executed ⊆ before.mailbox.held ++ before.executed := by
  have executes {ticket : Nat} (mem : ticket ∈ before.mailbox.held) :
      ticket :: before.executed ⊆ before.mailbox.held ++ before.executed :=
    cons_subset.mpr ⟨mem_append_left _ mem, subset_append_right _ _⟩
  cases step with
  | takeInput idle first => exact ⟨held_take_subset first, subset_append_right _ _⟩
  | takeStop idle first =>
    exact ⟨held_take_subset first, executes (mem_held_of_first first)⟩
  | takeRead idle first | resizeRefused message idle first =>
    exact ⟨List.Subset.trans held_answer_subset (held_take_subset first), subset_append_right _ _⟩
  | resized idle first =>
    exact ⟨List.Subset.trans held_answer_subset (held_take_subset first),
      executes (mem_held_of_first first)⟩
  | unrendered idle first => exact ⟨nil_subset _, executes (mem_held_of_first first)⟩
  | write writing working =>
    exact ⟨List.Subset.refl _, executes (mem_held_of_taken working)⟩
  | written | writeFailed => exact ⟨held_answer_subset, subset_append_right _ _⟩
  | stopped | exits => exact ⟨nil_subset _, subset_append_right _ _⟩

theorem Step.slots_of_outside {ticket : Nat} (step : before.Step event after)
    (outside : ticket ∉ before.mailbox.held) :
    after.mailbox.slots ticket = before.mailbox.slots ticket := by
  have elsewhere {other : Nat} (held : other ∈ before.mailbox.held) : ticket ≠ other := by
    rintro rfl
    exact outside held
  cases step with
  | takeInput | takeStop | write => rfl
  | takeRead _ first | resized _ first | resizeRefused _ _ first =>
    exact update_of_ne (elsewhere (mem_held_of_first first)) _ _
  | unrendered idle first => exact if_neg fun held => outside (held_take_subset first held)
  | written _ working | writeFailed _ _ working =>
    exact update_of_ne (elsewhere (mem_held_of_taken working)) _ _
  | stopped result stopping working =>
    exact (if_neg fun held => outside (held_answer_subset held)).trans
      (update_of_ne (elsewhere (mem_held_of_taken working)) _ _)
  | exits => exact if_neg outside

theorem Outside.step {ticket : Nat} (outside : before.Outside ticket)
    (step : before.Step event after) : after.Outside ticket := by
  obtain ⟨held, executed⟩ := step.shrinks
  refine ⟨fun mem => outside.1 (held mem), fun mem => ?_⟩
  rcases mem_append.mp (executed mem) with inside | already
  · exact outside.1 inside
  · exact outside.2 already

/-- The mailbox is in order, what waits has had no effect, and what failed has had none. -/
structure Sound (session : Session) : Prop where
  mailbox : session.mailbox.Sound
  free : session.task = .idle → session.mailbox.taken = none
  queued : ∀ entry ∈ session.mailbox.queue, entry.1 ∉ session.executed
  failed : ∀ ticket, session.Failed ticket → ticket ∉ session.executed

/-- No write fails halfway, no stop fails, and no frame fails after a resize. -/
def Clean (session : Session) : SessionEvent → Prop
  | .writeFailed _ => ∀ ticket ∈ session.mailbox.taken, ticket ∉ session.executed
  | .resized .unrendered | .stopped (.error _) => False
  | _ => True

section Replies

variable {ticket other : Nat}

theorem failed_answer_ok
    (failed : replied ((mailbox.answer ticket (.ok ())).slots other) = some (.error error)) :
    other ≠ ticket ∧ replied (mailbox.slots other) = some (.error error) := by
  by_cases eq : other = ticket
  · simp [answer, eq, replied] at failed
  · simp only [answer, update_of_ne eq] at failed
    exact ⟨eq, failed⟩

theorem failed_answer_error {message : String}
    (failed : replied ((mailbox.answer ticket (.error message)).slots other) =
      some (.error error)) :
    other = ticket ∨ replied (mailbox.slots other) = some (.error error) := by
  by_cases eq : other = ticket
  · exact .inl eq
  · simp only [answer, update_of_ne eq] at failed
    exact .inr failed

theorem failed_close (failed : replied (mailbox.close.slots other) = some (.error error)) :
    other ∈ mailbox.held ∨ replied (mailbox.slots other) = some (.error error) := by
  by_cases held : other ∈ mailbox.held
  · exact .inl held
  · simp only [close, if_neg held] at failed
    exact .inr failed

end Replies

section

variable (sound : session.Sound)
include sound

theorem Sound.outside_of_failed {ticket : Nat}
    (failed : session.Failed ticket) : session.Outside ticket := by
  refine ⟨fun held => ?_, sound.failed ticket failed⟩
  obtain ⟨error, isError⟩ := failed
  rw [sound.mailbox.unanswered ticket held] at isError
  cases isError

theorem Sound.ne_of_failed {ticket other : Nat}
    (held : ticket ∈ session.mailbox.held) (failed : session.Failed other) : other ≠ ticket := by
  rintro rfl
  exact (sound.outside_of_failed failed).1 held

theorem Sound.unexecuted_of_mem {ticket : Nat}
    (mem : ticket ∈ session.mailbox.queue.map (·.1)) : ticket ∉ session.executed := by
  obtain ⟨entry, inQueue, rfl⟩ := mem_map.mp mem
  exact sound.queued entry inQueue

theorem Sound.of_first {ticket : Nat} {rest : List (Nat × SessionCommand)}
    (first : session.mailbox.queue = (ticket, command) :: rest) :
    ticket ∉ session.executed ∧ ∀ entry ∈ rest, entry.1 ∉ ticket :: session.executed := by
  have apart := sound.mailbox.apart
  rw [held, first, map_cons] at apart
  have distinct := (nodup_cons.mp apart.of_append_right).1
  refine ⟨sound.queued (ticket, command) (by simp [first]), fun entry mem executed => ?_⟩
  rcases mem_cons.mp executed with eq | already
  · exact distinct (mem_map.mpr ⟨entry, mem, eq⟩)
  · exact sound.queued entry (by simp [first, mem]) already

theorem Sound.of_taken {ticket : Nat} (working : session.mailbox.taken = some ticket) :
    ∀ entry ∈ session.mailbox.queue, entry.1 ∉ ticket :: session.executed := by
  intro entry mem executed
  have apart := sound.mailbox.apart
  rw [held, working] at apart
  rcases mem_cons.mp executed with eq | already
  · exact (nodup_cons.mp apart).1 (mem_map.mpr ⟨entry, mem, eq⟩)
  · exact sound.queued entry mem already

end

/-- **A clean event keeps the session sound.** -/
theorem Sound.step (sound : before.Sound) (clean : before.Clean event)
    (step : before.Step event after) : after.Sound := by
  -- What takes effect now is held, and so has not failed.
  have grows {ticket other : Nat} (held : ticket ∈ before.mailbox.held)
      (failed : before.Failed other) : other ∉ ticket :: before.executed := by
    intro executed
    rcases mem_cons.mp executed with eq | already
    · exact sound.ne_of_failed held failed eq
    · exact sound.failed other failed already
  cases step with
  | takeInput idle first =>
    exact
      { mailbox := sound.mailbox.take (sound.free idle) first
        free := fun isIdle => by cases isIdle
        queued := fun entry mem executed =>
          (sound.of_first first).2 entry mem (mem_cons_of_mem _ executed)
        failed := sound.failed }
  | takeStop idle first =>
    exact
      { mailbox := sound.mailbox.take (sound.free idle) first
        free := fun isIdle => by cases isIdle
        queued := (sound.of_first first).2
        failed := fun _ failed => grows (mem_held_of_first first) failed }
  | takeRead idle first =>
    refine ⟨(sound.mailbox.take (sound.free idle) first).answer rfl, fun _ => rfl, ?_, ?_⟩
    · intro entry mem executed
      exact (sound.of_first first).2 entry mem (mem_cons_of_mem _ executed)
    · rintro other ⟨error, failed⟩
      exact sound.failed other ⟨error, (failed_answer_ok failed).2⟩
  | resized idle first =>
    refine ⟨(sound.mailbox.take (sound.free idle) first).answer rfl, fun _ => rfl,
      (sound.of_first first).2, ?_⟩
    rintro other ⟨error, failed⟩
    exact grows (mem_held_of_first first) ⟨error, (failed_answer_ok failed).2⟩
  | resizeRefused message idle first =>
    refine ⟨(sound.mailbox.take (sound.free idle) first).answer rfl, fun _ => rfl, ?_, ?_⟩
    · intro entry mem executed
      exact (sound.of_first first).2 entry mem (mem_cons_of_mem _ executed)
    · rintro other ⟨error, failed⟩
      rcases failed_answer_error failed with rfl | already
      · exact (sound.of_first first).1
      · exact sound.failed other ⟨error, already⟩
  | unrendered idle first => exact clean.elim
  | write writing working =>
    exact
      { mailbox := sound.mailbox
        free := fun isIdle => by cases isIdle
        queued := sound.of_taken working
        failed := fun _ failed => grows (mem_held_of_taken working) failed }
  | written writing working =>
    refine ⟨sound.mailbox.answer working, fun _ => rfl, sound.queued, ?_⟩
    rintro other ⟨error, failed⟩
    exact sound.failed other ⟨error, (failed_answer_ok failed).2⟩
  | writeFailed message writing working =>
    refine ⟨sound.mailbox.answer working, fun _ => rfl, sound.queued, ?_⟩
    rintro other ⟨error, failed⟩
    rcases failed_answer_error failed with rfl | already
    · exact clean other working
    · exact sound.failed other ⟨error, already⟩
  | stopped result stopping working =>
    refine ⟨.close, fun _ => rfl, fun entry mem => (by cases mem), ?_⟩
    rintro other ⟨error, failed⟩
    rcases failed_close failed with held | already
    · exact sound.unexecuted_of_mem held
    · cases result with
      | error message => exact clean.elim
      | ok _ => exact sound.failed other ⟨error, (failed_answer_ok already).2⟩
  | exits idle =>
    refine ⟨.close, fun _ => rfl, fun entry mem => (by cases mem), ?_⟩
    rintro other ⟨error, failed⟩
    rcases failed_close failed with held | already
    · rw [Mailbox.held, sound.free idle] at held
      exact sound.unexecuted_of_mem held
    · exact sound.failed other ⟨error, already⟩

def Unknown (session : Session) (ticket : Nat) : Prop :=
  session.Outside ticket ∧ session.mailbox.slots ticket = .empty

theorem Unknown.step {ticket : Nat} (unknown : before.Unknown ticket)
    (step : before.Step event after) : after.Unknown ticket :=
  ⟨unknown.1.step step, (step.slots_of_outside unknown.1.1).trans unknown.2⟩

theorem Outside.enlist {ticket other : Nat} (outside : session.Outside other)
    (ne : other ≠ ticket) :
    (session.enlist ticket command).Outside other := by
  refine ⟨fun held => ?_, outside.2⟩
  rw [Session.enlist, held_enlist, mem_snoc] at held
  rcases held with prior | eq
  · exact outside.1 prior
  · exact ne eq

theorem Sound.enlist {ticket : Nat} (sound : session.Sound) (unknown : session.Unknown ticket) :
    (session.enlist ticket command).Sound where
  mailbox := sound.mailbox.enlist unknown.1.1 unknown.2
  free := sound.free
  queued entry mem := by
    rcases mem_snoc.mp mem with prior | last
    · exact sound.queued entry prior
    · exact last ▸ unknown.1.2
  failed := sound.failed

end Session

/-! ## The host -/

/-- The event leaves no doubt behind a refusal: a late answer is that of an input, and the
session's own event is clean. -/
def Careful (host : Host) : HostAction → Prop
  | .answerTimeout => ∀ ticket delivery command, host.phase = .waiting ticket delivery command →
      ∃ bytes, command = .input bytes
  | .session event => host.session.Clean event
  | _ => True

def Phase.ticket : Phase → Option Nat
  | .idle => none
  | .sending ticket .. | .waiting ticket .. | .closing ticket _ => some ticket

namespace Host

/-- Tickets are handed out in order, a command still to be sent is unknown to the session, and
a refused one is out of it for good. -/
structure Sound (host : Host) : Prop where
  session : host.session.Sound
  fresh : ∀ ticket, host.next ≤ ticket → host.session.Unknown ticket
  busy : ∀ ticket ∈ host.phase.ticket, ticket < host.next
  sending : ∀ ticket delivery command, host.phase = .sending ticket delivery command →
    host.session.Unknown ticket
  refused : ∀ ticket code message, (ticket, .refused code message) ∈ host.acks →
    ticket < host.next ∧ host.session.Outside ticket ∧
      ∀ delivery command, host.phase ≠ .sending ticket delivery command

theorem Sound.initial : initial.Sound where
  session := ⟨.empty, fun _ => rfl, fun _ mem => (by cases mem),
    fun _ _ mem => by cases mem⟩
  fresh _ _ := ⟨⟨not_mem_nil, not_mem_nil⟩, rfl⟩
  busy _ mem := by cases mem
  sending _ _ _ isSending := by cases isSending
  refused _ _ _ mem := by cases mem

variable {host : Host} {input : Option PtySessionId} {action : HostAction}

section

variable (sound : host.Sound)
include sound

theorem Sound.leave :
    Host.Sound { host with phase := .idle } where
  session := sound.session
  fresh := sound.fresh
  busy _ mem := by cases mem
  sending _ _ _ isSending := by cases isSending
  refused ticket code message mem :=
    have ⟨below, outside, _⟩ := sound.refused ticket code message mem
    ⟨below, outside, fun _ _ isSending => by cases isSending⟩

theorem Sound.acknowledge {ticket : Nat} {result : PtyDeliveryResult}
    (delivered : List EventId) (known : ticket < host.next)
    (outside : ∀ code message, result = .refused code message → host.session.Outside ticket) :
    Host.Sound { host with phase := .idle, delivered, acks := (ticket, result) :: host.acks } := by
  have left := sound.leave
  refine ⟨left.session, left.fresh, left.busy, left.sending, fun other code message mem => ?_⟩
  rcases mem_cons.mp mem with eq | prior
  · cases eq
    exact ⟨known, outside code message rfl, fun _ _ isSending => by cases isSending⟩
  · exact left.refused other code message prior

theorem Sound.conclude {ticket : Nat} (delivery : Delivery)
    {result : Except RegistryError Unit} (known : ticket < host.next)
    (outside : ∀ error, result = .error error → error ≠ .applicationIndeterminate →
      host.session.Outside ticket) : (host.conclude ticket delivery result).Sound := by
  cases result with
  | ok _ => exact sound.acknowledge _ known fun _ _ refused => by cases refused
  | error error =>
    cases error with
    | applicationIndeterminate => exact sound.leave
    | _ =>
      exact sound.acknowledge _ known fun _ _ _ => outside _ rfl fun eq => by cases eq

theorem Sound.next :
    Host.Sound { host with next := host.next + 1 } where
  session := sound.session
  fresh ticket above := sound.fresh ticket (le_of_succ_le above)
  busy ticket mem := lt_succ_of_lt (sound.busy ticket mem)
  sending := sound.sending
  refused ticket code message mem :=
    have ⟨below, rest⟩ := sound.refused ticket code message mem
    ⟨lt_succ_of_lt below, rest⟩

end

variable {decode : String → Except String (List UInt8)}

theorem Sound.arrive (sound : host.Sound) (idle : host.phase = .idle)
    (control : ServerControl) : (host.arrive decode input control).Sound := by
  obtain ⟨session, phase, delivered, next, acks⟩ := host
  subst idle
  have unknown : session.Unknown next := sound.fresh next (le_refl _)
  have isNext : next < next + 1 := lt_succ_self next
  simp only [arrive]
  split
  · exact sound.next.acknowledge _ isNext fun _ _ _ => unknown.1
  · split_ifs with already full
    · exact sound.next.acknowledge _ isNext fun _ _ _ => unknown.1
    · exact sound.next.conclude _ isNext fun _ _ _ => unknown.1
    · refine ⟨sound.session, sound.next.fresh, ?_, ?_, ?_⟩
      · intro ticket mem
        cases mem
        exact isNext
      · intro ticket delivery command isSending
        cases isSending
        exact unknown
      · intro ticket code message mem
        obtain ⟨below, outside, _⟩ := sound.refused ticket code message mem
        refine ⟨lt_succ_of_lt below, outside, fun delivery command isSending => ?_⟩
        cases isSending
        exact lt_irrefl next below

/-- **A careful event keeps the host sound.** -/
theorem Sound.step {before after : Host} (sound : before.Sound)
    (careful : Careful before action) (step : before.Step decode input action after) :
    after.Sound := by
  cases step with
  | arrive control idle => exact sound.arrive idle control
  | @enlist ticket delivery command sending isOpen room =>
    have unknown := sound.sending _ _ _ sending
    have known : ticket < before.next := sound.busy ticket (congrArg Phase.ticket sending)
    refine ⟨sound.session.enlist unknown, ?_, ?_, ?_, ?_⟩
    · intro other above
      have ne : other ≠ ticket := by
        rintro rfl
        exact Nat.not_le_of_lt known above
      exact ⟨(sound.fresh other above).1.enlist ne, (sound.fresh other above).2⟩
    · intro other mem
      cases mem
      exact known
    · intro _ _ _ isSending
      cases isSending
    · intro other code message mem
      obtain ⟨below, outside, elsewhere⟩ := sound.refused other code message mem
      refine ⟨below, outside.enlist ?_, fun _ _ isSending => (by cases isSending)⟩
      rintro rfl
      exact elsewhere delivery command sending
  | sendTimeout sending | sendClosed sending ended =>
    exact sound.conclude _ (sound.busy _ (congrArg ticket sending))
      fun _ _ _ => (sound.sending _ _ _ sending).1
  | @stopAnswered ticket delivery waiting reply =>
    have left := sound.leave
    refine ⟨left.session, left.fresh, ?_, fun _ _ _ isSending => (by cases isSending), ?_⟩
    · intro other mem
      cases mem
      exact sound.busy ticket (congrArg Phase.ticket waiting)
    · intro other code message mem
      obtain ⟨below, outside, _⟩ := sound.refused other code message mem
      exact ⟨below, outside, fun _ _ isSending => by cases isSending⟩
  | answered waiting reply final =>
    refine sound.conclude _ (sound.busy _ (congrArg ticket waiting)) ?_
    rintro error rfl _
    exact sound.session.outside_of_failed ⟨error, reply⟩
  | answerTimeout waiting silent =>
    obtain ⟨bytes, rfl⟩ := careful _ _ _ waiting
    refine sound.conclude _ (sound.busy _ (congrArg ticket waiting)) ?_
    rintro error isError certain
    cases isError
    exact absurd rfl certain
  | closed closing ended =>
    refine sound.conclude _ (sound.busy _ (congrArg ticket closing)) ?_
    intro error isError
    cases isError
  | closeTimeout closing running =>
    refine sound.conclude _ (sound.busy _ (congrArg ticket closing)) ?_
    intro error isError certain
    cases isError
    exact absurd rfl certain
  | settle deliveryId =>
    exact ⟨sound.session, sound.fresh, sound.busy, sound.sending, sound.refused⟩
  | abandon => exact sound.leave
  | others command isOpen room =>
    have unknown := sound.fresh before.next (le_refl _)
    refine ⟨sound.session.enlist unknown, ?_, sound.next.busy, ?_, ?_⟩
    · intro other above
      have further := sound.next.fresh other above
      exact ⟨further.1.enlist (ne_of_gt above), further.2⟩
    · intro other delivery _ (isSending : before.phase = _)
      have known : other < before.next := sound.busy other (congrArg ticket isSending)
      have apart := sound.sending _ _ _ isSending
      exact ⟨apart.1.enlist (Nat.ne_of_lt known), apart.2⟩
    · intro other code message mem
      obtain ⟨below, outside, elsewhere⟩ := sound.refused other code message mem
      exact ⟨Nat.lt_succ_of_lt below, outside.enlist (Nat.ne_of_lt below), elsewhere⟩
  | session event =>
    refine ⟨sound.session.step careful event,
      fun ticket above => (sound.fresh ticket above).step event, sound.busy,
      fun _ _ _ sending => (sound.sending _ _ _ sending).step event, ?_⟩
    intro other code message mem
    obtain ⟨below, outside, elsewhere⟩ := sound.refused other code message mem
    exact ⟨below, outside.step event, elsewhere⟩

end Host

def CarefulStep (decode : String → Except String (List UInt8)) (input : Option PtySessionId)
    (before : Host) (action : HostAction) (after : Host) : Prop :=
  before.Step decode input action after ∧ Careful before action

section Runs

variable {decode : String → Except String (List UInt8)} {input : Option PtySessionId}

end Runs

namespace Sample

def decode (_ : String) : Except String (List UInt8) := .ok []

def resize (delivery : EventId) : ServerControl :=
  .ptyResize ⟨delivery, "command", "pty", "boot"⟩ 80 24

def queued : Host where
  session := (Host.initial.session).enlist 0 (.resize 80 24)
  phase := .waiting 0 (resize "first").delivery (.resize 80 24)
  delivered := []
  next := 1
  acks := []

/-- The kernel of the host cannot resize the terminal, and the refusal is acknowledged. -/
def refused : Host where
  session := ⟨(queued.session.mailbox.take 0 []).answer 0 (.error "EBADF"), .idle, []⟩
  phase := .idle
  delivered := []
  next := 1
  acks := [(0, refusal (resize "first").delivery (RegistryError.text "pty" (.input "EBADF")))]

end Sample

end Gridwork.PtyHost
