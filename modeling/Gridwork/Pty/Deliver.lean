import Gridwork.Pty.Attach

/-!
# Reverse delivery through the hub

A committed control travels back to the host that owns its session.  `deliver_input`,
`deliver_control` and `deliver_start` each go through the hub in short sections: they find
the connection, wait for a place in its queue without any lock, and then hand the control
over in one section that looks at the session again and registers the delivery as pending.
The sections are functions on the hub; the waits between them belong to whoever calls them.
-/

namespace Gridwork.Pty

open Domain Lib Option

/-! ## Refusals -/

def generations (presented actual : PtySessionGeneration) : Json :=
  .object [("presented_generation", .string presented), ("actual_generation", .string actual)]

def staleGeneration (id : PtySessionId) (presented actual : PtySessionGeneration) :
    PtyRefusal where
  code := .staleVersion
  message := s!"pty session {id} generation {presented} is stale; current generation is {actual}"
  detail := some (generations presented actual)

def deliveryAlreadyPending (deliveryId : EventId) : PtyRefusal where
  code := .overloaded
  message := s!"PTY delivery {deliveryId} already has an active host attempt"

def noPendingDelivery (deliveryId : EventId) : PtyRefusal where
  code := .notFound
  message := s!"no pending PTY delivery {deliveryId}"

def anotherHost (deliveryId : EventId) : PtyRefusal where
  code := .authority
  message := s!"PTY delivery {deliveryId} belongs to another host connection"

/-! ## Channels -/

/-- The two ways to a session: raw input, and the lifecycle controls. -/
inductive Channel where
  | input | control
  deriving DecidableEq

namespace Channel

def capability : Channel → String
  | input => "pty_input"
  | control => "pty_control"

def enabled (route : ControlRoute) : Channel → Bool
  | input => route.inputEnabled
  | control => route.controlEnabled

/-- The session moved on while the control waited for its place in the queue. -/
def changed (id : PtySessionId) (presented actual : PtySessionGeneration) : Channel → PtyRefusal
  | input =>
    { code := .staleVersion
      message := s!"pty session {id} generation {presented} changed before delivery"
      detail := some (generations presented actual) }
  | control => staleGeneration id presented actual

end Channel

/-! ## Sections -/

namespace PtyHub

def liveOwner (hub : PtyHub) (id : PtySessionId) (generation : PtySessionGeneration) :
    Except PtyRefusal ConnectionId := do
  let session ← hub.session id
  require (session.generation = generation) (staleGeneration id generation session.generation)
  return session.owner

def checkSessionRoute (hub : PtyHub) (channel : Channel) (id : PtySessionId)
    (owner : ConnectionId) : Except PtyRefusal Unit :=
  match hub.controls.routes.lookup owner with
  | none => .error
      { code := .notFound
        message := s!"pty session {id} has no live owning host connection" }
  | some route =>
    require (channel.enabled route = true)
      { code := .capability
        message := s!"pty session {id}'s owning host did not negotiate {channel.capability}" }

def pended (hub : PtyHub) (owner : ConnectionId) (claimToken : String) (deliveryId : EventId) :
    PtyHub :=
  { hub with
    controls := { hub.controls with
      pending := hub.controls.pending.insert deliveryId { owner, claimToken } } }

/-- Register a delivery; one that is pending already is refused. -/
def pend (hub : PtyHub) (owner : ConnectionId) (claimToken : String) (deliveryId : EventId) :
    Except PtyRefusal PtyHub := do
  require (hub.controls.pending.lookup deliveryId = none) (deliveryAlreadyPending deliveryId)
  return hub.pended owner claimToken deliveryId

/-- The last section of `deliver_input` and `deliver_control`: the lifetime is read again, and
the control goes into the queue while the lock is held. -/
def enqueueSession (hub : PtyHub) (channel : Channel) (id : PtySessionId)
    (generation : PtySessionGeneration) (owner : ConnectionId) (claimToken : String)
    (deliveryId : EventId) : Except PtyRefusal PtyHub := do
  let session ← hub.session id
  require (session.generation = generation ∧ session.owner = owner)
    (channel.changed id generation session.generation)
  hub.pend owner claimToken deliveryId

/-- `start_route`, and what `deliver_start` asks of it. -/
def startManager (hub : PtyHub) : Except PtyRefusal ConnectionId :=
  match hub.controls.startManagers.getLast?.bind fun manager =>
      (hub.controls.routes.lookup manager).map fun route => (manager, route) with
  | none => .error { code := .notFound, message := "no live PTY host negotiated pty_start" }
  | some (manager, route) => do
    require (route.startEnabled = true)
      { code := .capability
        message := "the PTY host manager did not negotiate pty_start" }
    return manager

def deliveryPending (hub : PtyHub) (deliveryId : EventId) : Bool :=
  (hub.controls.pending.lookup deliveryId).isSome

def forget (hub : PtyHub) (deliveryId : EventId) : PtyHub :=
  { hub with
    controls := { hub.controls with pending := hub.controls.pending.erase deliveryId } }

/-- `delivery_ack_claim`: the claim under which a host's acknowledgement is settled. -/
def deliveryAckClaim (hub : PtyHub) (connection : ConnectionId) (deliveryId : EventId) :
    Except PtyRefusal String :=
  match hub.controls.pending.lookup deliveryId with
  | none => .error (noPendingDelivery deliveryId)
  | some pending => do
    require (pending.owner = connection) (anotherHost deliveryId)
    return pending.claimToken

/-- `take_delivery_ack`: the delivery is no longer pending, and its sender is the caller's. -/
def takeDeliveryAck (hub : PtyHub) (connection : ConnectionId) (deliveryId : EventId)
    (claimToken : String) : Except PtyRefusal PtyHub :=
  match hub.controls.pending.lookup deliveryId with
  | none => .error (noPendingDelivery deliveryId)
  | some pending => do
    require (pending.owner = connection) (anotherHost deliveryId)
    require (pending.claimToken = claimToken)
      { code := .staleVersion
        message := s!"PTY delivery {deliveryId} belongs to another delivery attempt" }
    return hub.forget deliveryId

def registerConnection (hub : PtyHub) (connection : ConnectionId) (route : ControlRoute) : PtyHub :=
  let routes := hub.controls.routes.insert connection route
  if route.startEnabled then
    { hub with
      controls := { hub.controls with
        routes
        startManagers := hub.controls.startManagers.filter (· ≠ connection) ++ [connection] }
      startChanges := hub.startChanges + 1 }
  else { hub with controls := { hub.controls with routes } }

/-! ## What the sections do to the pending deliveries -/

variable {hub result : PtyHub} {owner : ConnectionId} {claimToken : String}
  {deliveryId other : EventId} {id : PtySessionId} {generation : PtySessionGeneration}
  {pending : PendingDelivery}

theorem pend_ok : hub.pend owner claimToken deliveryId = .ok result ↔
    hub.controls.pending.lookup deliveryId = none ∧
      result = hub.pended owner claimToken deliveryId := by
  simp only [pend, bind_ok, exists_unit, require_ok, pure_ok]

theorem pended_lookup (other : EventId) :
    (hub.pended owner claimToken deliveryId).controls.pending.lookup other =
      if other = deliveryId then some { owner, claimToken }
      else hub.controls.pending.lookup other :=
  Table.lookup_insert_eq ..

theorem enqueueSession_eq_ok {channel : Channel}
    (enqueued : hub.enqueueSession channel id generation owner claimToken deliveryId = .ok result) :
    hub.pend owner claimToken deliveryId = .ok result := by
  simp only [enqueueSession, bind_ok, exists_unit] at enqueued
  obtain ⟨_, _, _, pended⟩ := enqueued
  exact pended

theorem enqueueSession_of_liveOwner (channel : Channel) (claimToken : String)
    (live : hub.liveOwner id generation = .ok owner)
    (inactive : hub.deliveryPending deliveryId = false) :
    hub.enqueueSession channel id generation owner claimToken deliveryId =
      .ok (hub.pended owner claimToken deliveryId) := by
  have absent : hub.controls.pending.lookup deliveryId = none :=
    isSome_eq_false_iff.mp inactive |> isNone_iff_eq_none.mp
  simp only [liveOwner, bind_ok, exists_unit, require_ok, pure_ok] at live
  obtain ⟨session, hit, current, isOwner⟩ := live
  simp only [enqueueSession, bind_ok, exists_unit, require_ok, pend_ok]
  exact ⟨session, hit, ⟨current, isOwner.symm⟩, absent, trivial⟩

section

variable (hit : hub.controls.pending.lookup deliveryId = some pending)
include hit

theorem deliveryAckClaim_eq_ok :
    hub.deliveryAckClaim pending.owner deliveryId = .ok pending.claimToken := by
  simp [deliveryAckClaim, hit, require, pure, Except.pure, bind, Except.bind]

theorem takeDeliveryAck_of_pending :
    hub.takeDeliveryAck pending.owner deliveryId pending.claimToken =
      .ok (hub.forget deliveryId) := by
  simp [takeDeliveryAck, hit, require, pure, Except.pure, bind, Except.bind]

end

theorem takeDeliveryAck_eq_ok
    (taken : hub.takeDeliveryAck owner deliveryId claimToken = .ok result) :
    hub.controls.pending.lookup deliveryId = some ⟨owner, claimToken⟩ ∧
      result = hub.forget deliveryId := by
  unfold takeDeliveryAck at taken
  split at taken
  next => cases taken
  next pending hit =>
    simp only [bind_ok, exists_unit, require_ok, pure_ok] at taken
    obtain ⟨rfl, rfl, isResult⟩ := taken
    exact ⟨hit, isResult⟩

theorem pending_of_forget
    (hit : (hub.forget deliveryId).controls.pending.lookup other = some pending) :
    hub.controls.pending.lookup other = some pending := by
  simp only [forget] at hit
  by_cases eq : other = deliveryId
  · rw [eq, AList.lookup_erase] at hit
    cases hit
  · rwa [AList.lookup_erase_ne eq] at hit

theorem pending_of_disconnect
    (hit : (hub.disconnect owner).2.controls.pending.lookup other = some pending) :
    hub.controls.pending.lookup other = some pending := by
  simp only [disconnect, Table.lookup_eraseAll] at hit
  split at hit
  · cases hit
  · exact hit

theorem registerConnection_pending (hub : PtyHub) (connection : ConnectionId)
    (route : ControlRoute) :
    (hub.registerConnection connection route).controls.pending = hub.controls.pending := by
  simp only [registerConnection]
  split <;> rfl

theorem perform_controls (hub : PtyHub) (action : Action)
    (stays : ∀ conn, action ≠ .disconnect conn) : (hub.perform action).controls = hub.controls := by
  have effect := perform_effect hub action
  generalize hub.perform action = after at effect ⊢
  cases effect with
  | disconnected => exact absurd rfl (stays _)
  | _ => rfl

end PtyHub

end Gridwork.Pty
