import Gridwork.Kernel.Rebuild
import Gridwork.Lib.Overwrite

/-!
# Recovery of a store that only commands wrote

Recovery replays the log into the live tables when there are no derived records.  The
derived half of that replay always goes through.  The attention half runs over the items
that are already there: an acknowledgement or a mute writes the stamp that is there, but a
raise finds its id taken and a resolution finds its item resolved.  `recover_serves_iff`
says exactly when recovery answers: when there are derived records, or the log holds no
raise and no resolution.
-/

namespace Gridwork.Kernel

open Domain Lib List Option Rows KernelCommand

variable {pg : Postgres} {codec : Codec} {event : Event} {id liveHash : String}
  {items result live changed : Rows AttentionItem} {events : List Event} {initial db : Db}
  {checkpoint : Checkpoint} {anchor : Option Checkpoint}

/-! ## Stamps -/

inductive Stamp where
  | acked (time : Instant)
  | muted (until? : Option Instant)

def Stamp.write (item : AttentionItem) : Stamp → AttentionItem
  | .acked time => { item with ackedAt := some time }
  | .muted until? => { item with mutedUntil := until? }

theorem Stamp.lastWriterWins : LastWriterWins Stamp.write where
  overwrites_or_commutes prior later := by
    cases prior with
    | acked =>
      cases later with
      | acked => exact .inl fun _ => rfl
      | muted => exact .inr fun _ => rfl
    | muted =>
      cases later with
      | acked => exact .inr fun _ => rfl
      | muted => exact .inl fun _ => rfl
  again item stamp := by
    cases stamp with
    | acked | muted => rfl

def KernelCommand.resolvesItem : KernelCommand → Option String
  | .resolveAttention attentionItemId _ => some attentionItemId
  | _ => none

def resolvesItem (event : Event) : Option String :=
  event.payload.command?.bind (·.resolvesItem)

def KernelCommand.stamp (pg : Postgres) (event : Event) : KernelCommand → Option Stamp
  | .ackAttention _ => (pg.instant event.appendedAt).map .acked
  | .muteAttention _ mutedUntil => (pg.instant mutedUntil).map fun time => .muted (some time)
  | .unmuteAttention _ => some (.muted none)
  | _ => none

def stampOn (pg : Postgres) (id : String) (event : Event) : Option Stamp :=
  event.payload.command?.bind fun command =>
    if command.changesItem = some id then command.stamp pg event else none

def stampsOn (pg : Postgres) (id : String) (events : List Event) : List Stamp :=
  events.filterMap (stampOn pg id)

section Apply

variable {command : KernelCommand}

theorem applyAttention_stamp (changes : command.changesItem = some id)
    (standing : command.resolvesItem = none) :
    applyAttention pg event command items = .ok result ↔
      ∃ stamp item, command.stamp pg event = some stamp ∧ items[id]? = some item ∧
        result = items.insert id (stamp.write item) := by
  cases command with
  | resolveAttention => cases standing
  | ackAttention | muteAttention =>
    cases changes
    simp only [applyAttention, updateOne_ok, bind_ok, pure_ok,
      timestamptz_ok, stamp, map_eq_some_iff]
    constructor
    · rintro ⟨item, _, hit, ⟨time, dated, rfl⟩, rfl⟩
      exact ⟨_, item, ⟨time, dated, rfl⟩, hit, rfl⟩
    · rintro ⟨_, item, ⟨time, dated, rfl⟩, hit, rfl⟩
      exact ⟨item, _, hit, ⟨time, dated, rfl⟩, rfl⟩
  | unmuteAttention attentionItemId =>
    cases changes
    simp only [applyAttention, updateOne_ok, stamp, Except.ok.injEq]
    constructor
    · rintro ⟨item, _, hit, rfl, rfl⟩
      exact ⟨_, item, rfl, hit, rfl⟩
    · rintro ⟨_, item, ⟨⟩, hit, rfl⟩
      exact ⟨item, _, hit, rfl, rfl⟩
  | _ => cases changes

theorem applyAttention_resolve (pg : Postgres) (event : Event)
    (resolves : command.resolvesItem = some id) :
    ∃ close : Instant → AttentionItem → AttentionItem,
      (∀ time item, (close time item).resolvedAt = some time) ∧
      (∀ time item stamp, Stamp.write (close time item) stamp =
        close time (Stamp.write item stamp)) ∧
      ∀ items result, applyAttention pg event command items = .ok result ↔
        ∃ item time, items[id]? = some item ∧ item.resolvedAt = none ∧
          pg.instant event.appendedAt = some time ∧ result = items.insert id (close time item) := by
  cases command with
  | resolveAttention attentionItemId resolution =>
    cases resolves
    refine ⟨fun time item => { item with
      resolvedAt := some time
      resolution := resolution <|> item.resolution }, fun _ _ => rfl, ?_, ?_⟩
    · intro time item stamp
      cases stamp with
      | acked | muted => rfl
    · intro items result
      simp only [applyAttention, updateOne_ok, bind_ok, exists_unit,
        require_ok, pure_ok, timestamptz_ok]
      constructor
      · rintro ⟨item, _, hit, ⟨stands, time, dated, rfl⟩, rfl⟩
        exact ⟨item, time, hit, stands, dated, rfl⟩
      · rintro ⟨item, time, hit, stands, dated, rfl⟩
        exact ⟨item, _, hit, ⟨stands, time, dated, rfl⟩, rfl⟩
  | _ => cases resolves

theorem changesItem_of_resolvesItem (resolves : command.resolvesItem = some id) :
    command.changesItem = some id := by
  cases command with
  | resolveAttention => exact resolves
  | _ => cases resolves

end Apply

/-! ## What one event does to the items -/

inductive ItemEffect (pg : Postgres) (items : Rows AttentionItem) (event : Event) :
    Rows AttentionItem → Prop where
  | idle (raises : raisesItem event = none) (changes : changesItem event = none) :
      ItemEffect pg items event items
  | raise {id : String} {row : AttentionItem} (raises : raisesItem event = some id)
      (changes : changesItem event = none) (free : items[id]? = none) :
      ItemEffect pg items event (items.insert id row)
  | stamp {id : String} {stamp : Stamp} {item : AttentionItem} (raises : raisesItem event = none)
      (changes : changesItem event = some id) (standing : resolvesItem event = none)
      (stamps : stampOn pg id event = some stamp) (hit : items[id]? = some item) :
      ItemEffect pg items event (items.insert id (stamp.write item))
  | resolve {id : String} {item closed : AttentionItem} (raises : raisesItem event = none)
      (changes : changesItem event = some id) (resolves : resolvesItem event = some id)
      (hit : items[id]? = some item) (stands : item.resolvedAt = none)
      (closes : closed.resolvedAt ≠ none)
      (keeps : ∀ stamps : List Stamp, stamps.foldl Stamp.write item = item →
        stamps.foldl Stamp.write closed = closed) :
      ItemEffect pg items event (items.insert id closed)

theorem eq_command_of_command? {body : EventBody} {command : KernelCommand}
    (carried : body.command? = some command) : body = .command command := by
  cases body with
  | command issued =>
    cases carried
    rfl
  | genesis | context => cases carried

theorem itemEffect_of_replay (replays : replayAttention pg items event = .ok result) :
    ItemEffect pg items event result := by
  cases carried : event.payload.command? with
  | none =>
    have raises : raisesItem event = none := by simp [raisesItem, carried]
    have changes : changesItem event = none := by simp [changesItem, carried]
    cases body : event.payload with
    | command issued => simp [body, EventBody.command?] at carried
    | genesis | context =>
      simp only [replayAttention, body, Except.ok.injEq] at replays
      exact replays ▸ .idle raises changes
  | some command =>
    have body := eq_command_of_command? carried
    simp only [replayAttention, body] at replays
    cases raises : command.raisesItem with
    | some id =>
      obtain ⟨kind, subjectRef, row, spec⟩ := applyAttention_raise pg event raises
      obtain ⟨raisedAt, -, -, free, rfl⟩ := (spec items result).mp replays
      refine .raise ?_ ?_ free
      · simp [raisesItem, carried, raises]
      · simp [changesItem, carried, changesItem_eq_none_of_raisesItem raises]
    | none =>
      have raisesEvent : raisesItem event = none := by simp [raisesItem, carried, raises]
      cases changes : command.changesItem with
      | none =>
        rw [applyAttention_other raises changes] at replays
        cases replays
        exact .idle raisesEvent (by simp [changesItem, carried, changes])
      | some id =>
        have changesEvent : changesItem event = some id := by
          simp [changesItem, carried, changes]
        cases resolves : command.resolvesItem with
        | none =>
          obtain ⟨stamp, item, stamps, hit, rfl⟩ :=
            (applyAttention_stamp changes resolves).mp replays
          refine .stamp raisesEvent changesEvent ?_ ?_ hit
          · simp [resolvesItem, carried, resolves]
          · simp [stampOn, carried, changes, stamps]
        | some other =>
          have eq := changesItem_of_resolvesItem resolves
          rw [changes, some.injEq] at eq
          subst eq
          obtain ⟨close, closes, commutes, spec⟩ :=
            applyAttention_resolve pg event resolves
          obtain ⟨item, time, hit, stands, -, rfl⟩ := (spec items result).mp replays
          refine .resolve raisesEvent changesEvent ?_ hit stands ?_ ?_
          · simp [resolvesItem, carried, resolves]
          · simp [closes]
          · intro stamps settled
            rw [foldl_hom (close time) (commutes time), settled]

/-! ## The items of a history -/

theorem changesItem_eq_of_resolvesItem
    (resolves : resolvesItem event = some id) : changesItem event = some id := by
  obtain ⟨command, carried, named⟩ := bind_eq_some_iff.mp resolves
  exact bind_eq_some_iff.mpr ⟨command, carried, changesItem_of_resolvesItem named⟩

theorem resolvesItem_eq_none (changes : changesItem event = none) : resolvesItem event = none := by
  cases resolves : resolvesItem event with
  | none => rfl
  | some id => simp [changesItem_eq_of_resolvesItem resolves] at changes

theorem stampOn_eq_none
    (other : changesItem event ≠ some id ∨ ∃ named, resolvesItem event = some named) :
    stampOn pg id event = none := by
  cases carried : event.payload.command? with
  | none => simp [stampOn, carried]
  | some command =>
    simp only [stampOn, carried, bind_some, changesItem, resolvesItem] at other ⊢
    rcases other with ne | ⟨named, resolves⟩
    · rw [if_neg ne]
    · cases command with
      | resolveAttention => simp [stamp]
      | _ => cases resolves

theorem stampsOn_snoc (id : String) (events : List Event) (event : Event) :
    stampsOn pg id (events ++ [event]) = stampsOn pg id events ++ (stampOn pg id event).toList := by
  cases stamps : stampOn pg id event with
  | none | some => simp [stampsOn, stamps]

/-- How the live items stand to a log: every item an event named is there, a resolved one
stays resolved, and each row carries the last stamps written on it. -/
structure Tended (pg : Postgres) (events : List Event) (live : Rows AttentionItem) : Prop where
  present : ∀ event ∈ events, ∀ id, raisesItem event = some id ∨ changesItem event = some id →
    ∃ item, live[id]? = some item
  resolved : ∀ event ∈ events, ∀ id item, resolvesItem event = some id →
    live[id]? = some item → item.resolvedAt ≠ none
  dated : ∀ event ∈ events, ∀ id, changesItem event = some id → resolvesItem event = none →
    ∃ stamp, stampOn pg id event = some stamp
  stamped : ∀ id item, live[id]? = some item →
    (stampsOn pg id events).foldl Stamp.write item = item

namespace Tended

theorem stampsOn_eq_nil (holds : Tended pg events live) (free : live[id]? = none) :
    stampsOn pg id events = [] := by
  simp only [stampsOn, filterMap_eq_nil_iff]
  intro event mem
  refine stampOn_eq_none (.inl fun changes => ?_)
  obtain ⟨item, hit⟩ := holds.present event mem id (.inr changes)
  simp [hit] at free

theorem present_insert (key : String) (row : AttentionItem)
    (hit : ∃ item, live[id]? = some item) : ∃ item, (live.insert key row)[id]? = some item := by
  rw [getElem?_insert_eq]
  split
  · exact ⟨_, rfl⟩
  · exact hit

section

variable (holds : Tended pg events live)
include holds

theorem page {row : AttentionItem}
    (free : live[id]? = none) : Tended pg events (live.insert id row) where
  present event mem named about := present_insert _ _ (holds.present event mem named about)
  resolved event mem named item resolves hit := by
    rw [getElem?_insert_eq] at hit
    split at hit
    next eq =>
      subst eq
      obtain ⟨item, taken⟩ := holds.present event mem id
        (.inr (changesItem_eq_of_resolvesItem resolves))
      simp [taken] at free
    next => exact holds.resolved event mem named item resolves hit
  dated := holds.dated
  stamped named item hit := by
    rw [getElem?_insert_eq] at hit
    split at hit
    next eq =>
      subst eq
      simp [holds.stampsOn_eq_nil free]
    next => exact holds.stamped named item hit

theorem extend (kept : ∀ (id : String) (item : AttentionItem), live[id]? = some item →
      ∃ after : AttentionItem, changed[id]? = some after ∧
        (item.resolvedAt ≠ none → after.resolvedAt ≠ none))
    (present : ∀ id, raisesItem event = some id ∨ changesItem event = some id →
      ∃ item, changed[id]? = some item)
    (resolved : ∀ (id : String) (item : AttentionItem), resolvesItem event = some id →
      changed[id]? = some item → item.resolvedAt ≠ none)
    (dated : ∀ id, changesItem event = some id → resolvesItem event = none →
      ∃ stamp, stampOn pg id event = some stamp)
    (stamped : ∀ id item, changed[id]? = some item →
      (stampsOn pg id events ++ (stampOn pg id event).toList).foldl Stamp.write item = item) :
    Tended pg (events ++ [event]) changed := by
  constructor
  · intro other mem id about
    rcases mem_snoc.mp mem with prior | rfl
    · obtain ⟨item, hit⟩ := holds.present other prior id about
      obtain ⟨after, foundAfter, -⟩ := kept id item hit
      exact ⟨after, foundAfter⟩
    · exact present id about
  · intro other mem id item resolves hit
    rcases mem_snoc.mp mem with prior | rfl
    · obtain ⟨before, foundBefore⟩ := holds.present other prior id
        (.inr (changesItem_eq_of_resolvesItem resolves))
      obtain ⟨after, foundAfter, stays⟩ := kept id before foundBefore
      rw [hit, some.injEq] at foundAfter
      rw [foundAfter]
      exact stays (holds.resolved other prior id before resolves foundBefore)
    · exact resolved id item resolves hit
  · intro other mem id changes standing
    rcases mem_snoc.mp mem with prior | rfl
    · exact holds.dated other prior id changes standing
    · exact dated id changes standing
  · intro id item hit
    rw [stampsOn_snoc]
    exact stamped id item hit

/-- **Every event keeps the items tended.** -/
theorem append (effect : ItemEffect pg live event changed) :
    Tended pg (events ++ [event]) changed := by
  cases effect with
  | idle raises changes =>
    refine holds.extend (fun _ item hit => ⟨item, hit, fun stays => stays⟩) ?_ ?_ ?_ ?_
    · simp [raises, changes]
    · simp [resolvesItem_eq_none changes]
    · simp [changes]
    · intro id item hit
      rw [stampOn_eq_none (.inl (by simp [changes]))]
      simpa using holds.stamped id item hit
  | @raise raisedId row raises changes free =>
    refine holds.extend ?_ ?_ ?_ ?_ ?_
    · intro id item hit
      refine ⟨item, ?_, fun stays => stays⟩
      rw [getElem?_insert_eq, if_neg, hit]
      rintro rfl
      simp [hit] at free
    · rintro id (named | named)
      · rw [raises, some.injEq] at named
        simp [named]
      · simp [changes] at named
    · simp [resolvesItem_eq_none changes]
    · simp [changes]
    · intro id item hit
      rw [stampOn_eq_none (.inl (by simp [changes]))]
      rw [getElem?_insert_eq] at hit
      split at hit
      next eq =>
        subst eq
        simp [holds.stampsOn_eq_nil free]
      next => simpa using holds.stamped id item hit
  | @stamp changedId stamp item raises changes standing stamps hit =>
    refine holds.extend ?_ ?_ ?_ ?_ ?_
    · intro id before foundBefore
      rw [getElem?_insert_eq]
      split
      next eq =>
        subst eq
        rw [hit, some.injEq] at foundBefore
        subst foundBefore
        refine ⟨_, rfl, fun stays => ?_⟩
        cases stamp with
        | acked | muted => exact stays
      next => exact ⟨before, foundBefore, fun stays => stays⟩
    · rintro id (named | named)
      · simp [raises] at named
      · rw [changes, some.injEq] at named
        simp [named]
    · simp [standing]
    · intro id named _
      rw [changes, some.injEq] at named
      exact named ▸ ⟨stamp, stamps⟩
    · intro id after foundAfter
      rw [getElem?_insert_eq] at foundAfter
      split at foundAfter
      next eq =>
        subst eq
        cases foundAfter
        rw [stamps]
        exact Stamp.lastWriterWins.replay_snoc (holds.stamped changedId item hit)
      next ne =>
        rw [stampOn_eq_none (.inl (by simpa [changes] using ne))]
        simpa using holds.stamped id after foundAfter
  | @resolve changedId item closed raises changes resolves hit stands closes keeps =>
    refine holds.extend ?_ ?_ ?_ ?_ ?_
    · intro id before foundBefore
      rw [getElem?_insert_eq]
      split
      next => exact ⟨_, rfl, fun _ => closes⟩
      next => exact ⟨before, foundBefore, fun stays => stays⟩
    · rintro id (named | named)
      · simp [raises] at named
      · rw [changes, some.injEq] at named
        simp [named]
    · intro id after named foundAfter
      rw [resolves, some.injEq] at named
      simp only [getElem?_insert_eq, named, if_true, some.injEq] at foundAfter
      exact foundAfter ▸ closes
    · simp [resolves]
    · intro id after foundAfter
      rw [stampOn_eq_none (.inr ⟨_, resolves⟩), toList_none, append_nil]
      rw [getElem?_insert_eq] at foundAfter
      split at foundAfter
      next eq =>
        subst eq
        cases foundAfter
        exact keeps _ (holds.stamped changedId item hit)
      next => exact holds.stamped id after foundAfter

end

end Tended

/-- **In every history the live items are tended.** -/
theorem after_tended (init : Initialised pg codec initial) (calls : List Call) :
    SteadyLog pg (after pg codec initial calls).events →
      Tended pg (after pg codec initial calls).events
        (after pg codec initial calls).tables.attention := by
  obtain ⟨genesis, opened⟩ := init.opened
  refine after_induction
    (fun db => SteadyLog pg db.events → Tended pg db.events db.tables.attention) ?_ ?_ calls
  · intro _
    have nothing : Tended pg [] (∅ : Rows AttentionItem) :=
      ⟨by simp, by simp, by simp, by simp [stampsOn]⟩
    obtain ⟨revision, payload⟩ := opened.isGenesis.payload
    simp only [opened.events, opened.tables, Projections.empty]
    refine nothing.append (itemEffect_of_replay ?_)
    simp [replayAttention, payload]
  · intro db call request committed holds passes admits step
    cases step with
    | replayed | refusedInput | refusedControl => exact holds
    | paged _ _ _ raised =>
      obtain ⟨raisedAt, -, ⟨-, rfl⟩ | ⟨-, free, rfl⟩⟩ := pageAttention_ok.mp raised
      · exact holds
      · exact fun steady => (holds steady).page free
    | landed _ _ _ _ _ _ _ lands =>
      intro steady
      rw [landing_events, SteadyLog, forall_mem_append, forall_mem_singleton] at steady
      obtain ⟨-, attends, -⟩ := lands.halves passes steady.2
      simp only [landing_events, landing_tables]
      exact (holds steady.1).append (itemEffect_of_replay attends)

/-! ## Replaying over the live items -/

def Quiet (event : Event) : Prop :=
  raisesItem event = none ∧ resolvesItem event = none
  deriving Decidable

theorem quiet_of_replay
    (raised : ∀ event ∈ events, ∀ id, raisesItem event = some id → ∃ item, items[id]? = some item)
    (resolved : ∀ event ∈ events, ∀ (id : String) (item : AttentionItem),
      resolvesItem event = some id → items[id]? = some item → item.resolvedAt ≠ none)
    (replays : events.foldlM (replayAttention pg) items = .ok result) :
    ∀ event ∈ events, Quiet event := by
  induction events generalizing items with
  | nil => simp
  | cons event rest ih =>
    rw [foldlM_cons, bind_ok] at replays
    obtain ⟨mid, first, later⟩ := replays
    have raisedLater := fun other mem => raised other (mem_cons_of_mem event mem)
    have resolvedLater := fun other mem => resolved other (mem_cons_of_mem event mem)
    cases itemEffect_of_replay first with
    | idle raises changes =>
      rw [forall_mem_cons]
      exact ⟨⟨raises, resolvesItem_eq_none changes⟩, ih raisedLater resolvedLater later⟩
    | raise raises changes free =>
      obtain ⟨item, taken⟩ := raised event mem_cons_self _ raises
      simp [taken] at free
    | resolve raises changes resolves hit stands closes keeps =>
      exact absurd stands (resolved event mem_cons_self _ _ resolves hit)
    | @stamp changedId stamp item raises changes standing stamps hit =>
      rw [forall_mem_cons]
      refine ⟨⟨raises, standing⟩, ih ?_ ?_ later⟩
      · intro other mem id raisesOther
        exact Tended.present_insert _ _ (raisedLater other mem id raisesOther)
      · intro other mem id after resolves foundAfter
        rw [getElem?_insert_eq] at foundAfter
        split at foundAfter
        next eq =>
          subst eq
          cases foundAfter
          have stays := resolvedLater other mem changedId item resolves hit
          cases stamp with
          | acked | muted => exact stays
        next => exact resolvedLater other mem id after resolves foundAfter

theorem replayAttention_idle (known : Known event)
    (raises : raisesItem event = none) (changes : changesItem event = none) :
    replayAttention pg items event = .ok items := by
  rcases known with isEvent | ⟨command, isEvent⟩
  · obtain ⟨revision, payload⟩ := isEvent.payload
    simp [replayAttention, payload]
  · simp only [raisesItem, changesItem, isEvent.payload, EventBody.command?,
      bind_some] at raises changes
    simp only [replayAttention, isEvent.payload]
    exact applyAttention_other raises changes items

theorem replayAttention_stamp
    {stamp : Stamp} {item : AttentionItem} (stamps : stampOn pg id event = some stamp)
    (hit : items[id]? = some item) :
    replayAttention pg items event = .ok (items.insert id (stamp.write item)) := by
  obtain ⟨command, carried, stampsCommand⟩ := bind_eq_some_iff.mp stamps
  split at stampsCommand
  next changes =>
    have body := eq_command_of_command? carried
    have standing : command.resolvesItem = none := by
      cases command with
      | resolveAttention => cases stampsCommand
      | _ => rfl
    simp only [replayAttention, body]
    exact (applyAttention_stamp changes standing).mpr ⟨stamp, item, stampsCommand, hit, rfl⟩
  next => cases stampsCommand

theorem replay_of_quiet
    (known : ∀ event ∈ events, Known event) (quiet : ∀ event ∈ events, Quiet event)
    (present : ∀ event ∈ events, ∀ id, changesItem event = some id → ∃ item, items[id]? = some item)
    (dated : ∀ event ∈ events, ∀ id, changesItem event = some id → resolvesItem event = none →
      ∃ stamp, stampOn pg id event = some stamp) :
    ∃ result, events.foldlM (replayAttention pg) items = .ok result ∧ ∀ id : String, result[id]? =
        items[id]?.map fun item => (stampsOn pg id events).foldl Stamp.write item := by
  induction events generalizing items with
  | nil => exact ⟨items, rfl, by simp [stampsOn]⟩
  | cons event rest ih =>
    rw [forall_mem_cons] at known quiet present dated
    obtain ⟨raises, standing⟩ := quiet.1
    cases changes : changesItem event with
    | none =>
      obtain ⟨result, replays, restamped⟩ :=
        ih known.2 quiet.2 present.2 dated.2
      refine ⟨result, ?_, fun id => ?_⟩
      · rw [foldlM_cons, replayAttention_idle known.1 raises changes]
        exact replays
      · have unstamped : stampOn pg id event = none := stampOn_eq_none (.inl (by simp [changes]))
        rw [restamped]
        simp only [stampsOn, filterMap_cons, unstamped]
    | some changedId =>
      obtain ⟨item, hit⟩ := present.1 changedId changes
      obtain ⟨stamp, stamps⟩ := dated.1 changedId changes standing
      obtain ⟨result, replays, restamped⟩ := ih known.2 quiet.2
        (fun other mem id named => Tended.present_insert changedId (stamp.write item)
          (present.2 other mem id named)) dated.2
      refine ⟨result, ?_, fun id => ?_⟩
      · rw [foldlM_cons, replayAttention_stamp stamps hit]
        exact replays
      · rw [restamped, getElem?_insert_eq]
        split
        next eq =>
          subst eq
          simp only [hit, map_some, stampsOn, filterMap_cons, stamps, foldl_cons]
        next ne =>
          have unstamped : stampOn pg id event = none :=
            stampOn_eq_none (.inl (by simpa [changes] using ne))
          simp only [stampsOn, filterMap_cons, unstamped]

/-- **The log replays over the live items exactly when it is quiet, and then leaves them as
they are.** -/
theorem Tended.replays_iff (holds : Tended pg events live) (known : ∀ event ∈ events, Known event) :
    (∃ result, events.foldlM (replayAttention pg) live = .ok result ∧
        ∀ id : String, result[id]? = live[id]?) ↔
      ∀ event ∈ events, Quiet event := by
  constructor
  · rintro ⟨result, replays, -⟩
    exact quiet_of_replay (fun event mem id raises => holds.present event mem id (.inl raises))
      holds.resolved replays
  · intro quiet
    obtain ⟨result, replays, restamped⟩ := replay_of_quiet known quiet
      (fun event mem id changes => holds.present event mem id (.inr changes)) holds.dated
    refine ⟨result, replays, fun id => ?_⟩
    rw [restamped]
    cases hit : live[id]? with
    | none => rfl
    | some item => simp [holds.stamped id item hit]

/-! ## Checkpoints describe the tables -/

theorem watermark_snoc {row : Event}
    (below : ∀ event ∈ events, event.globalSequence.toNat < row.globalSequence.toNat) :
    watermark (events ++ [row]) = some row.globalSequence := by
  rw [watermark, max?_eq_some_iff]
  simp only [map_append, map_cons, map_nil, mem_append, List.mem_map,
    mem_singleton, or_true, true_and]
  rintro sequence (⟨event, mem, rfl⟩ | rfl)
  · rw [UInt64.le_iff_toNat_le]
    exact (below event mem).le
  · exact UInt64.le_refl _

/-- A checkpoint at the watermark describes the live tables. -/
structure Anchored (codec : Codec) (db : Db) : Prop where
  nonempty : db.events ≠ []
  below : ∀ checkpoint ∈ db.checkpoints,
    checkpoint.throughSequence.toNat < db.writer.nextSeq.toNat
  describes : ∀ checkpoint ∈ db.checkpoints,
    watermark db.events = some checkpoint.throughSequence →
      checkpoint.projectionHash = derivedHash codec db.tables

theorem Anchored.of_lands {call : Call} {request : Request} {expected : UInt32}
    {row : Event} {tables : Projections} (holds : Anchored codec db) (log : LogInvariant db)
    (lands : Lands pg codec db call request expected row tables) :
    Anchored codec (landing pg codec db call request row tables) := by
  obtain ⟨kept, made⟩ := lands.made
  have next : (db.writer.nextSeq + 1).toNat = db.writer.nextSeq.toNat + 1 := by
    rw [UInt64.toNat_add]
    exact Nat.mod_eq_of_lt lands.sequenced
  have mark : watermark (db.events ++ [row]) = some db.writer.nextSeq := by
    rw [watermark_snoc, made.sequence]
    rw [made.sequence]
    exact log.sequenced
  have members (checkpoint : Checkpoint)
      (mem : checkpoint ∈ (landing pg codec db call request row tables).checkpoints) :
      checkpoint ∈ db.checkpoints ∨ checkpoint =
        checkpointOf codec tables.derived row.globalSequence (pg.render call.moment.now) := by
    rw [← mem_singleton, ← mem_append]
    exact landing_checkpoints_subset mem
  constructor
  · simp
  · intro checkpoint mem
    rw [landing_nextSeq, next]
    rcases members checkpoint mem with prior | rfl
    · exact Nat.lt_succ_of_lt (holds.below checkpoint prior)
    · simp only [checkpointOf, made.sequence]
      exact Nat.lt_succ_self _
  · intro checkpoint mem
    rw [landing_events, mark, landing_tables]
    rcases members checkpoint mem with prior | rfl
    · intro eq
      have below := holds.below checkpoint prior
      rw [← some.inj eq] at below
      exact absurd below (Nat.lt_irrefl _)
    · intro _
      rfl

/-- **In every history a checkpoint at the watermark describes the live tables.** -/
theorem after_anchored (init : Initialised pg codec initial)
    (calls : List Call) : Anchored codec (after pg codec initial calls) := by
  obtain ⟨genesis, opened⟩ := init.opened
  have both : LogInvariant (after pg codec initial calls) ∧
      Anchored codec (after pg codec initial calls) := by
    refine after_induction (fun db => LogInvariant db ∧ Anchored codec db)
      ⟨.of_opened opened, ?_⟩ ?_ calls
    · refine ⟨by simp [opened.events], ?_, ?_⟩
      · simp [opened.checkpoints]
      · simp [opened.checkpoints]
    · rintro db call request committed ⟨log, holds⟩ passes admits step
      cases step with
      | replayed => exact ⟨log, holds⟩
      | refusedInput | paged | refusedControl =>
        exact ⟨⟨log.1, log.2, log.3⟩, ⟨holds.1, holds.2, holds.3⟩⟩
      | @landed _ receipts _ _ _ _ _ _ _ _ _ _ lands =>
        have logBefore : LogInvariant { db with receipts } := ⟨log.1, log.2, log.3⟩
        have before : Anchored codec { db with receipts } := ⟨holds.1, holds.2, holds.3⟩
        exact ⟨logBefore.of_lands passes lands, before.of_lands logBefore lands⟩
  exact both.2

/-! ## Recovery -/

theorem mem_of_newestValid {blobs : BlobReader} {mark : Option Seq}
    {ladder : List Checkpoint} (hit : (newestValid blobs mark ladder).1 = some checkpoint) :
    checkpoint ∈ ladder := by
  induction ladder with
  | nil => cases hit
  | cons newest older ih =>
    simp only [newestValid] at hit
    split at hit
    · cases hit
      exact mem_cons_self
    · exact mem_cons_of_mem _ (ih hit)

theorem mem_of_anchorOf {blobs : Option BlobReader}
    (hit : (anchorOf blobs db).1 = some checkpoint) : checkpoint ∈ db.checkpoints := by
  cases blobs with
  | none => cases hit
  | some reader => exact mem_reverse.mp (mem_of_newestValid hit)

theorem coldVerdict_ne_diverged {built : Replayed}
    (describes : ∀ checkpoint, anchor = some checkpoint →
      built.watermark = some checkpoint.throughSequence →
      checkpoint.projectionHash = built.rebuiltHash) (expected hit : String) :
    coldVerdict anchor built ≠ .diverged expected hit := by
  unfold coldVerdict
  split
  next checkpoint kept =>
    obtain ⟨isAnchor, atMark⟩ := filter_eq_some_iff.mp kept
    rw [if_neg]
    · simp
    · simpa using describes checkpoint isAnchor (of_decide_eq_true atMark).symm
  next => simp

theorem warmVerdict_ne_diverged {attached : Bool} {mark : Seq}
    (describes : ∀ checkpoint, anchor = some checkpoint → checkpoint.throughSequence = mark →
      checkpoint.projectionHash = liveHash) (expected hit : String) :
    warmVerdict attached anchor mark liveHash ≠ .diverged expected hit := by
  unfold warmVerdict
  split
  next checkpoint =>
    split
    next atMark =>
      rw [if_pos (describes checkpoint rfl atMark)]
      simp
    next => simp
  next =>
    split
    · simp
    · simp

/-- Recovery served: it answered without a divergence, and left the items and the receipts
as they were. -/
def Serves (pg : Postgres) (codec : Codec) (blobs : Option BlobReader) (db : Db) : Prop :=
  ∃ report recovered, recover pg codec blobs db = .ok (report, recovered) ∧
    (∀ expected hit, report.verdict ≠ .diverged expected hit) ∧
    (∀ id : String, recovered.tables.attention[id]? = db.tables.attention[id]?) ∧
    recovered.receipts = db.receipts

/-- **Recovery serves a store that only commands wrote exactly when it has derived records,
or its log holds no raise and no resolution,** if the timestamps of the log read the same at
any clock. -/
theorem recover_serves_iff (init : Initialised pg codec initial)
    (calls : List Call) (blobs : Option BlobReader)
    (steady : SteadyLog pg (after pg codec initial calls).events) :
    Serves pg codec blobs (after pg codec initial calls) ↔
      derivedRecords (after pg codec initial calls).tables.derived ≠ [] ∨
        ∀ event ∈ (after pg codec initial calls).events, Quiet event := by
  have known := (after_logInvariant init calls).known
  have derives := after_derivedRebuilt init calls steady
  have tended := after_tended init calls steady
  have anchored := after_anchored init calls
  clear steady
  generalize after pg codec initial calls = db at known derives tended anchored ⊢
  obtain ⟨mark, marked⟩ : ∃ mark, watermark db.events = some mark :=
    ne_none_iff_exists'.mp (mt watermark_none.mp anchored.nonempty)
  have describes (checkpoint : Checkpoint) (isAnchor : (anchorOf blobs db).1 = some checkpoint)
      (atMark : watermark db.events = some checkpoint.throughSequence) :
      checkpoint.projectionHash = derivedHash codec db.tables :=
    anchored.describes checkpoint (mem_of_anchorOf isAnchor) atMark
  by_cases cold : derivedRecords db.tables.derived = []
  · -- the replay runs over the live items, from empty derived tables
    have blank : db.tables.derived = Derived.empty := eq_empty_of_derivedRecords_eq_nil cold
    rw [DerivedRebuilt, ← blank] at derives
    rw [← tended.replays_iff known]
    simp only [cold, ne_eq, not_true_eq_false, false_or, Serves, recover, judge, marked, if_true,
      replay, bind_ok, pure_ok, replayLog_ok known]
    constructor
    · rintro ⟨report, recovered, ⟨_, ⟨_, ⟨_, ⟨derived, attention, -, attends, rfl⟩, rfl⟩, rfl⟩,
        eq⟩, -, unchanged, -⟩
      cases eq
      exact ⟨attention, attends, unchanged⟩
    · rintro ⟨attention, attends, unchanged⟩
      refine ⟨_, _, ⟨_, ⟨_, ⟨_, ⟨_, attention, derives, attends, rfl⟩, rfl⟩, rfl⟩, rfl⟩,
        ?_, unchanged, rfl⟩
      exact coldVerdict_ne_diverged fun checkpoint isAnchor atMark =>
        describes checkpoint isAnchor (marked.trans atMark)
  · simp only [cold, ne_eq, not_false_eq_true, true_or, iff_true, Serves, recover, judge, marked,
      if_false]
    refine ⟨_, _, rfl, ?_, fun _ => rfl, rfl⟩
    refine warmVerdict_ne_diverged fun checkpoint isAnchor atMark => ?_
    exact describes checkpoint isAnchor (atMark ▸ marked)

open Sample in
def Sample.acknowledged : List Call :=
  [activate, ungranted "k1",
    call (.ackAttention "page:stop:command/c1") "k2" operator,
    call (.muteAttention "page:stop:command/c1" "pp") "k3" operator]

open Sample in
theorem recover_serves_acknowledged :
    derivedRecords (ran acknowledged).tables.derived = [] ∧
      Serves postgres Sample.codec none (ran acknowledged) :=
  ⟨by decide +kernel, (recover_serves_iff init acknowledged none
    (steadyLog_of_notMem (by decide +kernel))).mpr (.inr (by decide +kernel))⟩

/-- The first thing that happens on an active kernel is a question. -/
def Sample.asked : List Call :=
  [Sample.activate,
    Sample.call (.raiseAttention "a1" "question" "which?" (some "task/t1") none none) "k1"
      Sample.engine]

open Sample in
theorem recover_refuses_asked : Initialised postgres Sample.codec Sample.initial ∧
      recover postgres Sample.codec none (ran asked) =
        .error (.db "insert attention item" "attention_item_unresolved_dedup") ∧
      ¬ Serves postgres Sample.codec none (ran asked) := by
  have refused : recover postgres Sample.codec none (ran asked) =
      .error (.db "insert attention item" "attention_item_unresolved_dedup") := rfl
  refine ⟨init, refused, ?_⟩
  rintro ⟨report, recovered, answered, -⟩
  rw [refused] at answered
  cases answered

/-! ## A rebuild beside the live tables -/

end Gridwork.Kernel
