import Gridwork.Kernel.Receipts
import Gridwork.Kernel.Landing

/-!
# PTY controls

Input, resize, stop and start requests are receipted whatever comes of them: an allowed
one with the allow, a refused one with the refusal.  The refusal is written for what the
decision refuses.  The checks after the decision abort the transaction and the receipt
with it: the envelope's own `expected_version`, the version of the aggregate in the log,
the ceilings of the counters, and the size of the body.  `submit_receipts_iff` says that
these are all.
-/

namespace Gridwork.Kernel

open Domain Lib List Option

variable {pg : Postgres} {codec : Codec} {initial db : Db} {event row : Event}
  {time issued : Instant} {command : KernelCommand} {tables : Derived} {envelope : CommandEnvelope}
  {route : Route} {want version : UInt32} {call : Call} {request : Request}
  {actionClass basis context id : String} {committed : Committed}
  {rows ptySession : Rows PtySession}

/-! ## Deliveries -/

/-- Every delivery was registered with an event of its project and key. -/
def Delivered (db : Db) : Prop :=
  ∀ delivery ∈ db.deliveries, ∃ event ∈ db.events, event.projectId = delivery.projectId ∧
    event.idempotencyKey = some delivery.idempotencyKey ∧ event.eventId = delivery.eventId

theorem after_delivered (init : Initialised pg codec initial)
    (calls : List Call) : Delivered (after pg codec initial calls) := by
  obtain ⟨genesis, opened⟩ := init.opened
  refine after_induction Delivered ?_ ?_ calls
  · intro delivery mem
    rw [opened.deliveries] at mem
    cases mem
  · intro db call request committed holds passes admits step
    cases step with
    | replayed | refusedInput | paged | refusedControl => exact holds
    | landed _ _ _ _ _ _ _ lands =>
      obtain ⟨kept, made⟩ := lands.made
      intro delivery mem
      rw [landing_deliveries, mem_append] at mem
      simp only [landing_events]
      rcases mem with earlier | registered
      · obtain ⟨event, logged, matched⟩ := holds delivery earlier
        exact ⟨event, mem_append_left _ logged, matched⟩
      · split at registered
        · rw [mem_singleton] at registered
          subst registered
          exact ⟨_, by simp, made.projectId, made.key, rfl⟩
        · cases registered

theorem Delivered.indexesFree (delivered : Delivered db) (fresh : Fresh db call request)
    (control : request.command.receiptedPty = true) (free : eventIndexesFree db.events row) :
    deliveryIndexesFree db.deliveries (deliveryOf call request row) := by
  intro delivery mem
  obtain ⟨event, logged, ofProject, underKey, named⟩ := delivered delivery mem
  refine ⟨?_, fresh.commandId control delivery mem, ?_⟩
  · intro eq
    obtain ⟨sameProject, sameKey⟩ := Prod.ext_iff.mp eq
    have unused := fresh.unused
    simp only [eventsForKey, filter_eq_nil_iff, decide_eq_true_eq, not_and] at unused
    exact unused event logged (underKey.trans (congrArg some sameKey))
      (.inl (ofProject.trans sameProject))
  · intro eq
    exact (free event logged).2.1 (named.trans eq)

/-! ## The projection of a control -/

theorem revise_session {session : PtySession} (hit : rows[id]? = some session)
    (dated : pg.instant event.appendedAt = some time)
    (next : event.aggregateVersion.toNat = session.version.toNat + 1) :
    ∃ result, revise pg event context "pty_session" id (fun row _ => .ok row) rows = .ok result :=
  ⟨_, revise_ok.mpr ⟨session, time, session, hit, dated, rfl, require_ok.mpr next, rfl⟩⟩

theorem applyDerived_control (control : command.receiptedPty = true)
    (applies : applyPtySession pg event command tables.engineSession tables.ptySession =
      .ok ptySession) :
    applyDerived pg event command tables = .ok { tables with ptySession } := by
  unfold applyDerived
  rw [applies]
  cases command with
  | sendPtyInput | resizePtySession | stopPtySession | requestPtySessionStart => rfl
  | _ => cases control

/-- What the decision accepts of a control, and at which version: a session under the
presented generation that is still running, or may still be stopped, and a start of a
template that was not retired. -/
def Accepts (tables : Derived) (route : Route) : KernelCommand → UInt32 → Prop
  | .sendPtyInput _ generation _, version | .resizePtySession _ generation _ _, version =>
    ∃ session, tables.ptySession[route.aggregateId]? = some session ∧
      (session.generation = generation ∧ session.state = .running) ∧ version = session.version
  | .stopPtySession _ generation, version =>
    ∃ session, tables.ptySession[route.aggregateId]? = some session ∧
      (session.generation = generation ∧
        (session.state = .running ∨ session.state = .stopping)) ∧ version = session.version
  | .requestPtySessionStart name _, version =>
    (∃ template, tables.ptySessionTemplate[name]? = some template ∧ template.active = true) ∧
      version = 0
  | _, _ => False

theorem decide_eq_ok_iff_accepts (control : command.receiptedPty = true) :
    decide db envelope command route = .ok version ↔
      Accepts db.tables.derived route command version := by
  cases command with
  | sendPtyInput | resizePtySession | stopPtySession =>
    simp [decide, decidePtyControl_ok, Accepts]
  | requestPtySessionStart =>
    simp only [decide, activeTemplate, bind_ok, exists_unit, fetch_ok, require_ok, pure_ok, Accepts]
    constructor
    · rintro ⟨_, ⟨template, hit, active, -⟩, zero⟩
      exact ⟨⟨template, hit, active⟩, zero⟩
    · rintro ⟨⟨template, hit, active⟩, zero⟩
      exact ⟨template, ⟨template, hit, active, rfl⟩, zero⟩
  | _ => cases control

theorem applyPtySession_of_accepts (target : command.targetId envelope = some route.aggregateId)
    (accepts : Accepts tables route command want)
    (dated : pg.instant event.appendedAt = some time)
    (next : event.aggregateVersion.toNat = want.toNat + 1) :
    ∃ ptySession, applyPtySession pg event command tables.engineSession tables.ptySession =
      .ok ptySession := by
  cases command with
  | sendPtyInput | resizePtySession | stopPtySession =>
    obtain ⟨session, hit, -, rfl⟩ := accepts
    exact revise_session (some.inj target ▸ hit) dated next
  | requestPtySessionStart => exact ⟨_, rfl⟩
  | _ => exact accepts.elim

theorem applyAttention_control {items : Rows AttentionItem}
    (control : command.receiptedPty = true) :
    applyAttention pg event command items = .ok items := by
  cases command with
  | sendPtyInput | resizePtySession | stopPtySession | requestPtySessionStart => rfl
  | _ => cases control

theorem storedBody_control (control : command.receiptedPty = true) :
    storedBody pg (.command command) = some (.command command) := by
  cases command with
  | sendPtyInput | resizePtySession | stopPtySession | requestPtySessionStart => rfl
  | _ => cases control

/-! ## Landing a control -/

theorem lands_of_room (log : LogInvariant db) (delivered : Delivered db)
    (passes : Passes codec call request) (fresh : Fresh db call request)
    (control : request.command.receiptedPty = true)
    (accepts : Accepts db.tables.derived request.route request.command want)
    (dated : pg.reads call.moment.now call.envelope.issuedAt = some issued)
    (room : Room codec db call request want) :
    ∃ row tables, Lands pg codec db call request want row tables := by
  obtain ⟨-, target, -, -⟩ := routeOf_ok.mp passes.routed
  obtain ⟨row, inserts⟩ :=
    exists_inserts log passes fresh (storedBody_control control) dated room
  have version : row.aggregateVersion.toNat = want.toNat + 1 := by
    rw [inserts.version, toNat_succ room.below]
  obtain ⟨ptySession, applies⟩ :=
    applyPtySession_of_accepts target accepts inserts.appended version
  have projected := inserts.isEvent.applyEvent_ok.mpr
    ⟨_, _, applyDerived_control control applies, applyAttention_control control, rfl⟩
  exact ⟨row, _, room.agreed, room.below, room.fits, room.current, inserts.inserted,
    room.sequenced, projected, fun _ => delivered.indexesFree fresh control inserts.free⟩

/-! ## The receipt of a control -/

/-- A PTY control on an unused key that the authority gate allows. -/
structure Controlling (pg : Postgres) (codec : Codec) (db : Db) (call : Call) (request : Request)
    (actionClass basis : String) : Prop where
  passes : Passes codec call request
  admits : Admits db call request
  fresh : Fresh db call request
  control : request.command.receiptedPty = true
  allowed : authorityDecision pg db call request = .ok (.allow actionClass basis)

/-- The basis a control is attested with, given the decision on it. -/
def attestedBasis (basis : String) : Except Refusal UInt32 → String
  | .ok _ => basis
  | .error refusal => refusedBasis basis refusal

theorem attestedBasis_cases (basis : String) (decision : Except Refusal UInt32) :
    attestedBasis basis decision = basis ∨
      ∃ refusal, attestedBasis basis decision = refusedBasis basis refusal := by
  cases decision with
  | ok _ => exact .inl rfl
  | error refusal => exact .inr ⟨refusal, rfl⟩

def controlReceipt (db : Db) (call : Call) (request : Request) (actionClass basis : String) :
    ReceiptEntity :=
  receiptFor call.envelope request.route request.command actionClass
    (attestedBasis basis (decide db call.envelope request.command request.route))

/-- A call leaves a receipt under its project and key, which records that it was applied or
that it was refused, and touches no other. -/
structure Receipted (pg : Postgres) (codec : Codec) (db : Db) (call : Call) (request : Request)
    (actionClass basis : String) : Prop where
  written : ∃ ts text, pg.reads call.moment.now call.envelope.issuedAt = some ts ∧
    (text = basis ∨ ∃ refusal, text = refusedBasis basis refusal) ∧
    (submit pg codec db call).2.receipts[receiptId call.envelope.projectId
      call.envelope.idempotencyKey]? =
        some ((receiptFor call.envelope request.route request.command actionClass text).row ts)
  others : ∀ id ≠ receiptId call.envelope.projectId call.envelope.idempotencyKey,
    (submit pg codec db call).2.receipts[id]? = db.receipts[id]?

section

variable (controlling : Controlling pg codec db call request actionClass basis)
include controlling

theorem Controlling.step_iff : Step pg codec db call request committed ↔
      ∃ receipts, writeReceipt (pg.asOf call.moment.now)
        (controlReceipt db call request actionClass basis) db.receipts =
          .ok receipts ∧
        ((∃ refusal, decide db call.envelope request.command request.route = .error refusal ∧
            committed = ⟨{ db with receipts }, .error refusal⟩) ∨
          ∃ want row tables,
            decide db call.envelope request.command request.route = .ok want ∧
            Lands pg codec { db with receipts } call request want row tables ∧
            committed =
              ⟨landing pg codec { db with receipts } call request row tables, .ok [row]⟩) := by
  constructor
  · intro step
    cases step with
    | replayed _ prior _ =>
      rw [priorForKey_eq_unused_iff.mpr controlling.fresh.unused] at prior
      cases prior
    | refusedInput invalid _ => simp [controlling.fresh.valid] at invalid
    | paged _ decided _ _ =>
      rw [controlling.allowed] at decided
      cases decided
    | refusedControl _ _ decided refused attested =>
      rw [controlling.allowed] at decided
      cases decided
      refine ⟨_, ?_, .inl ⟨_, refused, rfl⟩⟩
      simp only [controlReceipt, refused, attestedBasis]
      exact attested
    | landed _ decided _ _ attested _ accepted lands =>
      rw [controlling.allowed] at decided
      cases decided
      refine ⟨_, ?_, .inr ⟨_, _, _, accepted, lands, rfl⟩⟩
      simp only [controlReceipt, accepted, attestedBasis]
      exact attested
  · rintro ⟨receipts, attested, ⟨refusal, refused, rfl⟩ |
      ⟨want, row, tables, accepted, lands, rfl⟩⟩
    · simp only [controlReceipt, refused, attestedBasis] at attested
      exact .refusedControl controlling.fresh controlling.control controlling.allowed refused
        attested
    · simp only [controlReceipt, accepted, attestedBasis] at attested
      exact .landed controlling.fresh controlling.allowed nofun nofun attested
        (checkAttentionDedup_of_receiptedPty controlling.control) accepted lands

theorem Controlling.receipted (step : Step pg codec db call request committed) :
    Receipted pg codec db call request actionClass basis := by
  have submits := submit_of_step controlling.passes controlling.admits step
  obtain ⟨receipts, attested, outcome⟩ := controlling.step_iff.mp step
  have leaves : (submit pg codec db call).2.receipts = receipts := by
    rw [submits]
    rcases outcome with ⟨refusal, -, rfl⟩ | ⟨want, row, tables, -, -, rfl⟩
    · rfl
    · exact landing_receipts
  constructor
  · obtain ⟨ts, dated, hit⟩ := getElem?_of_writeReceipt attested
    rw [leaves]
    exact ⟨ts, _, dated, attestedBasis_cases basis
      (decide db call.envelope request.command request.route), hit⟩
  · rw [leaves]
    exact fun id other => getElem?_of_ne_of_writeReceipt attested other

end

/-- **When a control is receipted.**  After every history, an allowed control under an unused
key leaves its receipt exactly when the receipt is there already, or its timestamp is one
and there is room for it to land where its session or template would accept it. -/
theorem submit_receipts_iff (init : Initialised pg codec initial)
    (calls : List Call) (isAfter : db = after pg codec initial calls)
    (controlling : Controlling pg codec db call request actionClass basis)
    (unopposed : ∀ stored ∈
      db.receipts[receiptId call.envelope.projectId call.envelope.idempotencyKey]?,
      ∃ ts, pg.reads call.moment.now call.envelope.issuedAt = some ts ∧
        stored = (controlReceipt db call request actionClass basis).row ts) :
    Receipted pg codec db call request actionClass basis ↔
      (db.receipts[receiptId call.envelope.projectId call.envelope.idempotencyKey]?).isSome ∨
        ∃ ts, pg.reads call.moment.now call.envelope.issuedAt = some ts ∧
          ∀ want, Accepts db.tables.derived request.route request.command want →
            Room codec db call request want := by
  constructor
  · rintro ⟨⟨ts, text, dated, -, written⟩, -⟩
    rcases submit_cases db call with
      ⟨refusal, eq⟩ | ⟨other, committed, passes, -, step, -⟩
    · rw [eq] at written
      exact .inl (isSome_of_eq_some written)
    · obtain rfl : request = other := controlling.passes.unique passes
      refine .inr ⟨ts, dated, fun want accepts => ?_⟩
      have accepted : decide db call.envelope request.command request.route = .ok want :=
        (decide_eq_ok_iff_accepts controlling.control).mpr accepts
      obtain ⟨receipts, -, ⟨refusal, refused, -⟩ | ⟨hit, row, tables, decided, lands, -⟩⟩ :=
        controlling.step_iff.mp step
      · rw [accepted] at refused
        cases refused
      · rw [accepted, Except.ok.injEq] at decided
        exact decided ▸ lands.room
  · rintro (there | ⟨ts, dated, roomy⟩)
    · rcases submit_cases db call with
        ⟨refusal, eq⟩ | ⟨other, committed, passes, -, step, -⟩
      · -- rolled back, but the receipt was there before the call
        obtain ⟨stored, hit⟩ := isSome_iff_exists.mp there
        obtain ⟨ts, dated, rfl⟩ := unopposed stored hit
        refine ⟨⟨ts, _, dated, attestedBasis_cases basis
          (decide db call.envelope request.command request.route), ?_⟩, ?_⟩
        · rw [eq]
          exact hit
        · rw [eq]
          exact fun _ _ => rfl
      · obtain rfl : request = other := controlling.passes.unique passes
        exact controlling.receipted step
    · have free : ∀ stored ∈ db.receipts[(controlReceipt db call request actionClass basis).id]?,
          stored = (controlReceipt db call request actionClass basis).row ts := by
        intro stored hit
        obtain ⟨datedAt, parsed, rfl⟩ := unopposed stored hit
        rw [dated, Option.some.injEq] at parsed
        rw [parsed]
      have datedNow : (pg.asOf call.moment.now).instant
          (controlReceipt db call request actionClass basis).ts = some ts := dated
      obtain ⟨receipts, attested, -⟩ := writeReceipt_of_free datedNow free
      cases decided : decide db call.envelope request.command request.route with
      | error refusal =>
        exact controlling.receipted
          (controlling.step_iff.mpr ⟨receipts, attested, .inl ⟨refusal, decided, rfl⟩⟩)
      | ok want =>
        have log : LogInvariant db := isAfter ▸ after_logInvariant init calls
        have delivered : Delivered db := isAfter ▸ after_delivered init calls
        have accepts := (decide_eq_ok_iff_accepts controlling.control).mp decided
        obtain ⟨row, tables, lands⟩ := lands_of_room log delivered controlling.passes
          controlling.fresh controlling.control accepts dated (roomy want accepts)
        exact controlling.receipted (controlling.step_iff.mpr ⟨receipts, attested,
          .inr ⟨want, row, tables, decided, lands.withReceipts receipts, rfl⟩⟩)

open Sample in
theorem submit_receipts_start :
    Receipted postgres Sample.codec (ran [activate, declared])
      (start none) starting PTY_START_ACTION_CLASS OPERATOR_BASIS := by
  have controlling : Controlling postgres Sample.codec
      (ran [activate, declared]) (start none) starting
      PTY_START_ACTION_CLASS OPERATOR_BASIS :=
    ⟨⟨rfl, rfl, rfl, rfl, rfl, rfl, rfl, rfl, rfl, rfl⟩, ⟨rfl, rfl, rfl⟩,
      ⟨rfl, by decide, by decide, by decide, rfl⟩, rfl, rfl⟩
  refine (submit_receipts_iff init _ rfl controlling ?_).mpr (.inr ⟨1, rfl, ?_⟩)
  · intro stored hit
    cases hit
  · rintro want ⟨-, rfl⟩
    exact ⟨nofun, by decide, by decide, by decide, by decide⟩

open Sample in
/-- The same start, with an `expected_version` that the new aggregate is not at: it is
refused, and nothing is receipted. -/
theorem submit_receipts_mismatch :
    Controlling postgres Sample.codec (ran [activate, declared])
        (start (some 5)) starting PTY_START_ACTION_CLASS OPERATOR_BASIS ∧
      (ran [activate, declared]).receipts[receiptId "p" "k1"]? = none ∧
      (submit postgres Sample.codec (ran [activate, declared])
        (start (some 5))).1 = .error (staleVersion 0 5) ∧
      ¬ Receipted postgres Sample.codec (ran [activate, declared])
        (start (some 5)) starting PTY_START_ACTION_CLASS OPERATOR_BASIS := by
  refine ⟨⟨⟨rfl, rfl, rfl, rfl, rfl, rfl, rfl, rfl, rfl, rfl⟩, ⟨rfl, rfl, rfl⟩,
    ⟨rfl, by decide, by decide, by decide, rfl⟩, rfl, rfl⟩, by decide, rfl, ?_⟩
  rintro ⟨⟨ts, text, -, -, written⟩, -⟩
  cases written

end Gridwork.Kernel
