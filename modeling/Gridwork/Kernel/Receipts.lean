import Gridwork.Kernel.Ownership
import Gridwork.Lib.Text

/-!
# Receipts of gated commands

A command with a risk class lands only after its allowing receipt is written, and a
refusal that commits writes a receipt that records it.  Both go under an id made of the
project and the key, and a receipt once written stays as it is, so a refusal closes its
key to gated commands for good.

The id joins its parts with colons and two pairs may share one.  Two gated events do not:
a shared receipt has one subject, the subject has one owner, and a project uses a key
once.
-/

namespace Gridwork.Kernel

open Domain Lib List Option String

variable {pg : Postgres} {codec : Codec} {decision : Decision} {envelope : CommandEnvelope}
  {actionClass basis subject text : String} {request : Request} {call : Call} {db initial : Db}
  {refusal : Refusal} {projectId : ProjectId}

/-! ## The answers of the gate -/

def ALLOW_BASES : List String := [OPERATOR_BASIS, MATCHING_GRANT_BASIS]

def PAGE_BASES : List String := [UNGRANTED_BASIS, ACTOR_KIND_BASIS]

def KernelCommand.riskClass (command : KernelCommand) : Option String :=
  classOf (classificationKey command.commandType command)

variable {command kept : KernelCommand}

theorem evaluateClass_cases {grants : Rows AuthorityGrant} {clock : Instant}
    (decided : evaluateClass pg grants envelope actionClass subject clock = .ok decision) :
    (∃ basis ∈ ALLOW_BASES, decision = .allow actionClass basis) ∨
      ∃ basis ∈ PAGE_BASES, decision = .page actionClass basis := by
  unfold evaluateClass at decided
  split at decided
  · cases decided
    exact .inl ⟨_, by decide, rfl⟩
  · split at decided
    · cases decided
      exact .inr ⟨_, by decide, rfl⟩
    · obtain ⟨allowed, -, rfl⟩ := map_ok.mp decided
      cases allowed with
      | true => exact .inl ⟨MATCHING_GRANT_BASIS, by decide, rfl⟩
      | false => exact .inr ⟨UNGRANTED_BASIS, by decide, rfl⟩

theorem commandType_of_decoded (decoded : KernelCommand.fromEnvelope envelope = .ok command) :
    envelope.payload = .ok command ∧ envelope.commandType = command.commandType := by
  unfold KernelCommand.fromEnvelope at decoded
  split at decoded
  · cases decoded
  · split at decoded
    next payload eq =>
      cases decoded
      exact ⟨payload, eq⟩
    next => cases decoded

theorem authorityDecision_cases (passes : Passes codec call request)
    (decided : authorityDecision pg db call request = .ok decision) :
    request.command.riskClass = none ∧ decision = .unclassified ∨
      ∃ actionClass, request.command.riskClass = some actionClass ∧
        ((∃ basis ∈ ALLOW_BASES, decision = .allow actionClass basis) ∨
          ∃ basis ∈ PAGE_BASES, decision = .page actionClass basis) := by
  obtain ⟨-, sameType⟩ := commandType_of_decoded passes.decoded
  simp only [authorityDecision, evaluate, sameType] at decided
  split at decided
  next unclassified =>
    cases decided
    exact .inl ⟨unclassified, rfl⟩
  next actionClass classified => exact .inr ⟨actionClass, classified, evaluateClass_cases decided⟩

/-! ## The texts of the bases -/

def basisDetail : KernelCommand → String
  | .sendPtyInput _ _ byteCount => "; byte_count=" ++ toString byteCount
  | .resizePtySession _ _ cols rows => "; cols=" ++ (toString cols ++ "; rows=" ++ toString rows)
  | .stopPtySession .. => "; stop=true"
  | .requestPtySessionStart templateName _ => "; template=" ++ templateName
  | _ => ""

theorem observedBasis_eq (basis : String) (command : KernelCommand) :
    observedBasis basis command = basis ++ basisDetail command := by
  cases command with
  | sendPtyInput => exact String.append_assoc
  | resizePtySession _ _ cols rows =>
    show basis ++ "; cols=" ++ toString cols ++ "; rows=" ++ toString rows = _
    simp only [basisDetail, String.append_assoc]
  | stopPtySession => rfl
  | requestPtySessionStart => exact String.append_assoc
  | _ => exact String.append_empty.symm

theorem refusedBasis_eq (basis : String) (refusal : Refusal) :
    refusedBasis basis refusal = basis ++ ("; refused=" ++ refusal.code.asStr) :=
  append_assoc

/-- A basis is an allow basis with a detail of its command, or not one at all. -/
def RecordsAllow (text : String) : Prop :=
  ∃ basis ∈ ALLOW_BASES, ∃ command, text = observedBasis basis command

theorem page_not_recordsAllow (isPage : basis ∈ PAGE_BASES) (command : KernelCommand) :
    ¬ RecordsAllow (observedBasis basis command) := by
  rintro ⟨allowed, isAllow, other, eq⟩
  rw [observedBasis_eq, observedBasis_eq] at eq
  simp only [PAGE_BASES, ALLOW_BASES, mem_cons, not_mem_nil, or_false] at isPage isAllow
  rcases isPage with rfl | rfl <;> rcases isAllow with rfl | rfl <;>
    exact append_ne_append (by decide) (by decide) eq

theorem basisDetail_ne_refused (command : KernelCommand) (rest : String) :
    basisDetail command ≠ "; refused=" ++ rest := by
  cases command with
  | sendPtyInput | resizePtySession | requestPtySessionStart =>
    exact append_ne_append (by decide) (by decide)
  | stopPtySession =>
    have apart : "; stop=true" ++ "" ≠ "; refused=" ++ rest :=
      append_ne_append (by decide) (by decide)
    simpa [basisDetail] using apart
  | _ =>
    intro eq
    have lengths := congrArg (·.toList.length) eq
    simp [basisDetail, toList_append] at lengths

theorem refused_not_recordsAllow (known : basis = "request validation" ∨ basis ∈ ALLOW_BASES)
    (refusal : Refusal) (command : KernelCommand) :
    ¬ RecordsAllow (observedBasis (refusedBasis basis refusal) command) := by
  rintro ⟨allowed, isAllow, other, eq⟩
  have opened : refusedBasis basis refusal ++ basisDetail command =
      basis ++ ("; refused=" ++ (refusal.code.asStr ++ basisDetail command)) := by
    simp only [refusedBasis_eq, String.append_assoc]
  rw [observedBasis_eq, observedBasis_eq, opened] at eq
  by_cases sameBasis : basis = allowed
  · rw [sameBasis, String.append_right_inj] at eq
    exact basisDetail_ne_refused other _ eq.symm
  · simp only [ALLOW_BASES, mem_cons, not_mem_nil, or_false] at known isAllow
    rcases known with rfl | rfl | rfl <;> rcases isAllow with rfl | rfl <;> first
      | exact sameBasis rfl
      | exact append_ne_append (by decide) (by decide) eq

theorem allow_ne_refusedBasis (isAllow : basis ∈ ALLOW_BASES) (other : String) (refusal : Refusal) :
    basis ≠ refusedBasis other refusal := by
  intro eq
  have inside : ';' ∈ (refusedBasis other refusal).toList := by
    simp [refusedBasis_eq, toList_append]
  rw [← eq] at inside
  simp only [ALLOW_BASES, mem_cons, not_mem_nil, or_false] at isAllow
  rcases isAllow with rfl | rfl
  · exact absurd inside (by decide)
  · exact absurd inside (by decide)

/-! ## Receipts stay -/

theorem keeps_of_attests {result : Option (String × String)} {before after : Rows Receipt}
    (attests : Attests pg call request result before after) :
    Keeps before after := by
  cases result with
  | none =>
    cases attests
    exact fun _ _ hit => hit
  | some named => exact keeps_of_writeReceipt attests

theorem Step.keeps {committed : Committed} (step : Step pg codec db call request committed) :
    Keeps db.receipts committed.db.receipts := by
  cases step with
  | replayed => exact fun _ _ hit => hit
  | refusedInput _ attested | paged _ _ attested _ => exact keeps_of_writeReceipt attested
  | refusedControl _ _ _ _ attested => exact keeps_of_writeReceipt attested
  | landed _ _ _ _ attested _ _ _ =>
    simp only [landing_receipts]
    exact keeps_of_attests attested

/-- **No call changes or drops a receipt.** -/
theorem after_keeps (db : Db) (calls : List Call) :
    Keeps db.receipts (after pg codec db calls).receipts := by
  refine after_induction (fun later => Keeps db.receipts later.receipts)
    (fun _ _ hit => hit) ?_ calls
  intro before call request committed holds passes admits step id receipt hit
  exact step.keeps id receipt (holds id receipt hit)

/-! ## A gated event has its receipt -/

structure Allowed (event : Event) (command : KernelCommand) (actionClass : String)
    (receipt : Receipt) : Prop where
  actor : receipt.actor = event.actor
  action : receipt.action = actionClass
  subjectType : receipt.subjectType = event.aggregateType
  subjectId : receipt.subjectId = event.aggregateId
  basis : ∃ basis ∈ ALLOW_BASES, receipt.observedBasis = some (observedBasis basis command)
  unrefused : ∀ other refusal,
    receipt.observedBasis ≠ some (observedBasis (refusedBasis other refusal) command)

/-- The event of a gated command is matched by the receipt of its project and key. -/
def Attested (db : Db) : Prop :=
  ∀ event ∈ db.events, ∀ command actionClass, event.payload = .command command →
    command.riskClass = some actionClass →
    ∃ key receipt, event.idempotencyKey = some key ∧
      db.receipts[receiptId event.projectId key]? = some receipt ∧
      Allowed event command actionClass receipt

theorem Stores.riskClass_eq (stores : Stores pg command kept) :
    kept.riskClass = command.riskClass := by
  cases stores with
  | eq | message | record => rfl

theorem Stores.observedBasis_eq (stores : Stores pg command kept)
    (basis : String) : observedBasis basis kept = observedBasis basis command := by
  cases stores with
  | eq | message | record => rfl

theorem allowed_of_landing {receipts : Rows Receipt} {expected : UInt32} {row : Event}
    (passes : Passes codec call request)
    (decided : authorityDecision pg db call request = .ok decision)
    (allowed : ∀ actionClass basis, decision ≠ .page actionClass basis)
    (attested : Attests pg call request decision.result db.receipts receipts)
    (made : Made pg { db with receipts } call request expected row kept)
    (gated : kept.riskClass = some actionClass) :
    ∃ receipt, receipts[receiptId call.envelope.projectId call.envelope.idempotencyKey]? =
      some receipt ∧ Allowed row kept actionClass receipt := by
  rw [made.stores.riskClass_eq] at gated
  rcases authorityDecision_cases passes decided with
    ⟨ungated, -⟩ | ⟨named, classified, ⟨basis, isAllow, rfl⟩ | ⟨basis, -, rfl⟩⟩
  · rw [ungated] at gated
    cases gated
  · rw [classified, some.injEq] at gated
    subst gated
    obtain ⟨ts, -, hit⟩ := getElem?_of_writeReceipt attested
    refine ⟨_, hit, ?_⟩
    obtain ⟨occurred, -, rfl⟩ := made.isRow
    have texts := made.stores.observedBasis_eq
    refine ⟨rfl, rfl, rfl, rfl, ⟨basis, isAllow, ?_⟩, ?_⟩
    · rw [texts]
      rfl
    · intro other refusal eq
      have sameText : observedBasis basis request.command =
          observedBasis (refusedBasis other refusal) request.command := by
        rw [texts] at eq
        exact some.inj eq
      rw [Kernel.observedBasis_eq, Kernel.observedBasis_eq, String.append_left_inj] at sameText
      exact allow_ne_refusedBasis isAllow other refusal sameText
  · exact absurd rfl (allowed _ _)

/-- **In every history a gated event has its receipt.** -/
theorem after_attested (init : Initialised pg codec initial)
    (calls : List Call) : Attested (after pg codec initial calls) := by
  obtain ⟨genesis, opened⟩ := init.opened
  refine after_induction Attested ?_ ?_ calls
  · intro event mem command actionClass isCommand gated
    rw [opened.events, mem_singleton] at mem
    obtain ⟨revision, payload⟩ := opened.isGenesis.payload
    rw [mem, payload] at isCommand
    cases isCommand
  · intro db call request committed holds passes admits step
    -- what an earlier event has, it keeps
    have prior (event : Event) (mem : event ∈ db.events) (command : KernelCommand)
        (actionClass : String) (isCommand : event.payload = .command command)
        (gated : command.riskClass = some actionClass) :
        ∃ key receipt, event.idempotencyKey = some key ∧
          committed.db.receipts[receiptId event.projectId key]? = some receipt ∧
          Allowed event command actionClass receipt := by
      obtain ⟨key, receipt, keyed, hit, allowed⟩ :=
        holds event mem command actionClass isCommand gated
      exact ⟨key, receipt, keyed, step.keeps _ _ hit, allowed⟩
    cases step with
    | replayed | refusedInput | paged | refusedControl => exact prior
    | landed _ decided allowed _ attested _ _ lands =>
      obtain ⟨kept, made⟩ := lands.made
      intro event mem command actionClass isCommand gated
      rw [landing_events, mem_snoc] at mem
      rcases mem with before | rfl
      · exact prior event before command actionClass isCommand gated
      · rw [made.payload, EventBody.command.injEq] at isCommand
        subst isCommand
        obtain ⟨receipt, hit, matched⟩ :=
          allowed_of_landing passes decided allowed attested made gated
        refine ⟨_, receipt, made.key, ?_, matched⟩
        rw [made.projectId, landing_receipts]
        exact hit

/-! ## A committed refusal -/

/-- A call is refused and the refusal commits: a page, or a receipted refusal. -/
def Refuses (pg : Postgres) (codec : Codec) (db : Db) (call : Call) (request : Request) : Prop :=
  preflight codec call = .ok request ∧
    ∃ refused refusal, transact pg codec db call request = .ok ⟨refused, .error refusal⟩

theorem isPtyInput_of_refusal (passes : Passes codec call request)
    (invalid : request.refusal = some refusal) :
    request.command.isPtyInput = true := by
  have carrier := passes.carrier
  unfold checkCarrier at carrier
  split at carrier
  next isInput => exact isInput
  next =>
    obtain ⟨-, -, none⟩ := map_ok.mp carrier
    rw [invalid] at none
    cases none

theorem riskClass_of_isPtyInput (isInput : command.isPtyInput = true) :
    command.riskClass = some PTY_INPUT_ACTION_CLASS := by
  cases command with
  | sendPtyInput => rfl
  | _ => cases isInput

theorem Step.refused {refused : Db} (passes : Passes codec call request)
    (step : Step pg codec db call request ⟨refused, .error refusal⟩) :
    request.command.riskClass.isSome ∧ ∃ receipt text,
      refused.receipts[receiptId call.envelope.projectId call.envelope.idempotencyKey]? =
        some receipt ∧ receipt.observedBasis = some text ∧ ¬ RecordsAllow text := by
  cases step with
  | refusedInput invalid attested =>
    obtain ⟨ts, -, hit⟩ := getElem?_of_writeReceipt attested
    rw [riskClass_of_isPtyInput (isPtyInput_of_refusal passes invalid)]
    exact ⟨rfl, _, _, hit, rfl, refused_not_recordsAllow (.inl rfl) refusal request.command⟩
  | paged _ decided attested _ =>
    obtain ⟨ts, -, hit⟩ := getElem?_of_writeReceipt attested
    rcases authorityDecision_cases passes decided with
      ⟨-, ⟨⟩⟩ | ⟨_, classified, ⟨_, -, ⟨⟩⟩ | ⟨_, isPage, ⟨⟩⟩⟩
    rw [classified]
    exact ⟨rfl, _, _, hit, rfl, page_not_recordsAllow isPage request.command⟩
  | refusedControl _ _ decided _ attested =>
    obtain ⟨ts, -, hit⟩ := getElem?_of_writeReceipt attested
    rcases authorityDecision_cases passes decided with
      ⟨-, ⟨⟩⟩ | ⟨_, classified, ⟨_, isAllow, ⟨⟩⟩ | ⟨_, -, ⟨⟩⟩⟩
    rw [classified]
    exact ⟨rfl, _, _, hit, rfl, refused_not_recordsAllow (.inr isAllow) refusal request.command⟩

variable {event : Event}

theorem Attested.barred (attested : Attested db) {key : IdempotencyKey} {receipt : Receipt}
    (hit : db.receipts[receiptId projectId key]? = some receipt)
    (observed : receipt.observedBasis = some text) (barring : ¬ RecordsAllow text)
    (mem : event ∈ db.events) (ofProject : event.projectId = projectId)
    (underKey : event.idempotencyKey = some key) (isCommand : event.payload = .command command) :
    command.riskClass = none := by
  cases gated : command.riskClass with
  | none => rfl
  | some actionClass =>
    obtain ⟨_, stored, keyed, there, allowed⟩ :=
      attested event mem command actionClass isCommand gated
    rw [underKey, some.injEq] at keyed
    rw [ofProject, ← keyed, hit, some.injEq] at there
    subst there
    obtain ⟨basis, isAllow, records⟩ := allowed.basis
    rw [observed, some.injEq] at records
    exact absurd ⟨basis, isAllow, command, records⟩ barring

/-! ## Receipts are not shared -/

def Gated (event : Event) : Prop :=
  ∃ command, event.payload = .command command ∧ command.riskClass.isSome

def Event.receiptId (event : Event) : Option ReceiptId :=
  event.idempotencyKey.map (Kernel.receiptId event.projectId)

/-- A receipt has one subject, so two gated events with one receipt have one owner and with
it one key. -/
theorem eq_of_receiptId (log : LogInvariant db) (owned : OneOwner db.events)
    (attested : Attested db) {other : Event} (mem : event ∈ db.events)
    (otherMember : other ∈ db.events) (gated : Gated event) (otherGated : Gated other)
    (eq : event.receiptId = other.receiptId) : event = other := by
  obtain ⟨command, isCommand, hasClass⟩ := gated
  obtain ⟨otherCommand, otherIsCommand, otherHasClass⟩ := otherGated
  obtain ⟨actionClass, classified⟩ := isSome_iff_exists.mp hasClass
  obtain ⟨otherClass, otherClassified⟩ := isSome_iff_exists.mp otherHasClass
  obtain ⟨key, receipt, keyed, hit, allowed⟩ :=
    attested event mem command actionClass isCommand classified
  obtain ⟨otherKey, otherReceipt, otherKeyed, otherFound, otherAllowed⟩ :=
    attested other otherMember otherCommand otherClass otherIsCommand otherClassified
  simp only [Event.receiptId, keyed, otherKeyed, map_some, some.injEq] at eq
  rw [eq, otherFound, some.injEq] at hit
  subst hit
  have sameAggregate : event.aggregate = other.aggregate := Prod.ext
    (allowed.subjectType.symm.trans otherAllowed.subjectType)
    (allowed.subjectId.symm.trans otherAllowed.subjectId)
  have sameProject := owned.projectId_eq mem otherMember sameAggregate
  rw [sameProject] at eq
  have sameKey : key = otherKey := (String.append_right_inj _).mp eq
  exact log.eq_of_key mem otherMember keyed (sameKey ▸ otherKeyed) (.inl sameProject)

/-! ## Histories -/

/-- **No gated effect without an allowing receipt.**  In every history a gated event has the
receipt of its project and key, which allows it and nothing else; a receipt stays as it is;
after a refusal that commits, its key stays closed to gated commands; and two gated events
have two receipts. -/
theorem after_receipts (init : Initialised pg codec initial) (calls : List Call) :
    Attested (after pg codec initial calls) ∧ (∀ more, Keeps (after pg codec initial calls).receipts
        (after pg codec initial (calls ++ more)).receipts) ∧
      (∀ call request, Refuses pg codec (after pg codec initial calls) call request →
        request.command.riskClass.isSome ∧
        ∀ more, ∀ event ∈ (after pg codec initial (calls ++ call :: more)).events,
          event.projectId = call.envelope.projectId →
          event.idempotencyKey = some call.envelope.idempotencyKey → ¬ Gated event) ∧
      ∀ event ∈ (after pg codec initial calls).events,
        ∀ other ∈ (after pg codec initial calls).events, Gated event → Gated other →
          event.receiptId = other.receiptId → event = other := by
  refine ⟨after_attested init calls, ?_, ?_, ?_⟩
  · intro more
    rw [after_append]
    exact after_keeps _ more
  · rintro call request ⟨preflighted, refused, refusal, commits⟩
    have passes := preflight_ok.mp preflighted
    obtain ⟨classified, receipt, text, hit, observed, barring⟩ :=
      (transact_ok.mp commits).2.refused passes
    refine ⟨classified, ?_⟩
    rintro more event mem ofProject underKey ⟨command, isCommand, gated⟩
    have leaves : (submit pg codec (after pg codec initial calls) call).2 = refused := by
      rw [submit_of_ok (bind_ok.mpr ⟨request, preflighted, commits⟩)]
    have later : after pg codec initial (calls ++ call :: more) = after pg codec refused more := by
      rw [after_append, ← leaves]
      rfl
    have attested := after_attested init (calls ++ call :: more)
    rw [later] at attested mem
    rw [attested.barred (after_keeps refused more _ _ hit) observed barring mem ofProject
      underKey isCommand] at gated
    cases gated
  · intro event mem other otherMember
    exact eq_of_receiptId (after_logInvariant init calls) (after_oneOwner init calls)
      (after_attested init calls) mem otherMember

open Sample in
/-- A template is declared, and a stop under the key `k1` is paged. -/
theorem after_receipts_declared :
    (∃ event ∈ (ran [activate, declared]).events, Gated event) ∧
      Refuses postgres Sample.codec (ran [activate, declared])
        (ungranted "k1") stopping ∧
      Attested (ran [activate, declared]) ∧
      ∀ more, ∀ event ∈
          (ran ([activate, declared] ++ ungranted "k1" :: more)).events,
        event.projectId = "p" → event.idempotencyKey = some "k1" → ¬ Gated event := by
  have refuses : Refuses postgres Sample.codec
      (ran [activate, declared]) (ungranted "k1") stopping :=
    ⟨rfl, _, _, rfl⟩
  obtain ⟨attested, -, closed, -⟩ :=
    after_receipts init [activate, declared]
  exact ⟨⟨_, getLast_mem (by decide), _, rfl, rfl⟩, refuses, attested, (closed _ _ refuses).2⟩

end Gridwork.Kernel
