import Gridwork.Kernel.Attention
import Gridwork.Kernel.History

/-!
# Pages

A gated command without a grant is refused, and the refusal is meant to leave a receipt
and an open item for the operator.  The item's id is derived from the action class and the
subject, so a second page about a subject whose item was resolved asks for an id that is
taken, and the whole transaction is rolled back.  `submit_pages_iff` says exactly when a
page reaches the operator.
-/

namespace Gridwork.Kernel

open Domain Lib Option

/-- A call on a fresh key that the authority gate answers with a page. -/
structure Paging (pg : Postgres) (codec : Codec) (db : Db) (call : Call) (request : Request)
    (actionClass basis : String) : Prop where
  passes : Passes codec call request
  admits : Admits db call request
  fresh : Fresh db call request
  decided : authorityDecision pg db call request = .ok (.page actionClass basis)

/-- A call's page reached the operator: an authority refusal, no event, the receipt of the
command, and an open item about its target. -/
structure Reached (pg : Postgres) (codec : Codec) (db : Db) (call : Call) (request : Request)
    (actionClass basis : String) : Prop where
  answer : (submit pg codec db call).1 =
    .error (pageRefusal call.envelope request.route actionClass)
  silent : (submit pg codec db call).2.events = db.events
  receipted : ∃ ts, pg.reads call.moment.now call.envelope.issuedAt = some ts ∧
    (submit pg codec db call).2.receipts[receiptId call.envelope.projectId
      call.envelope.idempotencyKey]? =
        some ((receiptFor call.envelope request.route request.command actionClass basis).row ts)
  raised : ∃ (id : String) (item : AttentionItem),
    (submit pg codec db call).2.tables.attention[id]? = some item ∧
      item.opens PAGE_KIND (pageSubject request.route) = true

variable {pg : Postgres} {codec : Codec} {db : Db} {call : Call} {request : Request}
  {actionClass basis kind subject id summary : String} {items : Rows AttentionItem}

theorem unresolvedAttention_isSome_iff : (unresolvedAttention items kind (some subject)).isSome ↔
      ∃ (id : String) (item : AttentionItem), items[id]? = some item ∧
        item.opens kind subject = true := by
  rw [← not_iff_not, not_isSome_iff_eq_none, unresolvedAttention_none]
  simp only [not_exists, not_and, Bool.not_eq_true]

theorem pageAttention_of_free {raisedBy : Actor} {time : Timestamp}
    {raisedAt : Instant} (dated : pg.instant time = some raisedAt)
    (reachable : (unresolvedAttention items PAGE_KIND (some subject)).isSome ∨ items[id]? = none) :
    ∃ result, pageAttention pg id summary subject raisedBy time items = .ok result ∧
      ∃ (named : String) (item : AttentionItem), result[named]? = some item ∧
        item.opens PAGE_KIND subject = true := by
  cases covered : unresolvedAttention items PAGE_KIND (some subject) with
  | some openItem =>
    have isSome : (unresolvedAttention items PAGE_KIND (some subject)).isSome := by
      rw [covered]
      rfl
    exact ⟨items, pageAttention_ok.mpr ⟨raisedAt, dated, .inl ⟨isSome, rfl⟩⟩,
      unresolvedAttention_isSome_iff.mp isSome⟩
  | none =>
    have free : items[id]? = none := by simpa [covered] using reachable
    refine ⟨_, pageAttention_ok.mpr ⟨raisedAt, dated, .inr ⟨covered, free, rfl⟩⟩, id, ?_⟩
    refine ⟨_, by rw [Rows.getElem?_insert_eq, if_pos rfl], ?_⟩
    simp [AttentionItem.opens]

theorem Paging.step_iff {committed : Committed}
    (paging : Paging pg codec db call request actionClass basis) :
    Step pg codec db call request committed ↔
      paged pg db call request actionClass basis = .ok committed := by
  rw [paged_ok]
  constructor
  · intro step
    cases step with
    | replayed _ prior _ =>
      rw [priorForKey_eq_unused_iff.mpr paging.fresh.unused] at prior
      cases prior
    | refusedInput invalid _ => simp [paging.fresh.valid] at invalid
    | paged _ decided attested raised =>
      rw [paging.decided] at decided
      cases decided
      exact ⟨_, _, attested, raised, rfl⟩
    | refusedControl _ _ decided _ _ =>
      rw [paging.decided] at decided
      cases decided
    | landed _ decided allowed _ _ _ _ _ =>
      rw [paging.decided] at decided
      cases decided
      exact absurd rfl (allowed _ _)
  · rintro ⟨receipts, attention, attested, raised, rfl⟩
    exact .paged paging.fresh paging.decided attested raised

/-- **A page reaches the operator exactly when its timestamp is one, its receipt is new or
already there, and an item is open on its target or the id it would raise is free.** -/
theorem submit_pages_iff (paging : Paging pg codec db call request actionClass basis) :
    Reached pg codec db call request actionClass basis ↔
      ∃ ts, pg.reads call.moment.now call.envelope.issuedAt = some ts ∧
        (∀ stored ∈ db.receipts[receiptId call.envelope.projectId call.envelope.idempotencyKey]?,
          stored =
            (receiptFor call.envelope request.route request.command actionClass basis).row ts) ∧
        ((unresolvedAttention db.tables.attention PAGE_KIND
            (some (pageSubject request.route))).isSome ∨
          db.tables.attention[pageItemId actionClass request.route]? = none) := by
  constructor
  · rintro ⟨-, -, ⟨ts, dated, receipted⟩, raised⟩
    refine ⟨ts, dated, ?_⟩
    rcases submit_cases db call with
      ⟨refusal, eq⟩ | ⟨other, committed, passes, -, step, eq⟩
    · -- rolled back: what the call asked for was there before it
      rw [eq] at receipted raised
      refine ⟨?_, .inl (unresolvedAttention_isSome_iff.mpr raised)⟩
      intro stored hit
      rw [receipted, mem_some_iff] at hit
      exact hit.symm
    · obtain rfl : request = other := paging.passes.unique passes
      obtain ⟨receipts, attention, attested, pages, rfl⟩ :=
        paged_ok.mp (paging.step_iff.mp step)
      refine ⟨free_of_writeReceipt attested dated, ?_⟩
      obtain ⟨-, -, ⟨covered, -⟩ | ⟨-, free, -⟩⟩ := pageAttention_ok.mp pages
      · exact .inl covered
      · exact .inr free
  · rintro ⟨ts, dated, receipted, reachable⟩
    obtain ⟨receipts, attested, written⟩ : ∃ receipts,
        writeReceipt (pg.asOf call.moment.now)
          (receiptFor call.envelope request.route request.command actionClass basis)
          db.receipts = .ok receipts ∧
        receipts[receiptId call.envelope.projectId call.envelope.idempotencyKey]? =
          some ((receiptFor call.envelope request.route request.command actionClass basis).row
            ts) :=
      writeReceipt_of_free dated receipted
    obtain ⟨attention, pages, raised⟩ : ∃ attention,
        pageAttention (pg.asOf call.moment.now) (pageItemId actionClass request.route)
          s!"{call.envelope.commandType} requires an unexpired {actionClass} grant"
          (pageSubject request.route) call.envelope.actor call.envelope.issuedAt
          db.tables.attention = .ok attention ∧
        ∃ (id : String) (item : AttentionItem), attention[id]? = some item ∧
          item.opens PAGE_KIND (pageSubject request.route) = true :=
      pageAttention_of_free dated reachable
    have submits := submit_of_step paging.passes paging.admits
      (paging.step_iff.mpr (paged_ok.mpr ⟨receipts, attention, attested, pages, rfl⟩))
    refine ⟨?_, ?_, ⟨ts, dated, ?_⟩, ?_⟩
    · rw [submits]
      rfl
    · rw [submits]
    · rw [submits]
      exact written
    · rw [submits]
      exact raised

open Sample in
theorem submit_pages_ungranted :
    Reached postgres Sample.codec (ran [activate]) (ungranted "k1")
      stopping "stop" UNGRANTED_BASIS :=
  (submit_pages_iff ⟨⟨rfl, rfl, rfl, rfl, rfl, rfl, rfl, rfl, rfl, rfl⟩, ⟨rfl, rfl, rfl⟩,
    ⟨rfl, by decide, by decide, by decide, rfl⟩, rfl⟩).mpr
    ⟨1, rfl, by decide, .inr (by decide)⟩

open Sample in
theorem submit_pages_again :
    Paging postgres Sample.codec (ran answered) (ungranted "k3")
        stopping "stop" UNGRANTED_BASIS ∧
      (submit postgres Sample.codec (ran answered)
        (ungranted "k3")).1 = .error (.db "page attention" "primary key") ∧
      ¬ Reached postgres Sample.codec (ran answered) (ungranted "k3")
        stopping "stop" UNGRANTED_BASIS := by
  refine ⟨⟨⟨rfl, rfl, rfl, rfl, rfl, rfl, rfl, rfl, rfl, rfl⟩, ⟨rfl, rfl, rfl⟩,
    ⟨rfl, by decide, by decide, by decide, rfl⟩, rfl⟩, rfl, ?_⟩
  rintro ⟨answer, -, -, -⟩
  cases answer

end Gridwork.Kernel
