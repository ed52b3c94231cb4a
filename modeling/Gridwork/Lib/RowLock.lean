import Mathlib.Logic.Function.Basic
import Gridwork.Lib.Run

/-!
# Transactions under one locked row

Owners share a database, each over sessions of its own.  A transaction waits for the lock
of one row, compares the epoch in that row with the epoch its owner claimed, works
statement by statement, and keeps the lock until it commits or stops.  A claim is a
statement of its own: it raises the epoch, and it needs the lock like everybody else.

Statements read what is committed with the writes of their own transaction on top, so a
transaction could in principle see the database change between two of its statements.
`Step.refines` says that it does not: whatever the interleaving, the committed data moves
only by claims and by whole transactions run alone, each of an owner whose epoch is the
current one.  `fenced` reads off that a superseded owner commits nothing.
-/

namespace Gridwork.Lib

open List Function Option

/-! ## Transactions -/

/-- What a transaction does once it has the lock.  A statement reads what it sees, writes,
and goes on by what it read. -/
inductive Body (Data : Type) where
  | commit | rollback
  | statement (writes : Data → Data → Data) (next : Data → Body Data)

namespace Body

variable {Data : Type}

def serial : Body Data → Data → Option Data
  | commit, data => some data
  | rollback, _ => none
  | statement writes next, data => (next data).serial (writes data data)

def single (work : Data → Option Data) : Body Data :=
  .statement (fun seen _ => (work seen).getD seen)
    fun seen => if (work seen).isSome then .commit else .rollback

theorem serial_single (work : Data → Option Data) (data : Data) :
    (single work).serial data = work data := by
  cases outcome : work data with
  | none | some => simp [single, serial, outcome]

end Body

namespace RowLock

variable {Data Owner Session : Type} {session : Session} {owner : Owner} {data result : Data}
  {claimed : Owner → Option Int}

/-- The epoch a row holds, and the claim that raises it. -/
structure Fence (Data : Type) where
  epoch : Data → Int
  claim : Data → Data
  epoch_claim : ∀ data, epoch (claim data) = epoch data + 1

/-- Where a session is: idle, waiting for the lock, or holding it with its writes so far. -/
inductive Phase (Data Owner : Type) where
  | idle
  | waiting (owner : Owner) (body : Body Data)
  | working (owner : Owner) (left : Body Data) (own : Data → Data)

/-- The committed data, the holder of the lock, the epochs claimed and the sessions. -/
structure World (Data Owner Session : Type) where
  data : Data
  holder : Option Session
  claimed : Owner → Option Int
  session : Session → Phase Data Owner

def World.initial (data : Data) : World Data Owner Session where
  data := data
  holder := none
  claimed _ := none
  session _ := .idle

inductive Action (Data Owner Session : Type) where
  | claim (owner : Owner)
  | start (session : Session) (owner : Owner) (body : Body Data)
  | lock (session : Session)
  | statement (session : Session)
  | commit (session : Session) (owner : Owner)
  /-- A transaction ends without a commit: superseded, refused, rolled back or cut off. -/
  | stop (session : Session)

section Steps

variable [DecidableEq Owner] [DecidableEq Session] (fence : Fence Data)
  (allowed : Int → Body Data → Prop)

inductive Step : World Data Owner Session → Action Data Owner Session →
    World Data Owner Session → Prop where
  | claim {world : World Data Owner Session} {owner : Owner} (free : world.holder = none)
      (unclaimed : world.claimed owner = none) :
      Step world (.claim owner)
        { world with
          data := fence.claim world.data
          claimed := Function.update world.claimed owner (some (fence.epoch world.data + 1)) }
  | start {world : World Data Owner Session} {session : Session} {owner : Owner} {epoch : Int}
      {body : Body Data} (idle : world.session session = .idle)
      (opened : world.claimed owner = some epoch) (allows : allowed epoch body) :
      Step world (.start session owner body)
        { world with session := Function.update world.session session (.waiting owner body) }
  /-- The lock is free, and the row it locks still carries the owner's epoch. -/
  | lock {world : World Data Owner Session} {session : Session} {owner : Owner}
      {body : Body Data} (waits : world.session session = .waiting owner body)
      (free : world.holder = none)
      (current : world.claimed owner = some (fence.epoch world.data)) :
      Step world (.lock session)
        { world with
          holder := some session
          session := Function.update world.session session (.working owner body id) }
  /-- A statement sees the data committed by now, under the transaction's own writes. -/
  | statement {world : World Data Owner Session} {session : Session} {owner : Owner}
      {writes : Data → Data → Data} {next : Data → Body Data} {own : Data → Data}
      (works : world.session session = .working owner (.statement writes next) own) :
      Step world (.statement session)
        { world with
          session := Function.update world.session session
            (.working owner (next (own world.data))
              fun data => writes (own world.data) (own data)) }
  | commit {world : World Data Owner Session} {session : Session} {owner : Owner}
      {own : Data → Data} (works : world.session session = .working owner .commit own) :
      Step world (.commit session owner)
        { world with
          data := own world.data
          holder := none
          session := Function.update world.session session .idle }
  | stop {world : World Data Owner Session} {session : Session} :
      Step world (.stop session)
        { world with
          holder := if world.holder = some session then none else world.holder
          session := Function.update world.session session .idle }

/-- What one action does to the committed data and the claims when transactions run alone. -/
inductive SerialStep : Data × (Owner → Option Int) → Action Data Owner Session →
    Data × (Owner → Option Int) → Prop where
  | claim {data : Data} {claimed : Owner → Option Int} {owner : Owner}
      (unclaimed : claimed owner = none) :
      SerialStep (data, claimed) (.claim owner)
        (fence.claim data, Function.update claimed owner (some (fence.epoch data + 1)))
  | commit {data result : Data} {claimed : Owner → Option Int} {session : Session} {owner : Owner}
      {body : Body Data} (current : claimed owner = some (fence.epoch data))
      (allows : allowed (fence.epoch data) body) (alone : body.serial data = some result) :
      SerialStep (data, claimed) (.commit session owner) (result, claimed)
  | silent {state : Data × (Owner → Option Int)} {action : Action Data Owner Session}
      (notClaim : ∀ owner, action ≠ .claim owner)
      (notCommit : ∀ session owner, action ≠ .commit session owner) :
      SerialStep state action state

end Steps

/-! ## Refinement -/

variable {fence : Fence Data} {allowed : Int → Body Data → Prop}
  {before after final world start : World Data Owner Session} {action : Action Data Owner Session}
  {actions : List (Action Data Owner Session)}

/-- What a session may be doing: the holder of the lock is the session that works, under
the current epoch, and what it has left leads where its whole body leads alone. -/
def Sound (fence : Fence Data) (allowed : Int → Body Data → Prop)
    (world : World Data Owner Session) (session : Session) : Prop :=
  match world.session session with
  | .idle => world.holder ≠ some session
  | .waiting owner body => world.holder ≠ some session ∧
      ∃ epoch, world.claimed owner = some epoch ∧ allowed epoch body
  | .working owner left own => world.holder = some session ∧
      world.claimed owner = some (fence.epoch world.data) ∧
      ∃ body, allowed (fence.epoch world.data) body ∧
        body.serial world.data = left.serial (own world.data)

def Invariant (fence : Fence Data) (allowed : Int → Body Data → Prop)
    (world : World Data Owner Session) : Prop :=
  ∀ session, Sound fence allowed world session

theorem Invariant.initial (data : Data) :
    Invariant fence allowed (World.initial data : World Data Owner Session) := by
  intro session
  exact some_ne_none session ∘ Eq.symm

/-- A session stays sound while its phase, its claim and its hold of the lock stay, and the
data stays if it holds the lock. -/
theorem Sound.frame (sound : Sound fence allowed before session)
    (phase : after.session session = before.session session)
    (claims : ∀ owner epoch, before.claimed owner = some epoch → after.claimed owner = some epoch)
    (lock : after.holder = some session ↔ before.holder = some session)
    (data : before.holder = some session → after.data = before.data) :
    Sound fence allowed after session := by
  unfold Sound at sound ⊢
  rw [phase]
  cases phased : before.session session with
  | idle =>
    simp only [phased] at sound
    exact mt lock.mp sound
  | waiting owner body =>
    simp only [phased] at sound
    obtain ⟨apart, epoch, opened, allows⟩ := sound
    exact ⟨mt lock.mp apart, epoch, claims owner epoch opened, allows⟩
  | working owner left own =>
    simp only [phased] at sound
    obtain ⟨holder, current, body, allows, alone⟩ := sound
    simp only [data holder]
    exact ⟨lock.mpr holder, claims owner _ current, body, allows, alone⟩

theorem Invariant.working {left : Body Data} {own : Data → Data}
    (holds : Invariant fence allowed world)
    (works : world.session session = .working owner left own) :
    world.holder = some session ∧ world.claimed owner = some (fence.epoch world.data) ∧
      ∃ body, allowed (fence.epoch world.data) body ∧
        body.serial world.data = left.serial (own world.data) := by
  have sound := holds session
  unfold Sound at sound
  rw [works] at sound
  exact sound

section Runs

variable [DecidableEq Owner] [DecidableEq Session]

/-- Every step keeps the sessions sound: the acting session by what the step checks, the
others because nothing of theirs moves. -/
theorem Step.invariant (step : Step fence allowed before action after)
    (holds : Invariant fence allowed before) : Invariant fence allowed after := by
  intro other
  cases step with
  | @claim owner free unclaimed =>
    refine (holds other).frame rfl ?_ Iff.rfl (by simp [free])
    intro claimant epoch opened
    have ne : claimant ≠ owner := by
      rintro rfl
      rw [unclaimed] at opened
      cases opened
    exact (update_of_ne ne _ _).trans opened
  | @start session owner epoch body idle opened allows =>
    by_cases eq : other = session
    · subst eq
      have sound := holds other
      simp only [Sound, idle] at sound
      simp only [Sound, update_self]
      exact ⟨sound, epoch, opened, allows⟩
    · exact (holds other).frame (update_of_ne eq _ _) (fun _ _ opened => opened)
        Iff.rfl fun _ => rfl
  | @lock session owner body waits free current =>
    by_cases eq : other = session
    · subst eq
      have sound := holds other
      simp only [Sound, waits] at sound
      obtain ⟨-, epoch, opened, allows⟩ := sound
      have sameEpoch : epoch = fence.epoch before.data :=
        some.inj (opened.symm.trans current)
      simp only [Sound, update_self]
      exact ⟨trivial, current, body, sameEpoch ▸ allows, rfl⟩
    · refine (holds other).frame (update_of_ne eq _ _) (fun _ _ opened => opened) ?_ fun _ => rfl
      simpa [free] using Ne.symm eq
  | @statement session owner writes next own works =>
    obtain ⟨holder, current, body, allows, alone⟩ := holds.working works
    by_cases eq : other = session
    · subst eq
      simp only [Sound, update_self]
      exact ⟨holder, current, body, allows, alone⟩
    · exact (holds other).frame (update_of_ne eq _ _) (fun _ _ opened => opened)
        Iff.rfl fun _ => rfl
  | @commit session owner own works =>
    obtain ⟨holder, -⟩ := holds.working works
    by_cases eq : other = session
    · subst eq
      simp [Sound]
    · have apart : before.holder ≠ some other := by simpa [holder] using Ne.symm eq
      exact (holds other).frame (update_of_ne eq _ _) (fun _ _ opened => opened)
        (by simpa using apart) (absurd · apart)
  | @stop session =>
    by_cases eq : other = session
    · subst eq
      simp only [Sound, update_self]
      split
      · simp
      · assumption
    · refine (holds other).frame (update_of_ne eq _ _) (fun _ _ opened => opened) ?_ fun _ => rfl
      by_cases held : before.holder = some session
      · simpa [held] using Ne.symm eq
      · simp [held]

/-- **Interleavings run as if alone.**  Whatever the other sessions do, a step moves the
committed data as a claim, or as one whole transaction run alone. -/
theorem Step.refines (step : Step fence allowed before action after)
    (holds : Invariant fence allowed before) :
    SerialStep fence allowed (before.data, before.claimed) action (after.data, after.claimed) := by
  cases step with
  | claim free unclaimed => exact .claim unclaimed
  | commit works =>
    obtain ⟨-, current, body, allows, alone⟩ := holds.working works
    exact .commit current allows alone
  | start | lock | statement | stop => exact .silent (by simp) (by simp)

theorem run_refines
    (holds : Invariant fence allowed start) (run : Run (Step fence allowed) start actions final) :
    Run (SerialStep fence allowed) (start.data, start.claimed) actions
      (final.data, final.claimed) := by
  induction run with
  | nil => exact .nil _
  | cons first later ih =>
    exact .cons (first.refines holds) (ih (first.invariant holds))

end Runs

/-! ## Fencing -/

def Superseded (owner : Owner) (actions : List (Action Data Owner Session)) : Prop :=
  ∃ before later after, actions = before ++ .claim later :: after ∧ .claim owner ∈ before

theorem superseded_snoc (superseded : Superseded owner (actions ++ [action])) :
    Superseded owner actions ∨ (∃ later, action = .claim later) ∧ .claim owner ∈ actions := by
  obtain ⟨before, later, after, split, claimed⟩ := superseded
  rcases eq_nil_or_concat after with rfl | ⟨mid, final, rfl⟩
  · obtain ⟨rfl, last⟩ := append_inj' split rfl
    exact .inr ⟨⟨later, singleton_inj.mp last⟩, claimed⟩
  · rw [concat_eq_append, ← cons_append, ← append_assoc] at split
    exact .inl ⟨before, later, mid, (append_inj' split rfl).1, claimed⟩

/-- What the claims say of the epoch: nobody is ahead of it, and a superseded owner is
behind it. -/
structure Ordered (fence : Fence Data) (actions : List (Action Data Owner Session))
    (state : Data × (Owner → Option Int)) : Prop where
  known : ∀ owner, .claim owner ∈ actions →
    ∃ epoch, state.2 owner = some epoch ∧ epoch ≤ fence.epoch state.1
  behind : ∀ owner, Superseded owner actions →
    ∃ epoch, state.2 owner = some epoch ∧ epoch < fence.epoch state.1

theorem Ordered.keep (ordered : Ordered fence actions (data, claimed))
    (notClaim : ∀ owner, action ≠ .claim owner) (eq : fence.epoch result = fence.epoch data) :
    Ordered fence (actions ++ [action]) (result, claimed) := by
  constructor
  · intro other mem
    rcases mem_snoc.mp mem with prior | last
    · exact eq ▸ ordered.known other prior
    · exact absurd last.symm (notClaim other)
  · intro other superseded
    rcases superseded_snoc superseded with prior | ⟨⟨later, isClaim⟩, -⟩
    · exact eq ▸ ordered.behind other prior
    · exact absurd isClaim (notClaim later)

section Fenced

variable [DecidableEq Owner]

theorem Ordered.claim (ordered : Ordered fence actions (data, claimed))
    (unclaimed : claimed owner = none) :
    Ordered fence (actions ++ [.claim owner])
      (fence.claim data, Function.update claimed owner (some (fence.epoch data + 1))) := by
  -- whoever has claimed already is not the claimant, and keeps an older epoch
  have older (other : Owner) (prior : .claim other ∈ actions) :
      ∃ epoch, Function.update claimed owner (some (fence.epoch data + 1)) other = some epoch ∧
        epoch < fence.epoch (fence.claim data) := by
    obtain ⟨epoch, opened, atMost⟩ := ordered.known other prior
    refine ⟨epoch, ?_, ?_⟩
    · rw [update_of_ne]
      · exact opened
      · rintro rfl
        exact some_ne_none epoch (opened.symm.trans unclaimed)
    · rw [fence.epoch_claim]
      exact Int.lt_add_one_of_le atMost
  constructor
  · intro other mem
    rcases mem_snoc.mp mem with prior | ⟨⟨⟩⟩
    · obtain ⟨epoch, opened, below⟩ := older other prior
      exact ⟨epoch, opened, below.le⟩
    · refine ⟨_, update_self .., ?_⟩
      rw [fence.epoch_claim]
  · intro other superseded
    rcases superseded_snoc superseded with ⟨before, later, after, rfl, mem⟩ | ⟨-, mem⟩
    · exact older other (mem_append_left _ mem)
    · exact older other mem

/-- **A superseded owner commits nothing.**  In every run of transactions that leave the
epoch to the claims, an owner does not commit once another has claimed after it. -/
theorem fenced [DecidableEq Session]
    (keeps : ∀ body data result, allowed (fence.epoch data) body → body.serial data = some result →
      fence.epoch result = fence.epoch data)
    (run : Run (Step fence allowed) (World.initial data) actions final)
    {before after : List (Action Data Owner Session)}
    (commits : actions = before ++ .commit session owner :: after) : ¬ Superseded owner before := by
  have serial := run_refines (.initial data) run
  suffices both : Ordered fence actions (final.data, final.claimed) ∧
      ∀ before after session owner, actions = before ++ .commit session owner :: after →
        ¬ Superseded owner before from both.2 before after session owner commits
  refine serial.prefix_induction (fun read state => Ordered fence read state ∧
    ∀ before after session owner, read = before ++ .commit session owner :: after →
      ¬ Superseded owner before) ?_ ?_
  · refine ⟨⟨by simp, ?_⟩, by simp⟩
    rintro owner ⟨before, later, after, split, -⟩
    simp at split
  · rintro read action rest ⟨data, claimed⟩ ⟨result, claims⟩ - ⟨ordered, committed⟩ step
    -- an earlier commit stands in what was read; the last action is a commit of its own
    have earlierOr {before after : List (Action Data Owner Session)} {session : Session}
        {owner : Owner} (split : read ++ [action] = before ++ .commit session owner :: after) :
        ¬ Superseded owner before ∨ before = read ∧ action = .commit session owner := by
      rcases eq_nil_or_concat after with rfl | ⟨mid, last, rfl⟩
      · obtain ⟨eq, isLast⟩ := append_inj' split rfl
        exact .inr ⟨eq.symm, singleton_inj.mp isLast⟩
      · rw [concat_eq_append, ← cons_append, ← append_assoc] at split
        exact .inl (committed before mid session owner (append_inj' split rfl).1)
    cases step with
    | claim unclaimed =>
      refine ⟨ordered.claim unclaimed, ?_⟩
      intro before after session owner split
      exact (earlierOr split).elim id fun ⟨_, no⟩ => by cases no
    | commit current allows alone =>
      refine ⟨ordered.keep (by simp) (keeps _ _ _ allows alone), ?_⟩
      intro before after session owner split
      rcases earlierOr split with prior | ⟨rfl, eq⟩
      · exact prior
      · obtain ⟨-, rfl⟩ := Action.commit.inj eq
        intro superseded
        obtain ⟨epoch, opened, below⟩ := ordered.behind _ superseded
        have sameEpoch : epoch = fence.epoch data := some.inj (opened.symm.trans current)
        exact absurd below (sameEpoch ▸ lt_irrefl _)
    | silent notClaim notCommit =>
      refine ⟨ordered.keep notClaim rfl, ?_⟩
      intro before after session owner split
      exact (earlierOr split).elim id fun ⟨_, no⟩ =>
        absurd no (notCommit session owner)

end Fenced

end RowLock

end Gridwork.Lib
