import Gridwork.Pty.Lifetime
import Gridwork.PtyHost.Wire

/-!
# The host, its consumers and the hub in lock step

The host applies engine frames to its mirror and publishes the batches.  A consumer applies
the batches to its copy, and so does the kernel's hub, after its own checks.
`Lockstep` is the history of a hub that one connection seeds with a host's screen and that has
accepted each of its batches since, while any other connection does anything to it.
`host_consumer_hub_agree` says that the three never part, and for which reasons alone the hub can
refuse the next batch. -/

namespace Gridwork.PtyHost

open Domain Lib Pty List PtyRun WireScreen

/-! ## The size of a blank screen -/

theorem renderedSize_fill (count : UInt32) : (fill 0 " " count).toJson.renderedSize =
      46 + (toString count.toNat).utf8ByteSize := by
  have fixed : Json.quotedSize "type" + Json.quotedSize "fill" + Json.quotedSize "style" +
      (toString (UInt32.toNat 0)).utf8ByteSize + Json.quotedSize "glyph" + Json.quotedSize " " +
      Json.quotedSize "count" = 37 := by
    decide
  simp only [toJson, number, Json.renderedSize, Json.membersSize, length_cons, length_nil]
  omega

theorem utf8Len_le (text : List Char) : String.utf8Len text ≤ 4 * text.length := by
  induction text with
  | nil => simp
  | cons c rest ih =>
    have := c.utf8Size_le_four
    rw [String.utf8Len_cons, length_cons]
    omega

theorem renderedSize_fill_le (cols : UInt16) :
    (fill 0 " " cols.toUInt32).toJson.renderedSize ≤ 66 := by
  have digits : (Nat.toDigits 10 cols.toNat).length ≤ 5 :=
    (Nat.length_toDigits_le_iff (by decide) (by decide)).mpr (by have := cols.toNat_lt; omega)
  have bytes := utf8Len_le (Nat.toDigits 10 cols.toNat)
  rw [renderedSize_fill, UInt16.toNat_toUInt32, Nat.toString_eq_repr, Nat.repr_eq_ofList_toDigits,
    String.utf8ByteSize_ofList]
  omega

variable {rows cols : UInt16} {refusal : PtyRefusal} {styles : List CellStyle}
  {screen start : WireScreen} {hub after : PtyHub} {conn : ConnectionId} {id : PtySessionId}
  {session : Pty.Session} {deltas : List PtyDelta}

theorem blankGridBytes_le (bounded : ptyGridDimensionsAreBounded cols rows) :
    blankGridBytes rows cols ≤ PUBLISH_BYTE_BUDGET := by
  have style : blank.style.toJson.renderedSize = 128 := by decide
  simp only [ptyGridDimensionsAreBounded, Bool.and_eq_true, decide_eq_true_eq] at bounded
  obtain ⟨⟨⟨⟨someCols, someRows⟩, fewCols⟩, fewRows⟩, -⟩ := bounded
  have lines : rows.toNat * ((fill 0 " " cols.toUInt32).toJson.renderedSize + 3) ≤
      1000 * 69 := Nat.mul_le_mul fewRows (Nat.add_le_add_right (renderedSize_fill_le cols) 3)
  have budget : PUBLISH_BYTE_BUDGET = 2097152 := by decide
  unfold blankGridBytes
  rw [if_neg someRows, if_neg someCols]
  dsimp only
  have eq : Pty.blank.style.toJson.renderedSize = 128 := style
  omega

/-! ## The hub's check pass -/

def overlong (id : PtySessionId) (update : PtyCellUpdate) : PtyRefusal where
  code := .validation
  message := s!"pty session {id}: a {update.glyph.utf8ByteSize}-byte glyph at " ++
    s!"({update.row}, {update.col}) exceeds the {MAX_GLYPH_BYTES}-byte cell bound"

theorem checkUpdate_eq_error {update : PtyCellUpdate}
    (lands : Lands styles rows.toNat cols.toNat update)
    (refused : checkUpdate id styles cols rows update = .error refusal) :
    MAX_GLYPH_BYTES < update.glyph.utf8ByteSize ∧ refusal = overlong id update := by
  simp only [checkUpdate, bind_error, require_error, exists_unit, require_ok] at refused
  rcases refused with ⟨outside, -⟩ | ⟨-, ⟨outside, -⟩ | ⟨-, long, rfl⟩⟩
  · exact absurd lands.indexed outside
  · exact absurd ⟨UInt16.lt_iff_toNat_lt.mpr lands.row_lt, UInt16.lt_iff_toNat_lt.mpr lands.col_lt⟩
      outside
  · exact ⟨Nat.lt_of_not_le long, rfl⟩

theorem checkDelta_eq_error {updates : List PtyCellUpdate} (nodup : styles.Nodup)
    (lands : ∀ update ∈ updates, Lands styles rows.toNat cols.toNat update)
    (refused : checkDelta id (cols, rows) (.cellsChanged styles updates) = .error refusal) :
    ∃ update ∈ updates, MAX_GLYPH_BYTES < update.glyph.utf8ByteSize ∧
      refusal = overlong id update := by
  simp only [checkDelta, duplicateFree, bind_error, require_error, exists_unit,
    require_ok] at refused
  rcases refused with ⟨duplicate, -⟩ | ⟨-, failed | ⟨-, done⟩⟩
  · exact absurd nodup duplicate
  · obtain ⟨update, mem, failed⟩ := exists_of_forM_eq_error failed
    exact ⟨update, mem, checkUpdate_eq_error (lands update mem) failed⟩
  · cases done

namespace WireScreen

theorem check_resize {frame : Frame} (id : PtySessionId)
    (bounded : ptyGridDimensionsAreBounded frame.cols frame.rows) :
    (screen.resize frame).foldlM (checkDelta id) screen.size = .ok (frame.cols, frame.rows) := by
  unfold resize
  split
  · simp only [foldlM_cons, foldlM_nil, bind_pure]
    exact checkDelta_resized_ok.mpr ⟨bounded, blankGridBytes_le bounded, rfl⟩
  · rename_i eq
    rw [not_not.mp eq]
    rfl

theorem check_apply_eq_error (shaped : Shaped screen.cells) {frame : Frame}
    (bounded : ptyGridDimensionsAreBounded frame.cols frame.rows)
    (refused : (screen.apply frame).1.foldlM (checkDelta id) screen.size = .error refusal) :
    ∃ update ∈ (screen.mirrored frame).2.updates,
      MAX_GLYPH_BYTES < update.glyph.utf8ByteSize ∧ refusal = overlong id update := by
  have account := account_mirrored (rectangular_of_shaped shaped) frame
  rw [apply_eq] at refused
  dsimp only at refused
  split at refused
  · rw [foldlM_append, check_resize id bounded, ok_bind] at refused
    simp only [foldlM_cons, foldlM_nil, bind_pure] at refused
    exact checkDelta_eq_error account.nodup account.lands refused
  · rw [check_resize id bounded] at refused
    cases refused

end WireScreen

/-! ## What the verbs do to the host's session -/

section Verbs

open PtyHub

theorem answer_eq_ok {Checked Answer : Type} {checked : Except PtyRefusal Checked}
    {commit : Checked → Answer × PtyHub} {answer : Answer}
    (answered : hub.answer checked commit = (.ok answer, after)) :
    ∃ value, checked = .ok value ∧ after = (commit value).2 := by
  cases checked with
  | error refusal => cases answered
  | ok value =>
    refine ⟨value, rfl, ?_⟩
    exact (congrArg Prod.snd answered).symm

theorem answer_eq_error {Checked Answer : Type} {checked : Except PtyRefusal Checked}
    {commit : Checked → Answer × PtyHub}
    (answered : hub.answer checked commit = (.error refusal, after)) :
    checked = .error refusal ∧ after = hub := by
  cases checked with
  | error other =>
    cases answered
    exact ⟨rfl, rfl⟩
  | ok value => cases answered

theorem lookup_of_publishSnapshot {seq : Option UInt64} {frame : PtyFrame}
    {answer : Option PtySessionGeneration}
    (published : hub.publishSnapshot conn id seq frame = (.ok answer, after)) :
    ∃ rows cols cells session, strictFrame frame = .ok (rows, cols, cells) ∧
      after.sessions.lookup id = some session ∧ session.owner = conn ∧ session.cells = cells := by
  obtain ⟨value, passed, rfl⟩ := answer_eq_ok published
  obtain ⟨⟨rows, cols, cells⟩, decoded, passed⟩ := bind_ok.mp passed
  obtain ⟨bytes, -, passed⟩ := bind_ok.mp passed
  cases entry : hub.sessions.lookup id with
  | none =>
    simp only [entry, bind_ok, pure_ok] at passed
    obtain ⟨-, -, _, -, rfl⟩ := passed
    exact ⟨rows, cols, cells, _, decoded, AList.lookup_insert _, rfl, rfl⟩
  | some session =>
    simp only [entry, bind_ok, exists_unit, owned_ok, pure_ok] at passed
    obtain ⟨owner, -, -, rfl⟩ := passed
    exact ⟨rows, cols, cells, _, decoded, AList.lookup_insert _, (owner_reseeded ..).trans owner,
      cells_reseeded ..⟩

theorem lookup_of_publishDeltas {seq : UInt64}
    (hit : hub.sessions.lookup id = some session) (shaped : Shaped session.cells)
    (published : hub.publishDeltas conn id seq deltas = (.ok (), after)) :
    ∃ next, after.sessions.lookup id = some next ∧ next.owner = session.owner ∧
      applyBatch session.cells deltas = some next.cells := by
  obtain ⟨⟨other, bytes⟩, passed, rfl⟩ := answer_eq_ok published
  simp only [checkDeltas, bind_ok, session_ok, hit, pure_ok] at passed
  obtain ⟨_, -, _, ⟨⟩, -, -, -, -, size, checked, ⟨⟩⟩ := passed
  exact ⟨_, AList.lookup_insert _, rfl, (cells_advanced shaped checked _ _).1⟩

theorem refused_of_publishDeltas {seq : UInt64}
    (hit : hub.sessions.lookup id = some session) (owner : session.owner = conn)
    (refused : hub.publishDeltas conn id seq deltas = (.error refusal, after)) :
    measured (.array (deltas.map PtyDelta.toJson)) = .error refusal ∨
      (∃ head ∈ session.seq, ¬ head < seq ∧ refusal = backwards id seq head) ∨
      deltas.foldlM (checkDelta id) session.size = .error refusal := by
  obtain ⟨failed, -⟩ := answer_eq_error refused
  rcases bind_error.mp failed with tooLarge | ⟨bytes, -, failed⟩
  · exact .inl tooLarge
  · rw [session_ok.mpr hit, ok_bind, owned_ok.mpr owner, ok_bind] at failed
    rcases bind_error.mp failed with stale | ⟨-, -, failed⟩
    · refine .inr (.inl ?_)
      cases atHead : session.seq with
      | none =>
        rw [atHead] at stale
        cases stale
      | some head =>
        rw [atHead] at stale
        exact ⟨head, rfl, require_error.mp stale⟩
    · rcases bind_error.mp failed with outside | ⟨size, -, done⟩
      · exact .inr (.inr outside)
      · cases done

/-- A verb that does not publish to, reseed or end the connection's session: another
connection's, another session's, or one on the raw fallback. -/
def Aside (conn : ConnectionId) (id : PtySessionId) : Action → Prop
  | .publishSnapshot caller target _ _ => ¬ (caller = conn ∧ target = id)
  | .publishDeltas caller target _ _ => ¬ (caller = conn ∧ target = id)
  | .retire caller target => ¬ (caller = conn ∧ target = id)
  | .disconnect caller => caller ≠ conn
  | _ => True

/-- The session under the id is still the connection's, with the same cells. -/
def Kept (conn : ConnectionId) (cells : Cells) (entry : Option Pty.Session) : Prop :=
  ∃ session, entry = some session ∧ session.owner = conn ∧ session.cells = cells

/-- **What others do leaves the session alone.** -/
theorem kept_perform {action : Action} (hit : hub.sessions.lookup id = some session)
    (owner : session.owner = conn) (aside : Aside conn id action) :
    Kept conn session.cells ((hub.perform action).sessions.lookup id) := by
  have turn := perform_turn hit action
  generalize (hub.perform action).sessions.lookup id = entry at turn ⊢
  cases turn with
  | eq => exact ⟨session, rfl, owner, rfl⟩
  | reseed | deltas => exact absurd ⟨owner, rfl⟩ aside
  | raw => exact ⟨_, rfl, owner, rfl⟩
  | retired => exact absurd ⟨owner, rfl⟩ aside
  | disconnected => exact absurd owner aside

end Verbs

/-! ## Runs -/

/-- A frame whose dimensions are non-zero and within the wire's bounds. -/
def Frame.Bounded (frame : Frame) : Prop :=
  ptyGridDimensionsAreBounded frame.cols frame.rows

variable {frames : List Frame}

namespace WireScreen

def run (screen : WireScreen) (frames : List Frame) : WireScreen :=
  frames.foldl (fun screen frame => (screen.apply frame).2) screen

def batches : WireScreen → List Frame → List (List PtyDelta)
  | _, [] => []
  | screen, frame :: rest => (screen.apply frame).1 :: (screen.apply frame).2.batches rest

theorem run_snoc (screen : WireScreen) (frames : List Frame) (frame : Frame) :
    screen.run (frames ++ [frame]) = ((screen.run frames).apply frame).2 := by
  rw [run, foldl_append]
  rfl

theorem shaped_apply (shaped : Shaped screen.cells) {frame : Frame}
    (bounded : frame.Bounded) : Shaped (screen.apply frame).2.cells :=
  ⟨frame.rows, frame.cols, bounded, (account_mirrored (rectangular_of_shaped shaped) frame).rect⟩

theorem shaped_run (shaped : Shaped start.cells)
    (bounded : ∀ frame ∈ frames, frame.Bounded) : Shaped (start.run frames).cells := by
  induction frames generalizing start with
  | nil => exact shaped
  | cons frame rest ih =>
    exact ih (shaped_apply shaped (bounded frame mem_cons_self))
      fun other mem => bounded other (mem_cons_of_mem _ mem)

theorem foldlM_batches (shaped : Shaped start.cells) (bounded : ∀ frame ∈ frames, frame.Bounded) :
    (start.batches frames).foldlM applyBatch start.cells = some (start.run frames).cells := by
  induction frames generalizing start with
  | nil => rfl
  | cons frame rest ih =>
    rw [batches, foldlM_cons, applyBatch_apply (rectangular_of_shaped shaped) frame]
    exact ih (shaped_apply shaped (bounded frame mem_cons_self))
      fun other mem => bounded other (mem_cons_of_mem _ mem)

end WireScreen

/-- A hub that a connection seeded with a host's screen and that has accepted the batch of every
frame since, whatever anyone else did to it in between. -/
inductive Lockstep (conn : ConnectionId) (id : PtySessionId) (start : WireScreen) :
    List Frame → PtyHub → Prop where
  | seed {hub : PtyHub} {seq : Option UInt64} {answer : Option PtySessionGeneration}
      (published : (hub.publishSnapshot conn id seq start.snapshot).1 = .ok answer) :
      Lockstep conn id start [] (hub.publishSnapshot conn id seq start.snapshot).2
  | batch {hub : PtyHub} {frames : List Frame} {frame : Frame} {seq : UInt64}
      (before : Lockstep conn id start frames hub)
      (published : (hub.publishDeltas conn id seq ((start.run frames).apply frame).1).1 = .ok ()) :
      Lockstep conn id start (frames ++ [frame])
        (hub.publishDeltas conn id seq ((start.run frames).apply frame).1).2
  | aside {hub : PtyHub} {frames : List Frame} {action : PtyHub.Action}
      (before : Lockstep conn id start frames hub) (aside : Aside conn id action) :
      Lockstep conn id start frames (hub.perform action)

theorem Lockstep.kept (shaped : Shaped start.cells) (bounded : ∀ frame ∈ frames, frame.Bounded)
    (lockstep : Lockstep conn id start frames hub) :
    Kept conn (start.run frames).cells (hub.sessions.lookup id) := by
  induction lockstep with
  | seed published =>
    obtain ⟨rows, cols, cells, session, decoded, hit, owner, eq⟩ :=
      lookup_of_publishSnapshot (Prod.ext published rfl)
    obtain ⟨rows, cols, -, rect⟩ := shaped
    obtain ⟨-, -, -, -, -, expanded⟩ := strictFrame_ok.mp decoded
    exact ⟨session, hit, owner, eq.trans (eq_of_cells_fromCells rect expanded)⟩
  | @batch hub frames frame seq before published ih =>
    have prior : ∀ other ∈ frames, other.Bounded := fun other mem =>
      bounded other (mem_append_left _ mem)
    obtain ⟨session, hit, owner, eq⟩ := ih prior
    have shape := shaped_run shaped prior
    obtain ⟨next, foundNext, sameOwner, applied⟩ :=
      lookup_of_publishDeltas hit (eq ▸ shape) (Prod.ext published rfl)
    rw [eq, applyBatch_apply (rectangular_of_shaped shape)] at applied
    refine ⟨next, foundNext, sameOwner.trans owner, ?_⟩
    rw [run_snoc]
    exact (Option.some.inj applied).symm
  | aside before aside ih =>
    obtain ⟨session, hit, owner, eq⟩ := ih bounded
    exact eq ▸ kept_perform hit owner aside

/-- **Host, consumer and hub agree.**  From every screen and over every sequence of frames within
the wire's bounds: a consumer that applies each batch holds the host's mirror after
every batch; a hub seeded with the host's screen that accepted each batch holds it too; and the
next batch, whatever its frame, has a canonical style table and only updates inside the
grid and the table, so that the hub refuses it for its size in bytes, for a revision that does
not advance, or for a glyph past the cell bound, and for nothing else. -/
theorem host_consumer_hub_agree (start : WireScreen) (shaped : Shaped start.cells)
    (frames : List Frame) (bounded : ∀ frame ∈ frames, frame.Bounded) :
    (start.batches frames).foldlM applyBatch start.cells = some (start.run frames).cells ∧
    ∀ conn id hub, Lockstep conn id start frames hub →
      ∃ session, hub.sessions.lookup id = some session ∧ session.cells = (start.run frames).cells ∧
        ∀ frame : Frame, frame.Bounded → (∀ styles updates,
            .cellsChanged styles updates ∈ ((start.run frames).apply frame).1 → styles.Nodup ∧
              ∀ update ∈ updates, Lands styles frame.rows.toNat frame.cols.toNat update) ∧
          ∀ seq refusal after, hub.publishDeltas conn id seq ((start.run frames).apply frame).1 =
                (.error refusal, after) →
              measured (.array (((start.run frames).apply frame).1.map PtyDelta.toJson)) =
                  .error refusal ∨
                (∃ head ∈ session.seq, ¬ head < seq ∧ refusal = backwards id seq head) ∨
                ∃ update, MAX_GLYPH_BYTES < update.glyph.utf8ByteSize ∧
                  refusal = overlong id update := by
  refine ⟨WireScreen.foldlM_batches shaped bounded, ?_⟩
  intro conn id hub lockstep
  obtain ⟨session, hit, owner, eq⟩ := lockstep.kept shaped bounded
  have shape := WireScreen.shaped_run shaped bounded
  refine ⟨session, hit, eq, ?_⟩
  intro frame frameBounded
  refine ⟨fun styles updates mem =>
    WireScreen.lands_of_mem_apply (rectangular_of_shaped shape) frame mem, ?_⟩
  intro seq refusal after refused
  rcases refused_of_publishDeltas hit owner refused with tooLarge | stale | failed
  · exact .inl tooLarge
  · exact .inr (.inl stale)
  · have sameSize : session.size = (start.run frames).size := by
      rw [Pty.Session.size, WireScreen.size, eq]
    rw [sameSize] at failed
    obtain ⟨update, -, long, isOverlong⟩ :=
      WireScreen.check_apply_eq_error shape frameBounded failed
    exact .inr (.inr ⟨update, long, isOverlong⟩)

def letters : Frame where
  cols := 2
  rows := 1
  cursor := some (1, 0)
  changed := [{ y := 0, text := "ab", styles := [{}, {}], cols := [0, 1], increasing := by decide }]
  ascending := by decide

theorem host_consumer_hub_agree_letters : ∃ hub session, Lockstep 7 "s" (.new 2 1) [letters] hub ∧
      hub.sessions.lookup "s" = some session ∧
      session.cells = ((WireScreen.new 2 1).run [letters]).cells ∧
      ((WireScreen.new 2 1).batches [letters]).foldlM applyBatch (WireScreen.new 2 1).cells =
        some ((WireScreen.new 2 1).run [letters]).cells := by
  have seeded : Lockstep 7 "s" (.new 2 1) []
      ((PtyHub.new 1).publishSnapshot 7 "s" (some 1) (WireScreen.new 2 1).snapshot).2 :=
    .seed (by decide : _ = Except.ok (some "1:1"))
  have accepted : Lockstep 7 "s" (.new 2 1) [letters] _ :=
    seeded.batch (by decide : (PtyHub.publishDeltas _ 7 "s" 2 _).1 = .ok ())
  have shaped : Shaped (WireScreen.new 2 1).cells := ⟨1, 2, by decide, Rect.replicate 1 2 blank⟩
  have bounded : ∀ frame ∈ [letters], frame.Bounded := by
    intro frame mem
    cases mem_singleton.mp mem
    exact (by decide : ptyGridDimensionsAreBounded 2 1 = true)
  obtain ⟨replayed, agree⟩ := host_consumer_hub_agree (.new 2 1) shaped [letters] bounded
  obtain ⟨session, hit, eq, -⟩ := agree 7 "s" _ accepted
  exact ⟨_, session, accepted, hit, eq, replayed⟩

end Gridwork.PtyHost
