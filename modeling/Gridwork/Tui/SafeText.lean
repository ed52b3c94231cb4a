import Mathlib

/-!
# Wire text in the terminal

`gwk-tui`'s `safe_text` and `safe_text_lines`.  A character that cannot stand in one cell becomes
its `\u{HEX}` escape; `safe_text` ends before the first character whose escape would pass the cell
budget, and `safe_text_lines` wraps the escape into rows and may end inside one.
-/

namespace Gridwork.Tui

open List Nat

/-- The width and emoji tables that `is_admissible` reads, which are not in the repository. -/
class Tables where
  (width widthCjk : Char → Option Nat)
  (isEmojiChar isEmojiComponent : Char → Bool)

def isAdmissible [Tables] (c : Char) : Bool :=
  (Tables.width c, Tables.widthCjk c) = (some 1, some 1) ∧
    !Tables.isEmojiChar c ∧ !Tables.isEmojiComponent c

def isAsciiGraphic (c : Char) : Bool := '!' ≤ c && c ≤ '~'

/-- `format!("\\u{{{:X}}}", c as u32)`. -/
def replacement (c : Char) : List Char :=
  '\\' :: 'u' :: '\x7b' :: ((Nat.toDigits 16 c.toNat).map Char.toUpper ++ ['\x7d'])

/-- One pass of either loop body of `safe_text_lines`: the lines and the cells of the last one,
or the lines it returns. -/
def pushCell (cellWidth maxLines : Nat) (state : List (List Char) × Nat) (output : Char) :
    Except (List (List Char)) (List (List Char) × Nat) :=
  if state.2 = cellWidth then
    if state.1.length = maxLines then .error state.1 else .ok (state.1 ++ [[output]], 1)
  else .ok (state.1.dropLast ++ [state.1.getLastD [] ++ [output]], state.2 + 1)

def returned : Except (List (List Char)) (List (List Char) × Nat) → List (List Char) × Bool
  | .error lines => (lines, true)
  | .ok (lines, _) => (lines, false)

/-- What `safe_text_lines` shows of `whole`, and whether it says that more remains. -/
structure Wraps (cellWidth maxLines : Nat) (whole : List Char) (shown : List (List Char) × Bool) :
    Prop where
  height : shown.1.length ≤ maxLines
  width : ∀ line ∈ shown.1, line.length ≤ cellWidth
  flatten : shown.1.flatten = whole.take (cellWidth * maxLines)
  more : shown.2 ↔ shown.1.flatten ≠ whole

variable {cellBudget cellWidth maxLines : Nat}

theorem isAsciiGraphic_of_mem_toDigits (n : Nat) :
    ∀ digit ∈ toDigits 16 n, isAsciiGraphic digit.toUpper := by
  have digits : ∀ d < 16, isAsciiGraphic (digitChar d).toUpper := by decide
  induction n using Nat.strong_induction_on with
  | _ n ih =>
    intro digit mem
    rcases lt_or_ge n 16 with small | large
    · rw [toDigits_of_lt_base small, mem_singleton] at mem
      exact mem ▸ digits n small
    · rw [toDigits_of_base_le (by decide) large, mem_append, mem_singleton] at mem
      rcases mem with prior | rfl
      · exact ih (n / 16) (by omega) digit prior
      · exact digits _ (mod_lt _ (by decide))

/-- The lines so far are `done`, all of them full, and the one being filled. -/
theorem wraps_foldlM (positive : 0 < cellWidth) (rest : List Char) :
    ∀ (done : List (List Char)) (line : List Char), done.length < maxLines →
      line.length ≤ cellWidth → (∀ other ∈ done, other.length ≤ cellWidth) →
      done.flatten.length = cellWidth * done.length →
      Wraps cellWidth maxLines (done.flatten ++ line ++ rest)
        (returned (rest.foldlM (pushCell cellWidth maxLines) (done ++ [line], line.length))) := by
  induction rest with
  | nil =>
    intro done line height width widths full
    have small : (done.flatten ++ line).length ≤ cellWidth * maxLines := by
      rw [length_append, full]
      nlinarith
    change Wraps cellWidth maxLines _ (done ++ [line], false)
    refine ⟨by simpa using height, ?_, ?_, by simp⟩
    · simpa [or_imp, forall_and, width] using widths
    · simp [take_of_length_le small]
  | cons output rest ih =>
    intro done line height width widths full
    have widthsSnoc : ∀ other ∈ done ++ [line], other.length ≤ cellWidth := by
      simpa [or_imp, forall_and, width] using widths
    rcases width.eq_or_lt with filled | room
    · have fullSnoc : (done ++ [line]).flatten.length = cellWidth * (done ++ [line]).length := by
        simp [← full, filled, mul_succ]
      rcases lt_or_ge (done.length + 1) maxLines with more | last
      · have next := ih (done ++ [line]) [output] (by simpa using more) positive widthsSnoc fullSnoc
        simpa [pushCell, filled, more.ne, bind, Except.bind] using next
      · have all : (done ++ [line]).length = maxLines := by simpa using le_antisymm height last
        have stops : returned ((output :: rest).foldlM (pushCell cellWidth maxLines)
            (done ++ [line], line.length)) = (done ++ [line], true) := by
          rw [foldlM_cons, pushCell, if_pos filled, if_pos all]
          rfl
        rw [stops]
        refine ⟨all.le, widthsSnoc, ?_, by simp⟩
        rw [← all, ← fullSnoc, ← flatten_concat, take_left]
    · have next := ih done (line ++ [output]) height (by simpa using room) widths full
      simpa [pushCell, room.ne, bind, Except.bind] using next

variable [Tables]

def safe (c : Char) : Bool :=
  (isAsciiGraphic c || c == ' ') || (!decide (c.val < 128) && isAdmissible c)

/-- The loop of `safe_text` over `rest`: `before` is the text up to its offset. -/
def safeTextFrom (cellBudget : Nat) (escaped : Option (List Char)) (cells : Nat)
    (before : List Char) : List Char → List Char
  | [] => escaped.getD before
  | c :: rest =>
    if safe c then
      if cells = cellBudget then escaped.getD before
      else safeTextFrom cellBudget (escaped.map (· ++ [c])) (cells + 1) (before ++ [c]) rest
    else if (replacement c).length > cellBudget - cells then escaped.getD before
    else safeTextFrom cellBudget (some (escaped.getD before ++ replacement c))
      (cells + (replacement c).length) (before ++ [c]) rest

def safeText (text : String) (cellBudget : Nat) : String :=
  .ofList (safeTextFrom cellBudget none 0 [] text.toList)

def pushChar (cellWidth maxLines : Nat) (state : List (List Char) × Nat) (c : Char) :
    Except (List (List Char)) (List (List Char) × Nat) :=
  if safe c then pushCell cellWidth maxLines state c
  else (replacement c).foldlM (pushCell cellWidth maxLines) state

def safeTextLines (text : String) (cellWidth maxLines : Nat) : List (List Char) × Bool :=
  if cellWidth = 0 ∨ maxLines = 0 then ([], !text.toList.isEmpty)
  else returned (text.toList.foldlM (pushChar cellWidth maxLines) ([[]], 0))

/-! ## The escape of a text -/

def escapeChar (c : Char) : List Char := if safe c then [c] else replacement c

def escape (text : List Char) : List Char := text.flatMap escapeChar

structure LongestFit (cellBudget : Nat) (text cut : List Char) : Prop where
  within : cut <+: text
  fits : (escape cut).length ≤ cellBudget
  longest : ∀ other, other <+: text → (escape other).length ≤ cellBudget → other <+: cut

theorem safe_of_mem_escape {text : List Char} : ∀ c ∈ escape text, safe c := by
  intro c mem
  obtain ⟨source, -, mem⟩ := mem_flatMap.mp mem
  rw [escapeChar] at mem
  split at mem
  next kept => exact mem_singleton.mp mem ▸ kept
  next =>
    have graphic : isAsciiGraphic c := by
      simp only [replacement, mem_cons, mem_append, mem_map, not_mem_nil, or_false] at mem
      rcases mem with rfl | rfl | rfl | ⟨digit, among, rfl⟩ | rfl
      · decide
      · decide
      · decide
      · exact isAsciiGraphic_of_mem_toDigits _ digit among
      · decide
    simp [safe, graphic]

/-- A longer prefix has the character the loop stopped at, and with it no room. -/
theorem longestFit_of_full {before : List Char} (c : Char) (rest : List Char)
    (fits : (escape before).length ≤ cellBudget)
    (full : cellBudget < (escape before).length + (escapeChar c).length) :
    LongestFit cellBudget (before ++ c :: rest) before := by
  refine ⟨prefix_append .., fits, fun other within small => ?_⟩
  have step : before ++ [c] <+: before ++ c :: rest := ⟨rest, by simp⟩
  rcases prefix_or_prefix_of_prefix step within with ⟨tail, rfl⟩ | shorter
  · simp only [escape, flatMap_append, flatMap_singleton, length_append] at small full
    omega
  · rcases prefix_concat_iff.mp shorter with rfl | shorter
    · simp only [escape, flatMap_append, flatMap_singleton, length_append] at small full
      omega
    · exact shorter

theorem safeTextFrom_longest {escaped : Option (List Char)} {cells : Nat} {before rest : List Char}
    (written : escaped.getD before = escape before) (counted : cells = (escape before).length)
    (fits : cells ≤ cellBudget) : ∃ cut, LongestFit cellBudget (before ++ rest) cut ∧
      safeTextFrom cellBudget escaped cells before rest = escape cut := by
  fun_induction safeTextFrom cellBudget escaped cells before rest with
  | case1 => exact ⟨_, ⟨by simp, counted ▸ fits, fun _ within _ => by simpa using within⟩, written⟩
  | case2 _ _ c rest kept =>
    refine ⟨_, longestFit_of_full c rest (counted ▸ fits) ?_, written⟩
    simp [escapeChar, kept, counted]
  | case3 _ _ _ c rest kept room ih =>
    rw [append_cons]
    refine ih ?_ (by simp [escape, escapeChar, kept, counted]) (by omega)
    simpa [escape, escapeChar, kept] using written
  | case4 _ _ _ c rest replaced long =>
    refine ⟨_, longestFit_of_full c rest (counted ▸ fits) ?_, written⟩
    rw [escapeChar, if_neg replaced]
    omega
  | case5 _ _ _ c rest replaced room ih =>
    rw [append_cons]
    refine ih ?_ (by simp [escape, escapeChar, replaced, counted]) (by omega)
    simp [escape, escapeChar, replaced, written]

theorem foldlM_escape (text : List Char) (state : List (List Char) × Nat) :
    text.foldlM (pushChar cellWidth maxLines) state =
      (escape text).foldlM (pushCell cellWidth maxLines) state := by
  induction text generalizing state with
  | nil => rfl
  | cons c rest ih =>
    simp only [escape, flatMap_cons, foldlM_append, foldlM_cons, pushChar, escapeChar, ih]
    split <;> simp

/-- **Wire text cannot control the terminal.** -/
theorem safeText_confined (text : String) : (∀ cellBudget,
      (∃ cut, LongestFit cellBudget text.toList cut ∧
        (safeText text cellBudget).toList = escape cut) ∧
      (∀ c ∈ (safeText text cellBudget).toList, safe c) ∧
      (safeText text cellBudget).length ≤ cellBudget) ∧
    ∀ cellWidth maxLines,
      Wraps cellWidth maxLines (escape text.toList) (safeTextLines text cellWidth maxLines) := by
  refine ⟨fun cellBudget => ?_, fun cellWidth maxLines => ?_⟩
  · obtain ⟨cut, longest, eq⟩ : ∃ cut, LongestFit cellBudget ([] ++ text.toList) cut ∧
        safeTextFrom cellBudget none 0 [] text.toList = escape cut :=
      safeTextFrom_longest rfl rfl (Nat.zero_le _)
    have shown : (safeText text cellBudget).toList = escape cut := by
      rw [safeText, String.toList_ofList, eq]
    refine ⟨⟨cut, longest, shown⟩, shown ▸ safe_of_mem_escape, ?_⟩
    rw [← String.length_toList, shown]
    exact longest.fits
  · rw [safeTextLines]
    split
    next none =>
      have area : cellWidth * maxLines = 0 := by simpa using none
      refine ⟨Nat.zero_le _, by simp, by rw [area]; rfl, ?_⟩
      cases text.toList with
      | nil => simp [escape]
      | cons c rest =>
        by_cases kept : safe c <;> simp [escape, escapeChar, kept, replacement]
    next some =>
      obtain ⟨wide, tall⟩ := not_or.mp some
      rw [foldlM_escape]
      exact wraps_foldlM (Nat.pos_of_ne_zero wide) (escape text.toList) [] []
        (Nat.pos_of_ne_zero tall) (Nat.zero_le _) (by simp) rfl

end Gridwork.Tui
