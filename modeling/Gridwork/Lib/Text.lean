import Mathlib.Algebra.Order.Ring.Nat
import Mathlib.Data.List.Basic

/-!
# Joined texts

When two joined texts can be equal.  Texts that begin differently differ; a text cut at
the first and at the last colon is determined by its pieces, as long as the outer pieces
hold no colon; and a number is written without one.
-/

namespace Gridwork.Lib

open List String

/-- One character of Rust's `{:?}` rendering of a string.  A character outside ASCII is shown as it
is; Rust escapes those among them that its Unicode tables call unprintable. -/
def debugChar (c : Char) : String :=
  match c with
  | '"' => "\\\""
  | '\\' => "\\\\"
  | '\n' => "\\n"
  | '\r' => "\\r"
  | '\t' => "\\t"
  | _ =>
    if c.toNat = 0 then "\\0"
    else if c.toNat < 32 ∨ c.toNat = 127 then
      "\\u\x7b" ++ ofList (Nat.toDigits 16 c.toNat) ++ "\x7d"
    else String.singleton c

/-- Rust's `{:?}` rendering of a string. -/
def debugStr (text : String) : String :=
  "\"" ++ join (text.toList.map debugChar) ++ "\""

theorem append_ne_append {left right leftRest rightRest : String}
    (leftApart : left.toList.isPrefixOf right.toList = false)
    (rightApart : right.toList.isPrefixOf left.toList = false) :
    left ++ leftRest ≠ right ++ rightRest := by
  intro eq
  have lists : left.toList ++ leftRest.toList = right.toList ++ rightRest.toList := by
    rw [← toList_append, ← toList_append, eq]
  have leftPrefix : left.toList <+: right.toList ++ rightRest.toList := ⟨_, lists⟩
  rcases prefix_or_prefix_of_prefix leftPrefix (prefix_append _ _) with inside | inside
  · rw [List.isPrefixOf_iff_prefix.mpr inside] at leftApart
    cases leftApart
  · rw [List.isPrefixOf_iff_prefix.mpr inside] at rightApart
    cases rightApart

theorem append_cons_inj {Item : Type} {separator : Item} {left right leftRest rightRest : List Item}
    (leftFree : separator ∉ left) (rightFree : separator ∉ right)
    (eq : left ++ separator :: leftRest = right ++ separator :: rightRest) :
    left = right ∧ leftRest = rightRest := by
  induction left generalizing right with
  | nil =>
    cases right with
    | nil =>
      cases eq
      exact ⟨rfl, rfl⟩
    | cons first rest =>
      cases eq
      exact absurd mem_cons_self rightFree
  | cons item left ih =>
    cases right with
    | nil =>
      cases eq
      exact absurd mem_cons_self leftFree
    | cons first right =>
      simp only [cons_append, List.cons.injEq] at eq
      obtain ⟨sameHead, sameTail⟩ := eq
      obtain ⟨sameLeft, sameRest⟩ := ih (fun mem => leftFree (mem_cons_of_mem _ mem))
        (fun mem => rightFree (mem_cons_of_mem _ mem)) sameTail
      exact ⟨by rw [sameHead, sameLeft], sameRest⟩

theorem colonJoin_inj {first mid last first' middle' last' : String}
    (firstFree : ':' ∉ first.toList) (firstFree' : ':' ∉ first'.toList)
    (lastFree : ':' ∉ last.toList) (lastFree' : ':' ∉ last'.toList)
    (eq : first ++ ":" ++ mid ++ ":" ++ last = first' ++ ":" ++ middle' ++ ":" ++ last') :
    first = first' ∧ mid = middle' ∧ last = last' := by
  have lists : first.toList ++ ':' :: (mid.toList ++ ':' :: last.toList) =
      first'.toList ++ ':' :: (middle'.toList ++ ':' :: last'.toList) := by
    have whole := congrArg toList eq
    simpa [toList_append] using whole
  obtain ⟨sameFirst, sameTail⟩ := append_cons_inj firstFree firstFree' lists
  -- the last piece is cut off from the other end
  have reversed : last.toList.reverse ++ ':' :: mid.toList.reverse =
      last'.toList.reverse ++ ':' :: middle'.toList.reverse := by
    simpa using congrArg List.reverse sameTail
  obtain ⟨sameLast, sameMiddle⟩ := append_cons_inj (by simpa using lastFree)
    (by simpa using lastFree') reversed
  exact ⟨toList_inj.mp sameFirst, toList_inj.mp (reverse_injective sameMiddle),
    toList_inj.mp (reverse_injective sameLast)⟩

theorem colon_notMem_toString (number : Nat) : ':' ∉ (toString number).toList := by
  intro mem
  rw [Nat.toString_eq_ofList_toDigits, toList_ofList] at mem
  have digit := Nat.isDigit_of_mem_toDigits (by decide) (by decide) mem
  exact absurd digit (by decide)

end Gridwork.Lib
