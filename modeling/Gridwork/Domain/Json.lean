import Mathlib.Algebra.Order.Ring.Nat
import Mathlib.Data.List.Basic

/-!
# JSON values

Payloads are `serde_json::Value` trees.  A number is kept as the text serde prints
for it; nothing in the program computes with a payload number.  An object is the
list of its members in the order serde keeps them.
-/

namespace Gridwork.Domain

/-- `serde_json::Value`. -/
inductive Json where
  | null
  | bool (value : Bool)
  | number (text : String)
  | string (value : String)
  | array (items : List Json)
  | object (members : List (String × Json))
  deriving Repr

namespace Json

/-! ## Decidable equality -/

mutual

def decEq : (left right : Json) → Decidable (left = right)
  | .null, .null => isTrue rfl
  | .bool left, .bool right =>
    if eq : left = right then isTrue (eq ▸ rfl) else isFalse fun h => eq (Json.bool.inj h)
  | .number left, .number right =>
    if eq : left = right then isTrue (eq ▸ rfl) else isFalse fun h => eq (Json.number.inj h)
  | .string left, .string right =>
    if eq : left = right then isTrue (eq ▸ rfl) else isFalse fun h => eq (Json.string.inj h)
  | .array left, .array right =>
    match decEqItems left right with
    | isTrue eq => isTrue (eq ▸ rfl)
    | isFalse ne => isFalse fun h => ne (Json.array.inj h)
  | .object left, .object right =>
    match decEqMembers left right with
    | isTrue eq => isTrue (eq ▸ rfl)
    | isFalse ne => isFalse fun h => ne (Json.object.inj h)
  | .null, .bool _ | .null, .number _ | .null, .string _ | .null, .array _ | .null, .object _
  | .bool _, .null | .bool _, .number _ | .bool _, .string _ | .bool _, .array _
  | .bool _, .object _
  | .number _, .null | .number _, .bool _ | .number _, .string _ | .number _, .array _
  | .number _, .object _
  | .string _, .null | .string _, .bool _ | .string _, .number _ | .string _, .array _
  | .string _, .object _
  | .array _, .null | .array _, .bool _ | .array _, .number _ | .array _, .string _
  | .array _, .object _
  | .object _, .null | .object _, .bool _ | .object _, .number _ | .object _, .string _
  | .object _, .array _ => isFalse nofun

def decEqItems : (left right : List Json) → Decidable (left = right)
  | [], [] => isTrue rfl
  | [], _ :: _ | _ :: _, [] => isFalse nofun
  | left :: lefts, right :: rights =>
    match decEq left right, decEqItems lefts rights with
    | isTrue head, isTrue tail => isTrue (head ▸ tail ▸ rfl)
    | isFalse ne, _ => isFalse fun h => ne (List.cons.inj h).1
    | _, isFalse ne => isFalse fun h => ne (List.cons.inj h).2

def decEqMembers : (left right : List (String × Json)) → Decidable (left = right)
  | [], [] => isTrue rfl
  | [], _ :: _ | _ :: _, [] => isFalse nofun
  | (leftName, left) :: lefts, (rightName, right) :: rights =>
    match decEq left right, decEqMembers lefts rights with
    | isTrue head, isTrue tail =>
      if eq : leftName = rightName then isTrue (eq ▸ head ▸ tail ▸ rfl)
      else isFalse fun h => eq (Prod.mk.inj (List.cons.inj h).1).1
    | isFalse ne, _ => isFalse fun h => ne (Prod.mk.inj (List.cons.inj h).1).2
    | _, isFalse ne => isFalse fun h => ne (List.cons.inj h).2

end

instance : DecidableEq Json := decEq

/-! ## Reading -/

/-- `Value::get` with a string index: only an object has members. -/
def get (name : String) : Json → Option Json
  | .object members => members.lookup name
  | _ => none

def asStr : Json → Option String
  | .string value => some value
  | _ => none

def asArray : Json → Option (List Json)
  | .array items => some items
  | _ => none

/-! ## Serialized length -/

/-- Bytes serde_json writes for one character of a string: the short escapes take
two, the other control characters six, and everything else its UTF-8 length. -/
def escapedSize (c : Char) : Nat :=
  if c = '"' ∨ c = '\\' ∨ c = '\n' ∨ c = '\r' ∨ c = '\t' ∨ c.toNat = 8 ∨ c.toNat = 12 then 2
  else if c.toNat < 32 then 6
  else c.utf8Size

def quotedSize (value : String) : Nat :=
  (value.toList.map escapedSize).sum + 2

mutual

/-- The length of `serde_json::to_string`. -/
def renderedSize : Json → Nat
  | .null => 4
  | .bool true => 4
  | .bool false => 5
  | .number text => text.utf8ByteSize
  | .string value => quotedSize value
  | .array items => 2 + (items.length - 1) + itemsSize items
  | .object members => 2 + (members.length - 1) + membersSize members

def itemsSize : List Json → Nat
  | [] => 0
  | item :: rest => renderedSize item + itemsSize rest

def membersSize : List (String × Json) → Nat
  | [] => 0
  | (name, value) :: rest => quotedSize name + 1 + renderedSize value + membersSize rest

end

/-- `{"from":"a","to":[null,true]}` is 29 bytes long. -/
example : renderedSize (.object [("from", .string "a"), ("to", .array [.null, .bool true])]) =
    29 := by
  decide

end Json

end Gridwork.Domain
