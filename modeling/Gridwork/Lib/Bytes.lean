import Mathlib.Algebra.Order.Ring.Nat
import Mathlib.Data.List.Basic
import Mathlib.Data.List.Induction

/-!
# Byte strings

Numbers of a fixed width in big-endian order, and byte strings cut into pieces of one size.
A string is the concatenation of its pieces, and the piece at an index stands at the index
times the size, whatever follows it; so a reader that knows the size finds any piece without
reading those before it.
-/

namespace Gridwork.Lib

open List Nat

abbrev Bytes := List UInt8

/-! ## Big-endian numbers -/

/-- A number in `width` bytes, the highest first; what does not fit is lost. -/
def toBigEndian : Nat → Nat → Bytes
  | 0, _ => []
  | width + 1, value => toBigEndian width (value / 256) ++ [UInt8.ofNat (value % 256)]

def ofBigEndian (bytes : Bytes) : Nat :=
  bytes.foldl (fun value byte => value * 256 + byte.toNat) 0

@[simp] theorem length_toBigEndian (width value : Nat) :
    (toBigEndian width value).length = width := by
  induction width generalizing value with
  | zero => rfl
  | succ width ih => simp [toBigEndian, ih]

theorem ofBigEndian_toBigEndian {width value : Nat} (fits : value < 256 ^ width) :
    ofBigEndian (toBigEndian width value) = value := by
  induction width generalizing value with
  | zero =>
    have zero : value = 0 := by simpa using fits
    subst zero
    rfl
  | succ width ih =>
    have high : value / 256 < 256 ^ width := by
      rw [div_lt_iff_lt_mul (by decide)]
      rwa [pow_succ] at fits
    have low : (UInt8.ofNat (value % 256)).toNat = value % 256 := by
      simp
    have digits := ih high
    rw [ofBigEndian] at digits
    rw [ofBigEndian, toBigEndian, foldl_append, digits]
    simp only [foldl_cons, foldl_nil, low]
    exact div_add_mod' value 256

theorem ofBigEndian_snoc (bytes : Bytes) (byte : UInt8) :
    ofBigEndian (bytes ++ [byte]) = ofBigEndian bytes * 256 + byte.toNat := by
  rw [ofBigEndian, foldl_append]
  rfl

theorem ofBigEndian_lt (bytes : Bytes) : ofBigEndian bytes < 256 ^ bytes.length := by
  induction bytes using reverseRecOn with
  | nil => decide
  | append_singleton bytes byte ih =>
    have digit : byte.toNat < 256 := byte.toNat_lt
    rw [ofBigEndian_snoc, length_append, length_singleton, pow_succ]
    omega

theorem toBigEndian_ofBigEndian (bytes : Bytes) :
    toBigEndian bytes.length (ofBigEndian bytes) = bytes := by
  induction bytes using reverseRecOn with
  | nil => rfl
  | append_singleton bytes byte ih =>
    have digit : byte.toNat < 256 := byte.toNat_lt
    have high : (ofBigEndian bytes * 256 + byte.toNat) / 256 = ofBigEndian bytes := by omega
    have low : (ofBigEndian bytes * 256 + byte.toNat) % 256 = byte.toNat := by omega
    rw [length_append, length_singleton, toBigEndian, ofBigEndian_snoc, high, low, ih,
      UInt8.ofNat_toNat]

/-! ## Slices -/

variable {Item : Type} {size start count inner index : Nat}
  {items before rest field more : List Item} {bytes : Bytes}

/-- The `count` items from a position on. -/
def slice (items : List Item) (start count : Nat) : List Item :=
  (items.drop start).take count

theorem length_slice
    (inside : start + count ≤ items.length) : (slice items start count).length = count := by
  rw [slice, length_take, length_drop]
  omega

theorem slice_append_right (rest count : Nat) (split : start = before.length + rest) :
    slice (before ++ items) start count = slice items rest count := by
  rw [slice, slice, split, ← drop_drop, drop_left]

theorem slice_append_left
    (whole : count = before.length) : slice (before ++ items) 0 count = before := by
  rw [slice, drop_zero, whole, take_left]

theorem slice_add (items : List Item) (start count more : Nat) : slice items start (count + more) =
      slice items start count ++ slice items (start + count) more := by
  rw [slice, slice, slice, take_add, drop_drop]

theorem slice_append_inj (inside : start + count ≤ items.length) (sized : field.length = count)
    (eq : slice items start count ++ rest = field ++ more) :
    slice items start count = field ∧ rest = more :=
  append_inj eq ((length_slice inside).trans sized.symm)

theorem toBigEndian_slice (inside : start + count ≤ bytes.length) :
    toBigEndian count (ofBigEndian (slice bytes start count)) = slice bytes start count := by
  have written := toBigEndian_ofBigEndian (slice bytes start count)
  rwa [length_slice inside] at written

theorem ofBigEndian_slice_lt (inside : start + count ≤ bytes.length) :
    ofBigEndian (slice bytes start count) < 256 ^ count := by
  have small := ofBigEndian_lt (slice bytes start count)
  rwa [length_slice inside] at small

theorem slice_slice (inside : inner + size ≤ count) :
    slice (slice items start count) inner size = slice items (start + inner) size := by
  have kept : min size (count - inner) = size := by omega
  rw [slice, slice, slice, drop_take, take_take, drop_drop, kept]

/-! ## Pieces -/

def piece (size : Nat) (items : List Item) (index : Nat) : List Item :=
  slice items (index * size) size

theorem drop_flatten (pieces : List (List Item)) (index : Nat)
    (sized : ∀ item ∈ pieces.take index, item.length = size) :
    pieces.flatten.drop (index * size) = (pieces.drop index).flatten := by
  induction index generalizing pieces with
  | zero => simp
  | succ index ih =>
    cases pieces with
    | nil => simp
    | cons first rest =>
      have firstSized : first.length = size := sized first (by simp)
      have restSized : ∀ item ∈ rest.take index, item.length = size := by
        intro item mem
        exact sized item (by simp [mem])
      rw [flatten_cons, succ_mul, add_comm, ← firstSized, ← drop_drop,
        drop_left, drop_succ_cons, firstSized, ih rest restSized]

theorem flatten_pieces (size : Nat) (items : List Item) (first count : Nat) :
    ((List.range' first count).map (piece size items)).flatten =
      slice items (first * size) (count * size) := by
  induction count generalizing first with
  | zero => simp [slice]
  | succ count ih =>
    rw [range'_succ, map_cons, flatten_cons, ih, piece, slice,
      slice, slice, succ_mul first, ← drop_drop, succ_mul count,
      add_comm (count * size), take_add]

theorem length_piece
    (inside : (index + 1) * size ≤ items.length) : (piece size items index).length = size := by
  rw [succ_mul] at inside
  exact length_slice inside

theorem length_piece_le (size : Nat) (items : List Item) (index : Nat) :
    (piece size items index).length ≤ size := by
  rw [piece, slice, length_take]
  exact min_le_left _ _

/-- The pieces a range touches, from the one it starts in to the one it ends in. -/
def touched (size start count : Nat) : List Nat :=
  List.range' (start / size) ((start + count - 1) / size + 1 - start / size)

theorem mem_touched (mem : index ∈ touched size start count) :
    index ≤ (start + count - 1) / size := by
  have bounds := mem_range'_1.mp mem
  omega

theorem touched_covers (positive : 0 < size) (nonempty : 0 < count) :
    start - start / size * size + count ≤
      ((start + count - 1) / size + 1 - start / size) * size := by
  have startsIn : start / size * size ≤ start := Nat.div_mul_le_self ..
  have endsIn : start + count - 1 < ((start + count - 1) / size + 1) * size :=
    (Nat.div_lt_iff_lt_mul positive).mp (Nat.lt_succ_self _)
  rw [Nat.sub_mul]
  omega

theorem le_length_touched (positive : 0 < size) (nonempty : 0 < count)
    (inside : start + count ≤ items.length) :
    start - start / size * size + count ≤
      ((touched size start count).map (piece size items)).flatten.length := by
  have covers : start - start / size * size + count ≤
      ((start + count - 1) / size + 1 - start / size) * size :=
    touched_covers positive nonempty
  have startsIn : start / size * size ≤ start := div_mul_le_self ..
  rw [touched, flatten_pieces, slice, length_take, length_drop]
  omega

theorem slice_touched (positive : 0 < size) (nonempty : 0 < count) :
    slice ((touched size start count).map (piece size items)).flatten
      (start - start / size * size) count = slice items start count := by
  rw [touched, flatten_pieces, slice_slice (touched_covers positive nonempty),
    Nat.add_sub_cancel' (Nat.div_mul_le_self ..)]

end Gridwork.Lib
