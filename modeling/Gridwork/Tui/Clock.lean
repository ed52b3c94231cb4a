import Mathlib

/-!
# The client's clock

The console reads a stamp only when it is spelled the way the client spells its own, with a final
`Z`.  The rows of the kernel carry PostgreSQL's spelling, with a numeric offset, and none of them is
read: `timestampSeconds_kernelStamp`.
-/

namespace Gridwork.Tui

/-! ## Spelling -/

/-- Howard Hinnant's algorithm, with the truncating divisions of the source. -/
def civilFromDays (days : Int) : Int × Nat × Nat :=
  let z := days + 719468
  let era := (if z ≥ 0 then z else z - 146096).tdiv 146097
  let doe := z - era * 146097
  let yoe := (doe - doe.tdiv 1460 + doe.tdiv 36524 - doe.tdiv 146096).tdiv 365
  let y := yoe + era * 400
  let doy := doe - (365 * yoe + yoe.tdiv 4 - yoe.tdiv 100)
  let mp := (5 * doy + 2).tdiv 153
  let d := doy - (153 * mp + 2).tdiv 5 + 1
  let m := if mp < 10 then mp + 3 else mp - 9
  (if m ≤ 2 then y + 1 else y, m.toNat, d.toNat)

def padded (width value : Nat) : String :=
  String.ofList ((Nat.toDigits 10 value).leftpad width '0')

/-- The date and the time of day, which both spellings share. -/
def dateTime (secs : Nat) : String :=
  let (year, month, day) := civilFromDays (secs / 86400 : Nat)
  let rest := secs % 86400
  s!"{padded 4 year.toNat}-{padded 2 month}-{padded 2 day}T" ++
    s!"{padded 2 (rest / 3600)}:{padded 2 (rest % 3600 / 60)}:{padded 2 (rest % 60)}"

def rfc3339 (secs : Nat) : String :=
  dateTime secs ++ "Z"

/-- A row's `timestamptz` as `to_json` renders it in a session pinned to UTC, from microseconds
since the epoch: trailing zeros of the fraction are dropped. -/
def kernelStamp (micros : Nat) : String :=
  let fraction := (padded 6 (micros % 1000000)).toList.rdropWhile (· = '0')
  dateTime (micros / 1000000) ++ (if fraction = [] then "" else "." ++ String.ofList fraction) ++
    "+00:00"

/-! ## Reading -/

def daysFromCivil (year month day : Int) : Int :=
  let year := year - if month ≤ 2 then 1 else 0
  let era := (if year ≥ 0 then year else year - 399).tdiv 400
  let yearOfEra := year - era * 400
  let monthPrime := month + if month > 2 then -3 else 9
  let dayOfYear := (153 * monthPrime + 2).tdiv 5 + day - 1
  let dayOfEra := yearOfEra * 365 + yearOfEra.tdiv 4 - yearOfEra.tdiv 100 + dayOfYear
  era * 146097 + dayOfEra - 719468

/-- `parse::<i64>` of a few characters: a sign is accepted. -/
def parseNumber (text : List Char) : Option Int :=
  let decimal (digits : List Char) : Option Int :=
    if digits ≠ [] ∧ digits.all Char.isDigit then
      some (digits.foldl (fun value digit => value * 10 + (digit.toNat - '0'.toNat)) 0)
    else none
  match text with
  | '-' :: digits => (decimal digits).map fun value => -value
  | '+' :: digits => decimal digits
  | digits => decimal digits

/-- `timestamp_seconds`.  Every position it looks at before the end holds an ASCII character or the
answer is nothing, so positions are those of characters. -/
def timestampSeconds (value : String) : Option Int := do
  let chars := value.toList
  let number (start stop : Nat) := parseNumber ((chars.take stop).drop start)
  guard (¬ chars.length < 20 ∧ chars[4]? = some '-' ∧ chars[7]? = some '-' ∧ chars[10]? = some 'T' ∧
    chars[13]? = some ':' ∧ chars[16]? = some ':' ∧ chars.getLast? = some 'Z')
  let year ← number 0 4
  let month ← number 5 7
  let day ← number 8 10
  let hour ← number 11 13
  let minute ← number 14 16
  let second ← number 17 19
  guard ((1 ≤ month ∧ month ≤ 12) ∧ (1 ≤ day ∧ day ≤ 31) ∧ (0 ≤ hour ∧ hour ≤ 23) ∧
    (0 ≤ minute ∧ minute ≤ 59) ∧ 0 ≤ second ∧ second ≤ 60)
  return daysFromCivil year month day * 86400 + (hour * 3600 + minute * 60 + second)

def elapsed (now started : String) : Option String := do
  let seconds := (← timestampSeconds now) - (← timestampSeconds started)
  guard (0 ≤ seconds)
  let seconds := seconds.toNat
  return if seconds < 60 then s!"{seconds}s"
    else if seconds < 3600 then s!"{seconds / 60}m"
    else if seconds < 86400 then s!"{seconds / 3600}h{padded 2 (seconds % 3600 / 60)}"
    else s!"{seconds / 86400}d{seconds % 86400 / 3600}h"

theorem timestampSeconds_eq_none {value : String} (other : value.toList.getLast? ≠ some 'Z') :
    timestampSeconds value = none := by
  simp [timestampSeconds, other, failure]

/-- **The client reads no stamp of the kernel.**  Whatever the instant, the kernel's spelling of it
is no number of seconds to the client, and nothing has elapsed since it or until it. -/
theorem timestampSeconds_kernelStamp (micros : Nat) : timestampSeconds (kernelStamp micros) = none ∧
      ∀ other, elapsed (kernelStamp micros) other = none ∧
        elapsed other (kernelStamp micros) = none := by
  have unread : timestampSeconds (kernelStamp micros) = none := by
    refine timestampSeconds_eq_none ?_
    simp [kernelStamp, String.toList_append]
  refine ⟨unread, fun other => ?_⟩
  constructor
  · simp [elapsed, unread]
  · simp [elapsed, unread]

/-- Half a second after the epoch is read as nothing, and as text it comes before the epoch. -/
theorem kernelStamp_unread_half :
    timestampSeconds (rfc3339 0) = some 0 ∧ timestampSeconds (kernelStamp 500000) = none ∧
      kernelStamp 500000 < rfc3339 0 := by
  decide +kernel

end Gridwork.Tui
