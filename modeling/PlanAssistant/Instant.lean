import PlanAssistant.Datum
import PlanAssistant.Text.Digit

/-!
Points in time: a calendar date, a time of day to the microsecond and, unless the time is plain, an
offset from UTC in minutes.  They are read from ISO texts and from Unix times, and written back in ISO
form, as a UTC time stamp, and as the stamp of a file name.  Days are counted in the proleptic
Gregorian calendar, of which the years 1 to 9999 exist.
-/
namespace PlanAssistant

structure Instant where
  year : Nat
  month : Nat
  day : Nat
  hour : Nat
  minute : Nat
  second : Nat
  microsecond : Nat
  /-- Minutes east of UTC; a time without one is taken as UTC. -/
  offset : Option Int
deriving DecidableEq, Repr, Inhabited

namespace Instant

def isLeap (year : Nat) : Bool := year % 4 == 0 && (year % 100 != 0 || year % 400 == 0)

def daysInMonth (year month : Nat) : Nat :=
  if month == 2 then (if isLeap year then 29 else 28)
  else if month == 4 || month == 6 || month == 9 || month == 11 then 30 else 31

def daysBeforeYear (year : Nat) : Nat :=
  let y := year - 1
  y * 365 + y / 4 - y / 100 + y / 400

def daysBeforeMonth (year month : Nat) : Nat :=
  (List.range (month - 1)).foldl (fun days m => days + daysInMonth year (m + 1)) 0

/-- Days since the first of January of the year 1, which is day 0. -/
def dayNumber (year month day : Nat) : Nat :=
  daysBeforeYear year + daysBeforeMonth year month + (day - 1)

def monthFrom (year month left : Nat) : Nat → Nat × Nat
  | 0 => (month, left + 1)
  | more + 1 =>
    if left < daysInMonth year month then (month, left + 1)
    else monthFrom year (month + 1) (left - daysInMonth year month) more

/-- The date with a given day number: a first guess at the year is at most one too high. -/
def ofDayNumber (n : Nat) : Nat × Nat × Nat :=
  let guess := n * 400 / 146097 + 1
  let year := if daysBeforeYear (guess + 1) ≤ n then guess + 1
    else if n < daysBeforeYear guess then guess - 1 else guess
  let (month, day) := monthFrom year 1 (n - daysBeforeYear year) 11
  (year, month, day)

def secondsOfDay (t : Instant) : Nat := t.hour * 3600 + t.minute * 60 + t.second

/-- Seconds since midnight at the start of the year 1, on the clock the time was read from. -/
def clockSeconds (t : Instant) : Nat := dayNumber t.year t.month t.day * 86400 + t.secondsOfDay

/-- Seconds from the start of the year 1 to the start of the year 1970. -/
def epochSeconds : Nat := 62135596800

/-- Seconds in the years 1 to 9999. -/
def lastSeconds : Nat := 315537897600

/-- The time so many seconds after the start of the year 1. -/
def ofClockSeconds (n microsecond : Nat) (offset : Option Int) : Instant :=
  let (year, month, day) := ofDayNumber (n / 86400)
  let s := n % 86400
  ⟨year, month, day, s / 3600, s / 60 % 60, s % 60, microsecond, offset⟩

/-- Why a time has no place on the UTC calendar. -/
inductive RangeError where
  | outOfRange
  | yearZero
deriving DecidableEq, Repr

def RangeError.message : RangeError → String
  | outOfRange => "date value out of range"
  | yearZero => "year 0 is out of range"

/-- The same moment on the UTC clock.  The first day of the calendar has no UTC reading for a plain
time, since settling its offset looks one day back. -/
def toUtc (t : Instant) : Except RangeError Instant :=
  match t.offset with
  | none =>
    if t.clockSeconds < 86400 then .error .yearZero else .ok { t with offset := some 0 }
  | some minutes =>
    let n : Int := t.clockSeconds - minutes * 60
    if n < 0 || lastSeconds ≤ n then .error .outOfRange
    else .ok (ofClockSeconds n.toNat t.microsecond (some 0))

/-- The moment so many hours later. -/
def addHours (t : Instant) (hours : Nat) : Instant :=
  ofClockSeconds (t.clockSeconds + hours * 3600) t.microsecond t.offset

/-! ### Writing -/

def pad (width n : Nat) : String :=
  let digits := Nat.toDigits 10 n
  String.ofList (List.replicate (width - digits.length) '0' ++ digits)

def dateTimeText (t : Instant) : String :=
  pad 4 t.year ++ "-" ++ pad 2 t.month ++ "-" ++ pad 2 t.day ++ "T" ++
    pad 2 t.hour ++ ":" ++ pad 2 t.minute ++ ":" ++ pad 2 t.second

def offsetText : Option Int → String
  | none => ""
  | some minutes =>
    (if minutes < 0 then "-" else "+") ++
      pad 2 (minutes.natAbs / 60) ++ ":" ++ pad 2 (minutes.natAbs % 60)

/-- ISO form, with microseconds unless there are none. -/
def isoText (t : Instant) : String :=
  t.dateTimeText ++ (if t.microsecond == 0 then "" else "." ++ pad 6 t.microsecond) ++
    offsetText t.offset

/-- The UTC time stamp to the millisecond, later digits cut off. -/
def timestamp (t : Instant) : Except RangeError String :=
  t.toUtc.map fun u => u.dateTimeText ++ "." ++ pad 3 (u.microsecond / 1000) ++ "Z"

/-- The stamp of a file name, on the clock the time was read from; the year is not filled up. -/
def fileStamp (t : Instant) : String :=
  pad 0 t.year ++ pad 2 t.month ++ pad 2 t.day ++ "-" ++
    pad 2 t.hour ++ pad 2 t.minute ++ pad 2 t.second

/-! ### Reading -/

/-- A number of exactly `width` ASCII digits. -/
def readDigits? (width : Nat) (cs : List Char) : Option (Nat × List Char) :=
  let digits := cs.take width
  if digits.length == width && digits.all Text.isAsciiDigit then
    some (digits.foldl (fun n c => n * 10 + (c.toNat - 48)) 0, cs.drop width)
  else none

def readMark? (marks : List Char) : List Char → Option (List Char)
  | c :: rest => if marks.contains c then some rest else none
  | [] => none

def readDate? (cs : List Char) : Option ((Nat × Nat × Nat) × List Char) := do
  let (year, cs) ← readDigits? 4 cs
  let cs ← readMark? ['-'] cs
  let (month, cs) ← readDigits? 2 cs
  let cs ← readMark? ['-'] cs
  let (day, cs) ← readDigits? 2 cs
  if 1 ≤ year && 1 ≤ month && month ≤ 12 && 1 ≤ day && day ≤ daysInMonth year month then
    some ((year, month, day), cs)
  else none

/-- The seconds, when given, and their fraction in microseconds, further digits cut off. -/
def readSeconds? (cs : List Char) : Option ((Nat × Nat) × List Char) :=
  match cs with
  | ':' :: rest => do
    let (second, cs) ← readDigits? 2 rest
    if 60 ≤ second then none
    else match readMark? ['.', ','] cs with
      | none => some ((second, 0), cs)
      | some cs =>
        let (digits, after) := cs.span Text.isAsciiDigit
        if digits.isEmpty then none
        else
          let six := (digits ++ List.replicate 6 '0').take 6
          some ((second, six.foldl (fun n c => n * 10 + (c.toNat - 48)) 0), after)
  | _ => some ((0, 0), cs)

/-- The offset at the end of a text, under a day. -/
def readOffset? (cs : List Char) : Option (Option Int) :=
  match cs with
  | [] => some none
  | [c] => if c == 'Z' || c == 'z' then some (some 0) else none
  | sign :: rest => do
    if !(sign == '+' || sign == '-' || sign == '−') then none
    let (hours, rest) ← readDigits? 2 rest
    let rest := match rest with
      | ':' :: more => more
      | _ => rest
    let (minutes, rest) ← readDigits? 2 rest
    if !rest.isEmpty || 60 ≤ minutes || 24 ≤ hours then none
    let total : Int := hours * 60 + minutes
    some (some (if sign == '+' then total else -total))

def ofIso? (text : String) : Option Instant := do
  let ((year, month, day), cs) ← readDate? text.toList
  if cs.isEmpty then return ⟨year, month, day, 0, 0, 0, 0, none⟩
  let cs ← readMark? ['T', 't', ' ', '_'] cs
  let (hour, cs) ← readDigits? 2 cs
  let cs ← readMark? [':'] cs
  let (minute, cs) ← readDigits? 2 cs
  let ((second, microsecond), cs) ← readSeconds? cs
  let offset ← readOffset? cs
  if 24 ≤ hour || 60 ≤ minute then none
  return ⟨year, month, day, hour, minute, second, microsecond, offset⟩

/-- Unix times beyond this many seconds either way are taken as milliseconds. -/
def millisecondsBeyond : Nat := 20000000000

/-- The moment of a Unix time, on the UTC clock. -/
def ofUnix? (time : Int) (microsecond : Nat) : Option Instant :=
  let (seconds, extra) :=
    if time.natAbs ≤ millisecondsBeyond then (time, 0)
    else (time.fdiv 1000, (time.fmod 1000 * 1000).toNat)
  let n : Int := seconds + epochSeconds
  if n < 0 || lastSeconds ≤ n then none
  else some (ofClockSeconds n.toNat (microsecond + extra) (some 0))

end Instant
end PlanAssistant
