import PlanAssistant.Instant
import PlanAssistant.Json
import PlanAssistant.Text.Blank
import PlanAssistant.Text.Search

/-!
Checking values of the data formats against what a record asks for.  A check either gives a value or
the list of everything that is wrong, each fault with the place it was found at.  Texts that write a
number, a truth value or a time are accepted for one; a text itself has to be a text.
-/
namespace PlanAssistant

/-- What is wrong with one value. -/
inductive Fault where
  | missing
  | notText
  | notWhole
  | unreadableWhole
  | tooLongWhole
  | fraction
  | notFinite
  | notNumber
  | unreadableNumber
  | notTruth
  | unreadableTruth
  | notListed
  | notList
  | notRecord
  | notMoment
  | unreadableMoment
  | momentOutOfRange
  | notAbove
  | below
  | beyond
  | inconsistent
deriving DecidableEq, Repr

/-- The word that reports a fault. -/
def Fault.word : Fault → String
  | missing => "missing"
  | notText => "string_type"
  | notWhole => "int_type"
  | unreadableWhole => "int_parsing"
  | tooLongWhole => "int_parsing_size"
  | fraction => "int_from_float"
  | notFinite => "finite_number"
  | notNumber => "float_type"
  | unreadableNumber => "float_parsing"
  | notTruth => "bool_type"
  | unreadableTruth => "bool_parsing"
  | notListed => "enum"
  | notList => "list_type"
  | notRecord => "model_type"
  | notMoment => "datetime_type"
  | unreadableMoment => "datetime_from_date_parsing"
  | momentOutOfRange => "datetime_parsing"
  | notAbove => "greater_than"
  | below => "greater_than_equal"
  | beyond => "less_than_equal"
  | inconsistent => "value_error"

/-- A fault and the names and positions that lead to it. -/
structure Failure where
  place : List String
  fault : Fault
deriving DecidableEq, Repr

def Failure.text (failure : Failure) : String :=
  ".".intercalate failure.place ++ ": " ++ failure.fault.word

/-- A value that passed its check, or all failures in the order found. -/
inductive Checked (α : Type) where
  | passed (value : α)
  | failed (failures : List Failure)

namespace Checked

variable {α β : Type}

/-- The failures of both sides count. -/
def both : Checked (α → β) → Checked α → Checked β
  | passed f, passed x => passed (f x)
  | passed _, failed later => failed later
  | failed earlier, passed _ => failed earlier
  | failed earlier, failed later => failed (earlier ++ later)

instance : Applicative Checked where
  pure := passed
  seq f x := both f (x ())

/-- A further check on a value that passed. -/
def andThen (checked : Checked α) (next : α → Checked β) : Checked β :=
  match checked with
  | passed x => next x
  | failed failures => failed failures

/-- The failures seen from one level further out. -/
def within (name : String) : Checked α → Checked α
  | passed x => passed x
  | failed failures => failed (failures.map fun f => { f with place := name :: f.place })

def fault (f : Fault) : Checked α := failed [⟨[], f⟩]

def ensure (test : α → Bool) (f : Fault) (checked : Checked α) : Checked α :=
  checked.andThen fun x => if test x then passed x else fault f

def value? : Checked α → Option α
  | passed x => some x
  | failed _ => none

/-- All failures in one line; nothing for a value that passed. -/
def message : Checked α → String
  | passed _ => ""
  | failed failures => "; ".intercalate (failures.map Failure.text)

end Checked

namespace Validation

variable {α : Type}

/-- White space in the sense of numbers written as text. -/
def isPadding (c : Char) : Bool := Text.isBlank c && !(0x1C ≤ c.toNat && c.toNat ≤ 0x1F)

def trim (text : String) : List Char := Text.stripWhile isPadding text.toList

/-! ### Texts and words -/

def text : Datum → Checked String
  | .text s => .passed s
  | _ => .fault .notText

/-- One of the named values, by its exact name. -/
def oneOf (names : List (String × α)) : Datum → Checked α
  | .text s =>
    match names.find? (·.1 == s) with
    | some (_, value) => .passed value
    | none => .fault .notListed
  | _ => .fault .notListed

/-! ### Numbers -/

/-- The digits of a run in which single underscores may stand between digits. -/
def joinedDigits? (cs : List Char) : Option (List Char) :=
  let pieces := Text.splitOn '_' cs
  if pieces.all fun piece => !piece.isEmpty && piece.all Text.isAsciiDigit then some pieces.flatten
  else none

def splitSign : List Char → Bool × List Char
  | '-' :: rest => (true, rest)
  | '+' :: rest => (false, rest)
  | cs => (false, cs)

/-- A whole number written as text: a sign, digits, and a point with nothing but zeros after it. -/
def wholeOfText (s : String) : Checked Int :=
  let (negative, unsigned) := splitSign (trim s)
  let (before, after) := unsigned.span (· != '.')
  if !(after.drop 1).all (· == '0') then .fault .unreadableWhole
  else match joinedDigits? before with
    | none => .fault .unreadableWhole
    | some digits =>
      if Json.digitLimit < digits.length then .fault .tooLongWhole
      else
        let n : Int := Text.digitsValue digits
        .passed (if negative then -n else n)

/-- The whole number a double stands for, if it has no fraction. -/
def wholeOfFloat (x : Float) : Checked Int :=
  match Decimal.ratio? x with
  | none => .fault .notFinite
  | some (num, den) =>
    if num % den != 0 then .fault .fraction
    else
      let n : Int := (num / den : Nat)
      .passed (if Decimal.isNegative x then -n else n)

def whole : Datum → Checked Int
  | .int n => .passed n
  | .bool b => .passed (if b then 1 else 0)
  | .float x => wholeOfFloat x
  | .text s => wholeOfText s
  | _ => .fault .notWhole

/-- Digits with at most one point among them, as a number and its count of places. -/
def readPoint? (cs : List Char) : Option (Nat × Nat) :=
  let (before, after) := cs.span (· != '.')
  let places := after.drop 1
  if (before ++ places).isEmpty || !(before ++ places).all Text.isAsciiDigit then none
  else some (Text.digitsValue (before ++ places), places.length)

def readPower? (cs : List Char) : Option Int :=
  let (negative, digits) := splitSign cs
  if digits.isEmpty || !digits.all Text.isAsciiDigit then none
  else
    let n : Int := Text.digitsValue digits
    some (if negative then -n else n)

/-- A double written without underscores: a sign, then a decimal with an exponent or a word. -/
def plainFloat? (cs : List Char) : Option Float := do
  let (negative, unsigned) := splitSign cs
  let word := unsigned.map Char.toLower
  if word == "inf".toList || word == "infinity".toList then
    return if negative then -1.0 / 0.0 else 1.0 / 0.0
  if word == "nan".toList then return 0.0 / 0.0
  let (digits, power) := unsigned.span (fun c => !(c == 'e' || c == 'E'))
  let (number, places) ← readPoint? digits
  let exponent ← if power.isEmpty then some 0 else readPower? (power.drop 1)
  return Decimal.ofScientific negative number (exponent - places)

/-- Single underscores inside a number are passed over. -/
def withoutUnderscores? (cs : List Char) : Option (List Char) :=
  let pieces := Text.splitOn '_' cs
  if pieces.any List.isEmpty then none else some pieces.flatten

def floatOfText (s : String) : Checked Float :=
  match (withoutUnderscores? (trim s)).bind plainFloat? with
  | some x => .passed x
  | none => .fault .unreadableNumber

def float : Datum → Checked Float
  | .float x => .passed x
  | .bool b => .passed (if b then 1 else 0)
  | .int n =>
    match Decimal.ofInt? n with
    | some x => .passed x
    | none => .fault .notNumber
  | .text s => floatOfText s
  | _ => .fault .notNumber

/-! ### Truth values -/

def truthWords : List (String × Bool) :=
  [("1", true), ("t", true), ("true", true), ("y", true), ("yes", true), ("on", true),
   ("0", false), ("f", false), ("false", false), ("n", false), ("no", false), ("off", false)]

def truthOfInt (n : Int) : Checked Bool :=
  if n == 0 then .passed false
  else if n == 1 then .passed true
  else if (Decimal.ofInt? n).isNone then .fault .notTruth
  else .fault .unreadableTruth

def truth : Datum → Checked Bool
  | .bool b => .passed b
  | .int n => truthOfInt n
  | .float x =>
    match wholeOfFloat x with
    | .passed n => truthOfInt n
    | .failed _ => .fault .notTruth
  | .text s =>
    match truthWords.find? (·.1 == String.ofList (s.toList.map Char.toLower)) with
    | some (_, b) => .passed b
    | none => .fault .unreadableTruth
  | _ => .fault .notTruth

/-! ### Moments -/

def momentOfUnix (time : Int) (microsecond : Nat) : Checked Instant :=
  match Instant.ofUnix? time microsecond with
  | some t => .passed t
  | none => .fault .momentOutOfRange

/-- A Unix time with a fraction: the whole seconds below it, and its fraction to the microsecond. -/
def momentOfFloat (x : Float) : Checked Instant :=
  match Decimal.ratio? x with
  | none => .fault .momentOutOfRange
  | some (num, den) =>
    let seconds : Int := if Decimal.isNegative x then -((num + den - 1) / den : Nat) else (num / den : Nat)
    momentOfUnix seconds ((num % den * 2000000 + den) / (2 * den))

/-- A Unix time written in digits. -/
def unixOfText? (s : String) : Option (Int × Nat) := do
  let (negative, unsigned) := splitSign s.toList
  let (before, after) := unsigned.span (· != '.')
  let places := after.drop 1
  if before.isEmpty || !(before ++ places).all Text.isAsciiDigit then none
  let n : Int := Text.digitsValue before
  let micros := Text.digitsValue ((places ++ List.replicate 6 '0').take 6)
  return if negative && micros != 0 then (-n - 1, micros) else (if negative then -n else n, micros)

def moment : Datum → Checked Instant
  | .text s =>
    match Instant.ofIso? s, unixOfText? s with
    | some t, _ => .passed t
    | none, some (time, micros) =>
      match Instant.ofUnix? time micros with
      | some t => .passed t
      | none => .fault .unreadableMoment
    | none, none => .fault .unreadableMoment
  | .int n => momentOfUnix n 0
  | .float x => momentOfFloat x
  | _ => .fault .notMoment

/-! ### Records and lists -/

abbrev Fields := List (String × Datum)

/-- A field that has to be there. -/
def required (name : String) (check : Datum → Checked α) (fields : Fields) : Checked α :=
  match Datum.lookup name fields with
  | some value => (check value).within name
  | none => (Checked.fault .missing).within name

/-- A field that counts as `absent` when it is not there. -/
def optional (name : String) (check : Datum → Checked α) (absent : α) (fields : Fields) : Checked α :=
  match Datum.lookup name fields with
  | some value => (check value).within name
  | none => .passed absent

def orNull (check : Datum → Checked α) : Datum → Checked (Option α)
  | .null => .passed none
  | value => some <$> check value

def record (check : Fields → Checked α) : Datum → Checked α
  | .record fields => check fields
  | _ => .fault .notRecord

/-- The checks of the items from position `i` on. -/
def itemsFrom (check : Datum → Checked α) (i : Nat) : List Datum → Checked (List α)
  | [] => .passed []
  | item :: rest => List.cons <$> (check item).within (toString i) <*> itemsFrom check (i + 1) rest

def list (check : Datum → Checked α) : Datum → Checked (List α)
  | .list items => itemsFrom check 0 items
  | _ => .fault .notList

/-! ### Bounds -/

def atLeast (low : Int) (check : Datum → Checked Int) (value : Datum) : Checked Int :=
  (check value).ensure (low ≤ ·) .below

def above (low : Int) (check : Datum → Checked Int) (value : Datum) : Checked Int :=
  (check value).ensure (low < ·) .notAbove

def floatAtLeast (low : Float) (check : Datum → Checked Float) (value : Datum) : Checked Float :=
  (check value).ensure (low ≤ ·) .below

def floatAtMost (high : Float) (check : Datum → Checked Float) (value : Datum) : Checked Float :=
  (check value).ensure (· ≤ high) .beyond

end Validation
end PlanAssistant
