import PlanAssistant.Datum
import PlanAssistant.Text.Digit
import PlanAssistant.Interpreter

/-!
Reading JSON.  Besides the standard's values the three names `NaN`, `Infinity` and `-Infinity` are
numbers.  A number without fraction and exponent is a whole number of any size up to 4300 digits; values
may nest as deep as the interpreter goes.  The two limits are told apart from text that is no JSON at all.
-/
namespace PlanAssistant.Json

inductive Error where
  | malformed
  | tooManyDigits (count : Nat)
  | nestedTooDeep
deriving DecidableEq, Repr

/-- The most digits a whole number may have. -/
def digitLimit : Nat := 4300

/-- What is said of a whole number with too many digits. -/
def tooManyDigitsMessage (count : Nat) : String :=
  "Exceeds the limit (" ++ toString digitLimit ++ " digits) for integer string conversion: value has " ++
    toString count ++ " digits; use sys.set_int_max_str_digits() to increase the limit"

def isSpace (c : Char) : Bool := c == ' ' || c == '\t' || c == '\n' || c == '\r'

def skipSpaces (cs : List Char) : List Char := cs.dropWhile isSpace

def hexFour? : List Char → Option (Nat × List Char)
  | a :: b :: c :: d :: rest => do
    let a ← Text.hexValue? a
    let b ← Text.hexValue? b
    let c ← Text.hexValue? c
    let d ← Text.hexValue? d
    return (((a * 16 + b) * 16 + c) * 16 + d, rest)
  | _ => none

def simpleEscape? : Char → Option Char
  | '"' => some '"'
  | '\\' => some '\\'
  | '/' => some '/'
  | 'b' => some '\x08'
  | 'f' => some '\x0c'
  | 'n' => some '\n'
  | 'r' => some '\r'
  | 't' => some '\t'
  | _ => none

variable [Interpreter]

/-- The character of an escaped unit; another one stands for half of a pair. -/
def unitChar (unit : Nat) : Char :=
  if isSurrogate unit then Interpreter.standIn unit else Char.ofNat unit

/-- The character after `\u`: one unit, or a high and a low unit written in a row. -/
def escapedUnit? (cs : List Char) : Option (Char × List Char) := do
  let (unit, rest) ← hexFour? cs
  if 0xD800 ≤ unit && unit < 0xDC00 then
    match rest with
    | '\\' :: 'u' :: more =>
      match hexFour? more with
      | some (low, after) =>
        if 0xDC00 ≤ low && low < 0xE000 then
          return (Char.ofNat (0x10000 + (unit - 0xD800) * 0x400 + (low - 0xDC00)), after)
        else return (unitChar unit, rest)
      | none => return (unitChar unit, rest)
    | _ => return (unitChar unit, rest)
  else return (unitChar unit, rest)

/-- The rest of a string after its opening quote; `taken` holds the characters so far, last first. -/
def readString (taken : List Char) (cs : List Char) : Nat → Except Error (String × List Char)
  | 0 => .error .malformed
  | steps + 1 =>
    match cs with
    | [] => .error .malformed
    | '"' :: rest => .ok (String.ofList taken.reverse, rest)
    | '\\' :: 'u' :: rest =>
      match escapedUnit? rest with
      | some (c, after) => readString (c :: taken) after steps
      | none => .error .malformed
    | '\\' :: c :: rest =>
      match simpleEscape? c with
      | some c => readString (c :: taken) rest steps
      | none => .error .malformed
    | c :: rest => if c.toNat < 0x20 then .error .malformed else readString (c :: taken) rest steps

/-- A whole part: a zero, or digits that start with another one. -/
def readWhole (cs : List Char) : Option (List Char × List Char) :=
  match cs with
  | '0' :: rest => some (['0'], rest)
  | c :: _ => if Text.isAsciiDigit c then some (cs.span Text.isAsciiDigit) else none
  | [] => none

/-- A fraction: a point and at least one digit. -/
def readFraction (cs : List Char) : Option (List Char × List Char) :=
  match cs with
  | '.' :: rest =>
    let (digits, after) := rest.span Text.isAsciiDigit
    if digits.isEmpty then none else some (digits, after)
  | _ => none

/-- An exponent: a letter, perhaps a sign, and at least one digit. -/
def readExponent (cs : List Char) : Option (Int × List Char) :=
  match cs with
  | e :: rest =>
    if e == 'e' || e == 'E' then
      let (negative, rest) := match rest with
        | '-' :: more => (true, more)
        | '+' :: more => (false, more)
        | _ => (false, rest)
      let (digits, after) := rest.span Text.isAsciiDigit
      if digits.isEmpty then none
      else
        let n : Int := Text.digitsValue digits
        some (if negative then -n else n, after)
    else none
  | [] => none

def readNumber (negative : Bool) (cs : List Char) : Except Error (Datum × List Char) :=
  match readWhole cs with
  | none => .error .malformed
  | some (whole, rest) =>
    match readFraction rest, readExponent ((readFraction rest).elim rest (·.2)) with
    | none, none =>
      if digitLimit < whole.length then .error (.tooManyDigits whole.length)
      else
        let n : Int := Text.digitsValue whole
        .ok (.int (if negative then -n else n), rest)
    | fraction, power =>
      let places := (fraction.map (·.1)).getD []
      let exponent := (power.map (·.1)).getD 0
      let after := (power.map (·.2)).getD ((fraction.map (·.2)).getD rest)
      .ok (.float (Decimal.ofScientific negative (Text.digitsValue (whole ++ places))
        (exponent - places.length)), after)

/-- The values that are one word. -/
def words : List (List Char × Datum) :=
  [ ("null".toList, .null), ("true".toList, .bool true), ("false".toList, .bool false),
    ("NaN".toList, .float (0.0 / 0.0)), ("Infinity".toList, .float (1.0 / 0.0)),
    ("-Infinity".toList, .float (-1.0 / 0.0)) ]

def readWord? (cs : List Char) : Option (Datum × List Char) :=
  (words.find? (·.1.isPrefixOf cs)).map fun (word, value) => (value, cs.drop word.length)

/-- What comes after the value just read, inside a list or a record. -/
inductive Separator where
  | more
  | done

def readSeparator (close : Char) (cs : List Char) : Except Error (Separator × List Char) :=
  match skipSpaces cs with
  | c :: rest =>
    if c == ',' then .ok (.more, rest) else if c == close then .ok (.done, rest) else .error .malformed
  | [] => .error .malformed

/-- A key and the colon after it. -/
def readKey (cs : List Char) : Except Error (String × List Char) :=
  match cs with
  | '"' :: start =>
    match readString [] start (start.length + 1) with
    | .error e => .error e
    | .ok (key, rest) =>
      match skipSpaces rest with
      | ':' :: rest => .ok (key, skipSpaces rest)
      | _ => .error .malformed
  | _ => .error .malformed

mutual

/-- One value that starts right here, with room for `depth` further levels. -/
def readValue (steps depth : Nat) (cs : List Char) : Except Error (Datum × List Char) :=
  match steps with
  | 0 => .error .malformed
  | steps + 1 =>
    match cs with
    | '"' :: rest => (readString [] rest (rest.length + 1)).map fun (s, after) => (.text s, after)
    | '[' :: rest =>
      match depth with
      | 0 => .error .nestedTooDeep
      | depth + 1 =>
        match skipSpaces rest with
        | ']' :: after => .ok (.list [], after)
        | start =>
          (readItems steps depth [] start).map fun (items, after) => (.list items, after)
    | '\x7b' :: rest =>
      match depth with
      | 0 => .error .nestedTooDeep
      | depth + 1 =>
        match skipSpaces rest with
        | '\x7d' :: after => .ok (.record [], after)
        | start =>
          (readFields steps depth [] start).map fun (fields, after) => (.record fields, after)
    | _ =>
      match readWord? cs, cs with
      | some word, _ => .ok word
      | none, '-' :: rest => readNumber true rest
      | none, _ => readNumber false cs

/-- The items of a list up to its closing bracket; `taken` holds the items so far, last first. -/
def readItems (steps depth : Nat) (taken : List Datum) (cs : List Char) :
    Except Error (List Datum × List Char) :=
  match steps with
  | 0 => .error .malformed
  | steps + 1 =>
    match readValue steps depth cs with
    | .error e => .error e
    | .ok (item, rest) =>
      match readSeparator ']' rest with
      | .error e => .error e
      | .ok (.done, after) => .ok ((item :: taken).reverse, after)
      | .ok (.more, after) => readItems steps depth (item :: taken) (skipSpaces after)

/-- The fields of a record up to its closing brace; `taken` holds the fields so far, last first. -/
def readFields (steps depth : Nat) (taken : List (String × Datum)) (cs : List Char) :
    Except Error (List (String × Datum) × List Char) :=
  match steps with
  | 0 => .error .malformed
  | steps + 1 =>
    match readKey cs with
    | .error e => .error e
    | .ok (key, rest) =>
      match readValue steps depth rest with
      | .error e => .error e
      | .ok (value, rest) =>
        match readSeparator '\x7d' rest with
        | .error e => .error e
        | .ok (.done, after) => .ok (((key, value) :: taken).reverse, after)
        | .ok (.more, after) => readFields steps depth ((key, value) :: taken) (skipSpaces after)

end

/-- The value a whole text holds, with nothing but white space around it. -/
def parse (text : String) : Except Error Datum :=
  let cs := text.toList
  match readValue (2 * cs.length + 2) Interpreter.jsonDepth (skipSpaces cs) with
  | .error e => .error e
  | .ok (value, rest) => if (skipSpaces rest).isEmpty then .ok value else .error .malformed

end PlanAssistant.Json
