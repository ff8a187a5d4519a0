import PlanAssistant.Json
import PlanAssistant.Instant
import PlanAssistant.Text.Utf8

/-!
Reading TOML.  A document is a sequence of lines: pairs of a dotted key and a value, and headers that
open a table or a further table of a list.  No key is given twice, no table is opened twice, and a
table or list written inline is closed for good.  The result is one record; tables keep the order in
which they first appear.
-/
namespace PlanAssistant.Toml

inductive Error where
  | notUtf8
  | malformed
  | tooManyDigits (count : Nat)
  | nestedTooDeep
deriving DecidableEq, Repr

abbrev Fields := List (String × Datum)

/-! ### Characters -/

def isSpace (c : Char) : Bool := c == ' ' || c == '\t'

def isSpaceOrLine (c : Char) : Bool := isSpace c || c == '\n'

/-- Control characters, which stand in no comment and no string; the tab is none of them. -/
def isControl (c : Char) : Bool := (c.toNat < 0x20 && c != '\t') || c.toNat == 0x7F

def isBareKey (c : Char) : Bool := c.isAlphanum || c == '-' || c == '_'

def skipSpaces (cs : List Char) : List Char := cs.dropWhile isSpace

/-- What follows a comment that may start here, up to the end of its line. -/
def skipComment (cs : List Char) : Except Error (List Char) :=
  match cs with
  | '#' :: rest =>
    let (comment, after) := rest.span (· != '\n')
    if comment.any isControl then .error .malformed else .ok after
  | _ => .ok cs

/-- What follows white space, line ends and comments. -/
def skipFiller (cs : List Char) : Nat → Except Error (List Char)
  | 0 => .error .malformed
  | steps + 1 =>
    match cs.dropWhile isSpaceOrLine with
    | '#' :: rest =>
      match skipComment ('#' :: rest) with
      | .ok after => skipFiller after steps
      | .error e => .error e
    | other => .ok other

/-! ### Strings -/

/-- The character with the code written by `width` hexadecimal digits. -/
def readCode? (width : Nat) (cs : List Char) : Option (Char × List Char) := do
  let digits := cs.take width
  if digits.length != width then none
  let code ← digits.foldlM (fun n c => (Text.hexValue? c).map (n * 16 + ·)) 0
  if code < 0xD800 || (0xE000 ≤ code && code < 0x110000) then
    some (Char.ofNat code, cs.drop width)
  else none

/-- What a backslash and the characters after it stand for. -/
def readEscape? : List Char → Option (Char × List Char)
  | 'b' :: rest => some ('\x08', rest)
  | 't' :: rest => some ('\t', rest)
  | 'n' :: rest => some ('\n', rest)
  | 'f' :: rest => some ('\x0c', rest)
  | 'r' :: rest => some ('\r', rest)
  | '"' :: rest => some ('"', rest)
  | '\\' :: rest => some ('\\', rest)
  | 'u' :: rest => readCode? 4 rest
  | 'U' :: rest => readCode? 8 rest
  | _ => none

/-- What follows a backslash at the end of a line, if only spaces stand between; all white space and
line ends up to the next other character go with it. -/
def skipLineEnd? (cs : List Char) : Option (List Char) :=
  match cs with
  | c :: _ =>
    if isSpaceOrLine c then
      match skipSpaces cs with
      | [] => some []
      | '\n' :: rest => some (rest.dropWhile isSpaceOrLine)
      | _ => none
    else none
  | [] => none

/-- The rest of a string in double quotes; `taken` holds the characters so far, last first. -/
def readBasic (multiline : Bool) (taken : List Char) (cs : List Char) :
    Nat → Except Error (String × List Char)
  | 0 => .error .malformed
  | steps + 1 =>
    match cs with
    | [] => .error .malformed
    | '"' :: rest =>
      if !multiline then .ok (String.ofList taken.reverse, rest)
      else match rest with
        | '"' :: '"' :: '"' :: '"' :: after => .ok (String.ofList ('"' :: '"' :: taken).reverse, after)
        | '"' :: '"' :: '"' :: after => .ok (String.ofList ('"' :: taken).reverse, after)
        | '"' :: '"' :: after => .ok (String.ofList taken.reverse, after)
        | _ => readBasic multiline ('"' :: taken) rest steps
    | '\\' :: rest =>
      match (if multiline then skipLineEnd? rest else none) with
      | some after => readBasic multiline taken after steps
      | none =>
        match readEscape? rest with
        | some (c, after) => readBasic multiline (c :: taken) after steps
        | none => .error .malformed
    | c :: rest =>
      if isControl c && !(multiline && c == '\n') then .error .malformed
      else readBasic multiline (c :: taken) rest steps

/-- The rest of a string in single quotes. -/
def readLiteral (multiline : Bool) (taken : List Char) : List Char → Except Error (String × List Char)
  | [] => .error .malformed
  | '\'' :: rest =>
    if !multiline then .ok (String.ofList taken.reverse, rest)
    else match rest with
      | '\'' :: '\'' :: '\'' :: '\'' :: after =>
        .ok (String.ofList ('\'' :: '\'' :: taken).reverse, after)
      | '\'' :: '\'' :: '\'' :: after => .ok (String.ofList ('\'' :: taken).reverse, after)
      | '\'' :: '\'' :: after => .ok (String.ofList taken.reverse, after)
      | _ => readLiteral multiline ('\'' :: taken) rest
  | c :: rest =>
    if isControl c && !(multiline && c == '\n') then .error .malformed
    else readLiteral multiline (c :: taken) rest

/-- A line end right after the opening quotes of a string of several lines is no part of it. -/
def skipFirstLineEnd : List Char → List Char
  | '\n' :: rest => rest
  | cs => cs

/-! ### Keys -/

def readKeyPart (cs : List Char) : Except Error (String × List Char) :=
  match cs with
  | '\'' :: rest => readLiteral false [] rest
  | '"' :: rest => readBasic false [] rest (rest.length + 1)
  | _ =>
    let (name, after) := cs.span isBareKey
    if name.isEmpty then .error .malformed else .ok (String.ofList name, after)

/-- A key: parts with dots between, and the white space after it. -/
def readKey (cs : List Char) : Nat → Except Error (List String × List Char)
  | 0 => .error .malformed
  | steps + 1 =>
    match readKeyPart cs with
    | .error e => .error e
    | .ok (part, rest) =>
      match skipSpaces rest with
      | '.' :: more =>
        (readKey (skipSpaces more) steps).map fun (parts, after) => (part :: parts, after)
      | after => .ok ([part], after)

/-! ### Numbers and times -/

/-- The digits of a run, which may have single underscores between them, and what follows. -/
def digitRunFrom (digit : Char → Bool) : List Char → List Char × List Char
  | [] => ([], [])
  | '_' :: c :: rest =>
    if digit c then
      let (digits, after) := digitRunFrom digit rest
      (c :: digits, after)
    else ([], '_' :: c :: rest)
  | c :: rest =>
    if digit c then
      let (digits, after) := digitRunFrom digit rest
      (c :: digits, after)
    else ([], c :: rest)

def digitRun? (digit : Char → Bool) (cs : List Char) : Option (List Char × List Char) :=
  match cs with
  | c :: _ => if digit c then some (digitRunFrom digit cs) else none
  | [] => none

/-- A whole number in another base: the letter after the zero names it. -/
def readBased? (cs : List Char) : Option (Datum × List Char) :=
  let value (base : Nat) (digits : List Char) : Datum :=
    .int (digits.foldl (fun n c => n * base + (Text.hexValue? c).getD 0) 0 : Nat)
  match cs with
  | '0' :: 'x' :: rest =>
    (digitRun? (Text.hexValue? · |>.isSome) rest).map fun (digits, after) => (value 16 digits, after)
  | '0' :: 'b' :: rest =>
    (digitRun? (fun c => c == '0' || c == '1') rest).map fun (digits, after) => (value 2 digits, after)
  | '0' :: 'o' :: rest =>
    (digitRun? (fun c => '0' ≤ c && c ≤ '7') rest).map fun (digits, after) => (value 8 digits, after)
  | _ => none

/-- The sign of a number and what follows it. -/
def readSign : List Char → Bool × List Char
  | '-' :: rest => (true, rest)
  | '+' :: rest => (false, rest)
  | cs => (false, cs)

def readPlaces (cs : List Char) : List Char × List Char :=
  match cs with
  | '.' :: rest => (digitRun? Text.isAsciiDigit rest).getD ([], cs)
  | _ => ([], cs)

def readPower (cs : List Char) : Option Int × List Char :=
  match cs with
  | e :: rest =>
    if e == 'e' || e == 'E' then
      let (negative, rest) := readSign rest
      match digitRun? Text.isAsciiDigit rest with
      | some (digits, after) =>
        let n : Int := Text.digitsValue digits
        (some (if negative then -n else n), after)
      | none => (none, cs)
    else (none, cs)
  | [] => (none, cs)

/-- A decimal number: whole without fraction and exponent, a double otherwise. -/
def readDecimal? (cs : List Char) : Option (Except Error (Datum × List Char)) := do
  let (negative, unsigned) := readSign cs
  let (whole, rest) ← match unsigned with
    | '0' :: rest => some (['0'], rest)
    | _ => digitRun? Text.isAsciiDigit unsigned
  let (places, rest) := readPlaces rest
  let (power, rest) := readPower rest
  if places.isEmpty && power.isNone then
    if Json.digitLimit < whole.length then return .error (.tooManyDigits whole.length)
    let n : Int := Text.digitsValue whole
    return .ok (.int (if negative then -n else n), rest)
  return .ok (.float (Decimal.ofScientific negative (Text.digitsValue (whole ++ places))
    (power.getD 0 - places.length)), rest)

/-- The two doubles that are words, with a sign or without. -/
def readWordNumber? (cs : List Char) : Option (Datum × List Char) :=
  let (negative, rest) := readSign cs
  match rest with
  | 'i' :: 'n' :: 'f' :: after => some (.float (if negative then -1.0 / 0.0 else 1.0 / 0.0), after)
  | 'n' :: 'a' :: 'n' :: after => some (.float (0.0 / 0.0), after)
  | _ => none

/-- A number of two digits up to `most`. -/
def readTwo? (most : Nat) (cs : List Char) : Option (Nat × List Char) :=
  (Instant.readDigits? 2 cs).filter (·.1 ≤ most)

/-- What follows a time of day: hours, minutes, seconds and perhaps a fraction. -/
def skipTime? (cs : List Char) : Option (List Char) := do
  let (_, cs) ← readTwo? 23 cs
  let cs ← Instant.readMark? [':'] cs
  let (_, cs) ← readTwo? 59 cs
  let cs ← Instant.readMark? [':'] cs
  let (_, cs) ← readTwo? 59 cs
  match cs with
  | '.' :: c :: rest => if Text.isAsciiDigit c then some (rest.dropWhile Text.isAsciiDigit) else some cs
  | _ => some cs

/-- What follows the offset that a time may have. -/
def skipOffset (cs : List Char) : List Char :=
  match cs with
  | [] => []
  | sign :: rest =>
    if sign == 'Z' || sign == 'z' then rest
    else if sign == '+' || sign == '-' then
      (do let (_, rest) ← readTwo? 23 rest
          let rest ← Instant.readMark? [':'] rest
          let (_, rest) ← readTwo? 59 rest
          some rest).getD cs
    else cs

/-- What follows a date and the time that it may have; the flag tells whether the date exists. -/
def skipMoment? (cs : List Char) : Option (Bool × List Char) := do
  let (year, cs) ← Instant.readDigits? 4 cs
  let cs ← Instant.readMark? ['-'] cs
  let (month, cs) ← readTwo? 12 cs
  let cs ← Instant.readMark? ['-'] cs
  let (day, cs) ← readTwo? 31 cs
  if month == 0 || day == 0 then none
  let exists_ := 1 ≤ year && day ≤ Instant.daysInMonth year month
  let after := (Instant.readMark? ['T', 't', ' '] cs).bind skipTime?
  return (exists_, (after.map skipOffset).getD cs)

/-- The characters of `cs` before its tail `after`. -/
def writtenBefore (cs after : List Char) : String := String.ofList (cs.take (cs.length - after.length))

/-- A date, a time or a number. -/
def readScalar (cs : List Char) : Except Error (Datum × List Char) :=
  match skipMoment? cs, skipTime? cs with
  | some (true, after), _ => .ok (.moment (writtenBefore cs after), after)
  | some (false, _), _ => .error .malformed
  | none, some after => .ok (.moment (writtenBefore cs after), after)
  | none, none =>
    match readBased? cs, readDecimal? cs, readWordNumber? cs with
    | some found, _, _ => .ok found
    | none, some found, _ => found
    | none, none, some found => .ok found
    | none, none, none => .error .malformed

/-! ### Tables -/

/-- The fields with the value of one key replaced, or added at the end. -/
def put (key : String) (value : Datum) (fields : Fields) : Fields :=
  if fields.any (·.1 == key) then
    fields.map fun field => if field.1 == key then (key, value) else field
  else fields ++ [(key, value)]

/-- Change the table that `path` leads to, making the tables on the way that are missing.  A list of
tables stands for its last one where `throughLists` allows it. -/
def within (throughLists : Bool) (change : Fields → Option Fields) :
    List String → Fields → Option Fields
  | [], fields => change fields
  | key :: path, fields =>
    match Datum.lookup key fields with
    | none => (within throughLists change path []).map fun inner => put key (.record inner) fields
    | some (.record inner) =>
      (within throughLists change path inner).map fun inner => put key (.record inner) fields
    | some (.list items) =>
      match throughLists, items.getLast? with
      | true, some (.record inner) =>
        (within throughLists change path inner).map fun inner =>
          put key (.list (items.dropLast ++ [.record inner])) fields
      | _, _ => none
    | some _ => none

/-- Add a field whose key the table does not hold yet. -/
def addField (key : String) (value : Datum) (fields : Fields) : Option Fields :=
  if (Datum.lookup key fields).isSome then none else some (fields ++ [(key, value)])

/-- Add an empty table to the list under a key. -/
def addTable (key : String) (fields : Fields) : Option Fields :=
  match Datum.lookup key fields with
  | none => some (fields ++ [(key, .list [.record []])])
  | some (.list items) => some (put key (.list (items ++ [.record []])) fields)
  | some _ => none

def isNested : Datum → Bool
  | .list _ => true
  | .record _ => true
  | _ => false

/-- Whether a path is one of the `closed` ones or goes through one. -/
def isClosed (closed : List (List String)) (path : List String) : Bool :=
  closed.any (·.isPrefixOf path)

def orMalformed (found : Option α) : Except Error α :=
  match found with
  | some value => .ok value
  | none => .error .malformed

/-! ### Values -/

mutual

/-- One value that starts right here, with room for `depth` further levels. -/
def readValue (steps depth : Nat) (cs : List Char) : Except Error (Datum × List Char) :=
  match steps with
  | 0 => .error .malformed
  | steps + 1 =>
    match cs with
    | '"' :: '"' :: '"' :: rest =>
      (readBasic true [] (skipFirstLineEnd rest) (rest.length + 1)).map fun (s, after) => (.text s, after)
    | '"' :: rest => (readBasic false [] rest (rest.length + 1)).map fun (s, after) => (.text s, after)
    | '\'' :: '\'' :: '\'' :: rest =>
      (readLiteral true [] (skipFirstLineEnd rest)).map fun (s, after) => (.text s, after)
    | '\'' :: rest => (readLiteral false [] rest).map fun (s, after) => (.text s, after)
    | 't' :: 'r' :: 'u' :: 'e' :: rest => .ok (.bool true, rest)
    | 'f' :: 'a' :: 'l' :: 's' :: 'e' :: rest => .ok (.bool false, rest)
    | '[' :: rest =>
      match depth with
      | 0 => .error .nestedTooDeep
      | depth + 1 => (readItems steps depth [] rest).map fun (items, after) => (.list items, after)
    | '\x7b' :: rest =>
      match depth with
      | 0 => .error .nestedTooDeep
      | depth + 1 =>
        match skipSpaces rest with
        | '\x7d' :: after => .ok (.record [], after)
        | start =>
          (readFields steps depth [] [] start).map fun (fields, after) => (.record fields, after)
    | _ => readScalar cs

/-- The items of a list up to its closing bracket; `taken` holds the items so far, last first. -/
def readItems (steps depth : Nat) (taken : List Datum) (cs : List Char) :
    Except Error (List Datum × List Char) :=
  match steps with
  | 0 => .error .malformed
  | steps + 1 =>
    match skipFiller cs (cs.length + 1) with
    | .error e => .error e
    | .ok (']' :: after) => .ok (taken.reverse, after)
    | .ok start =>
      match readValue steps depth start with
      | .error e => .error e
      | .ok (item, rest) =>
        match skipFiller rest (rest.length + 1) with
        | .error e => .error e
        | .ok (']' :: after) => .ok ((item :: taken).reverse, after)
        | .ok (',' :: after) => readItems steps depth (item :: taken) after
        | .ok _ => .error .malformed

/-- The fields of an inline table up to its closing brace.  Tables and lists given as the value of an
earlier key are `closed`. -/
def readFields (steps depth : Nat) (closed : List (List String)) (fields : Fields) (cs : List Char) :
    Except Error (Fields × List Char) :=
  match steps with
  | 0 => .error .malformed
  | steps + 1 =>
    match readKey cs (cs.length + 1) with
    | .error e => .error e
    | .ok (path, '=' :: rest) =>
      match readValue steps depth (skipSpaces rest) with
      | .error e => .error e
      | .ok (value, rest) =>
        match (if isClosed closed path then none
          else within false (addField (path.getLastD "") value) path.dropLast fields) with
        | none => .error .malformed
        | some fields =>
          match skipSpaces rest with
          | '\x7d' :: after => .ok (fields, after)
          | ',' :: after =>
            readFields steps depth (if isNested value then path :: closed else closed) fields
              (skipSpaces after)
          | _ => .error .malformed
    | .ok _ => .error .malformed

end

/-! ### Documents -/

/-- A document read so far.  A path in `opened` can be opened by no further header; a path in
`closed` was given inline; the paths in `pending` join the opened ones at the next header. -/
structure Document where
  fields : Fields
  header : List String
  opened : List (List String)
  closed : List (List String)
  pending : List (List String)

namespace Document

def empty : Document := ⟨[], [], [], [], []⟩

def settle (doc : Document) : Document := { doc with opened := doc.pending ++ doc.opened, pending := [] }

/-- Open the table of a header in single brackets. -/
def openTable (path : List String) (doc : Document) : Option Document :=
  if doc.opened.contains path || isClosed doc.closed path then none
  else (within true some path doc.fields).map fun fields =>
    { doc with fields, header := path, opened := path :: doc.opened }

/-- Open a further table of the list of a header in double brackets; what was said about the table
before it is forgotten. -/
def openFurther (path : List String) (doc : Document) : Option Document :=
  if isClosed doc.closed path then none
  else (within true (addTable (path.getLastD "")) path.dropLast doc.fields).map fun fields =>
    { doc with
      fields, header := path
      opened := path :: doc.opened.filter (!path.isPrefixOf ·)
      closed := doc.closed.filter (!path.isPrefixOf ·) }

/-- Give a key of the current table its value. -/
def assign (path : List String) (value : Datum) (doc : Document) : Option Document :=
  let whole := doc.header ++ path
  let above := whole.dropLast
  let between := (List.range (path.length - 1)).map fun i => doc.header ++ path.take (i + 1)
  if between.any doc.opened.contains || isClosed doc.closed above then none
  else (within true (addField (whole.getLastD "") value) above doc.fields).map fun fields =>
    { doc with
      fields
      pending := between ++ doc.pending
      closed := if isNested value then whole :: doc.closed else doc.closed }

end Document

/-- A header after its first bracket. -/
def readHeader (doc : Document) (cs : List Char) : Except Error (Document × List Char) :=
  let further := cs.head? == some '['
  let start := skipSpaces (if further then cs.drop 1 else cs)
  match readKey start (start.length + 1) with
  | .error e => .error e
  | .ok (path, rest) =>
    match further, rest with
    | true, ']' :: ']' :: after => (orMalformed (doc.settle.openFurther path)).map (·, after)
    | false, ']' :: after => (orMalformed (doc.settle.openTable path)).map (·, after)
    | _, _ => .error .malformed

variable [Interpreter]

/-- A key and its value. -/
def readPair (doc : Document) (cs : List Char) : Except Error (Document × List Char) :=
  match readKey cs (cs.length + 1) with
  | .error e => .error e
  | .ok (path, '=' :: rest) =>
    match readValue (2 * rest.length + 2) Interpreter.tomlDepth (skipSpaces rest) with
    | .error e => .error e
    | .ok (value, after) => (orMalformed (doc.assign path value)).map (·, after)
  | .ok _ => .error .malformed

/-- What a line says, up to the comment or line end after it. -/
def readStatement (doc : Document) (cs : List Char) : Except Error (Document × List Char) :=
  match cs with
  | [] => .ok (doc, [])
  | c :: rest =>
    if c == '\n' || c == '#' then .ok (doc, cs)
    else if c == '[' then readHeader doc rest
    else readPair doc cs

/-- The lines from here to the end. -/
def readLines (doc : Document) (cs : List Char) : Nat → Except Error Document
  | 0 => .error .malformed
  | steps + 1 =>
    match readStatement doc (skipSpaces cs) with
    | .error e => .error e
    | .ok (doc, rest) =>
      match skipComment (skipSpaces rest) with
      | .error e => .error e
      | .ok [] => .ok doc
      | .ok ('\n' :: after) => readLines doc after steps
      | .ok _ => .error .malformed

/-- Line ends of two characters read as one. -/
def joinLineEnds : List Char → List Char
  | [] => []
  | '\r' :: '\n' :: rest => '\n' :: joinLineEnds rest
  | c :: rest => c :: joinLineEnds rest

/-- The record a document holds. -/
def parse (bytes : ByteArray) : Except Error Fields :=
  match Text.decode? bytes with
  | none => .error .notUtf8
  | some text =>
    let cs := joinLineEnds text.toList
    (readLines .empty cs (cs.length + 1)).map Document.fields

end PlanAssistant.Toml
