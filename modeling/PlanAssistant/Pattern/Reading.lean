import PlanAssistant.Pattern.Syntax
import PlanAssistant.Text.Identifier
import PlanAssistant.Text.CharacterName
import PlanAssistant.Text.Surrogate
import PlanAssistant.Json

/-!
Reading search patterns.  Letters compare without regard to case unless the pattern switches that off.
Most faults only say that the text is no pattern; a count that is too large, a conflict of modes and
too deep nesting are told apart from them.
-/
namespace PlanAssistant.Pattern

/-- Why a text is not read as a pattern. -/
inductive Fault where
  | malformed
  | countTooLarge
  | tooManyDigits (count : Nat)
  | modeConflict
  | nestedTooDeep
deriving DecidableEq, Repr

def Fault.message : Fault → String
  | malformed => "not a pattern"
  | countTooLarge => "the repetition number is too large"
  | tooManyDigits count => Json.tooManyDigitsMessage count
  | modeConflict => "ASCII and UNICODE flags are incompatible"
  | nestedTooDeep => "maximum recursion depth exceeded"

/-- Counts of a repetition stay below this. -/
def countLimit : Nat := 4294967295

/-- Numbers of groups stay below this. -/
def groupLimit : Nat := 1073741823

/-- The modes in force at a place of the pattern. -/
structure Mode where
  ignoreCase : Bool
  asciiOnly : Bool
  multiline : Bool
  dotAll : Bool
  verbose : Bool
deriving DecidableEq, Repr

namespace Mode

def start : Mode := ⟨true, false, false, false, false⟩

def fold (mode : Mode) : Fold :=
  if !mode.ignoreCase then .exact else if mode.asciiOnly then .ascii else .full

end Mode

/-- What is known of the whole pattern so far: the number the next group gets, the names and the
widths of groups, the first group of the look behind that is being read, the greatest group number a
condition asked for, and the modes that were switched on for the whole pattern. -/
structure Known where
  next : Nat
  names : List (String × Nat)
  widths : List (Nat × Width)
  behind : Option Nat
  asked : Nat
  ascii : Bool
  unicode : Bool
  template : Bool

namespace Known

def start : Known := ⟨1, [], [], none, 0, false, false, false⟩

def width (known : Known) (index : Nat) : Width := (known.widths.lookup index).getD ⟨0, 0⟩

def isClosed (known : Known) (index : Nat) : Bool := (known.widths.lookup index).isSome

/-- Whether a reference may stand here: a look behind refers to no group of its own. -/
def allows (known : Known) (index : Nat) : Bool :=
  match known.behind with
  | none => true
  | some first => known.isClosed index && index < first

end Known

/-- Part of a sequence, and whether it is something that cannot be repeated. -/
inductive Kind where
  | anchor
  | repetition
  | other
deriving DecidableEq, Repr

structure Item where
  kind : Kind
  node : Node

/-- The sequence of items, given last first. -/
def sequence (items : List Item) : Node :=
  items.foldl (fun rest item => match rest with
    | .empty => item.node
    | _ => .seq item.node rest) .empty

def literal (mode : Mode) (code : Nat) : Item :=
  ⟨.other, .char (.letter mode.fold (mode.fold.forms code) false)⟩

/-! ### Escapes -/

/-- What an escape stands for. -/
inductive Escaped where
  | char (code : Nat)
  | category (kind : Category) (negated : Bool)
  | anchor (anchor : Anchor)
  | group (index : Nat)

def isOctal (c : Char) : Bool := '0' ≤ c && c ≤ '7'

/-- The leading characters of a class, at most `most` of them, and the rest. -/
def takeDigits (digit : Char → Bool) : Nat → List Char → List Char × List Char
  | most + 1, c :: rest =>
    if digit c then
      let (digits, after) := takeDigits digit most rest
      (c :: digits, after)
    else ([], c :: rest)
  | _, cs => ([], cs)

def isHex (c : Char) : Bool := (Text.hexValue? c).isSome

/-- A code of exactly `width` hexadecimal digits. -/
def readHex (width : Nat) (cs : List Char) : Except Fault (Escaped × List Char) :=
  let (digits, rest) := takeDigits isHex width cs
  if digits.length == width && Text.valueIn 16 digits < 0x110000 then
    .ok (.char (Text.valueIn 16 digits), rest)
  else .error .malformed

def controlEscape? : Char → Option Nat
  | 'a' => some 7
  | 'f' => some 12
  | 'n' => some 10
  | 'r' => some 13
  | 't' => some 9
  | 'v' => some 11
  | '\\' => some 92
  | _ => none

def categoryEscape? : Char → Option (Category × Bool)
  | 'd' => some (.digit, false)
  | 'D' => some (.digit, true)
  | 's' => some (.space, false)
  | 'S' => some (.space, true)
  | 'w' => some (.word, false)
  | 'W' => some (.word, true)
  | _ => none

def anchorEscape? (mode : Mode) : Char → Option Anchor
  | 'A' => some .textStart
  | 'Z' => some .textEnd
  | 'b' => some (.boundary mode.asciiOnly)
  | 'B' => some (.notBoundary mode.asciiOnly)
  | _ => none

/-- A code in octal of up to three digits, the first of them given. -/
def readOctal (first : Char) (cs : List Char) : Except Fault (Escaped × List Char) :=
  let (digits, rest) := takeDigits isOctal 2 cs
  let code := Text.valueIn 8 (first :: digits)
  if code ≤ 0o377 then .ok (.char code, rest) else .error .malformed

/-- A reference to a group. -/
def referTo (known : Known) (index : Nat) (rest : List Char) : Except Fault (Escaped × List Char) :=
  if index < known.next && known.isClosed index && known.allows index then .ok (.group index, rest)
  else .error .malformed

/-- A group number of one or two digits, or a code of three octal ones; the first digit is given. -/
def readNumbered (known : Known) (first : Char) (cs : List Char) :
    Except Fault (Escaped × List Char) :=
  match cs with
  | second :: rest =>
    if Text.isAsciiDigit second then
      match rest with
      | third :: after =>
        if isOctal first && isOctal second && isOctal third then readOctal first (second :: third :: after)
        else referTo known (Text.digitsValue [first, second]) rest
      | [] => referTo known (Text.digitsValue [first, second]) rest
    else referTo known (Text.digitsValue [first]) cs
  | [] => referTo known (Text.digitsValue [first]) cs

/-- A name up to its closing character; `taken` holds the characters so far, last first. -/
def readName (close : Char) (taken : List Char) : List Char → Except Fault (List Char × List Char)
  | '\\' :: c :: rest => readName close (c :: '\\' :: taken) rest
  | c :: rest =>
    if c == close then (if taken.isEmpty then .error .malformed else .ok (taken.reverse, rest))
    else readName close (c :: taken) rest
  | [] => .error .malformed

variable [Interpreter]

/-- A character by its name between braces. -/
def readNamed (cs : List Char) : Except Fault (Escaped × List Char) :=
  match cs with
  | '\x7b' :: rest => do
    let (name, rest) ← readName '\x7d' [] rest
    match Text.characterNamed? name with
    | some code => return (.char code, rest)
    | none => throw .malformed
  | _ => .error .malformed

/-- Escapes that stand for a character in every place. -/
def readCode (c : Char) (rest : List Char) : Except Fault (Escaped × List Char) :=
  match controlEscape? c with
  | some code => .ok (.char code, rest)
  | none =>
    if c == 'x' then readHex 2 rest
    else if c == 'u' then readHex 4 rest
    else if c == 'U' then readHex 8 rest
    else if c == 'N' then readNamed rest
    else if c.isAlphanum then .error .malformed
    else .ok (.char (Text.codePoint c), rest)

/-- What a backslash and the characters after it stand for. -/
def readEscape (mode : Mode) (known : Known) (cs : List Char) : Except Fault (Escaped × List Char) :=
  match cs with
  | [] => .error .malformed
  | c :: rest =>
    match categoryEscape? c, anchorEscape? mode c with
    | some (kind, negated), _ => .ok (.category kind negated, rest)
    | none, some anchor => .ok (.anchor anchor, rest)
    | none, none =>
      if c == '0' then readOctal c rest
      else if Text.isAsciiDigit c then readNumbered known c rest
      else readCode c rest

/-- What a backslash and the characters after it stand for inside a set. -/
def readSetEscape (cs : List Char) : Except Fault (SetItem × List Char) :=
  match cs with
  | [] => .error .malformed
  | c :: rest =>
    match categoryEscape? c with
    | some (kind, negated) => .ok (.category kind negated, rest)
    | none =>
      if c == 'b' then .ok (.char 8, rest)
      else match (if isOctal c then readOctal c rest else readCode c rest) with
        | .ok (.char code, rest) => .ok (.char code, rest)
        | .ok _ => .error .malformed
        | .error fault => .error fault

/-! ### Sets -/

def readSetItem (cs : List Char) : Except Fault (SetItem × List Char) :=
  match cs with
  | [] => .error .malformed
  | '\\' :: rest => readSetEscape rest
  | c :: rest => .ok (.char (Text.codePoint c), rest)

/-- The items of a set up to its closing bracket, which counts as a character when it comes first;
`taken` holds the items so far, last first. -/
def readSetItems (taken : List SetItem) (cs : List Char) : Nat → Except Fault (List SetItem × List Char)
  | 0 => .error .malformed
  | steps + 1 =>
    match cs, taken with
    | ']' :: rest, _ :: _ => .ok (taken.reverse, rest)
    | _, _ =>
      match readSetItem cs with
      | .error fault => .error fault
      | .ok (item, '-' :: ']' :: rest) => .ok ((.char 45 :: item :: taken).reverse, rest)
      | .ok (item, '-' :: rest) =>
        match item, readSetItem rest with
        | .char low, .ok (.char high, rest) =>
          if high < low then .error .malformed
          else readSetItems (.range low high :: taken) rest steps
        | _, _ => .error .malformed
      | .ok (item, rest) => readSetItems (item :: taken) rest steps

/-- A set after its opening bracket. -/
def readSet (mode : Mode) (cs : List Char) : Except Fault (Item × List Char) :=
  let negated := cs.head? == some '^'
  let start := if negated then cs.drop 1 else cs
  (readSetItems [] start (start.length + 1)).map fun (items, rest) =>
    match items.eraseDups with
    | [.char code] => (⟨.other, .char (.letter mode.fold (mode.fold.forms code) negated)⟩, rest)
    | items => (⟨.other, .char (.set mode.fold mode.asciiOnly negated items)⟩, rest)

/-! ### Repetitions -/

/-- How often something is repeated. -/
structure Count where
  least : Nat
  most : Option Nat

def boundOf (digits : List Char) : Except Fault Nat :=
  if Json.digitLimit < digits.length then .error (.tooManyDigits digits.length)
  else if countLimit ≤ Text.digitsValue digits then .error .countTooLarge
  else .ok (Text.digitsValue digits)

/-- The count between braces, after the opening one; nothing if the brace stands for itself. -/
def readBraces (cs : List Char) : Except Fault (Option (Count × List Char)) :=
  let (low, rest) := cs.span Text.isAsciiDigit
  let (comma, rest) := match rest with
    | ',' :: more => (true, more)
    | _ => (false, rest)
  let (high, rest) := if comma then rest.span Text.isAsciiDigit else (low, rest)
  match rest with
  | '\x7d' :: after =>
    if low.isEmpty && !comma then .ok none
    else if after == ['\\'] then .error .malformed
    else do
      let least ← if low.isEmpty then pure 0 else boundOf low
      let most ← if high.isEmpty then pure none else some <$> boundOf high
      if most.any (· < least) then throw .malformed
      return some (⟨least, most⟩, after)
  | _ => .ok none

/-- The items with the last one repeated; the mark after the count says how. -/
def repeatLast (items : List Item) (count : Count) (cs : List Char) :
    Except Fault (List Item × List Char) :=
  match items with
  | [] => .error .malformed
  | ⟨.anchor, _⟩ :: _ => .error .malformed
  | ⟨.repetition, _⟩ :: _ => .error .malformed
  | ⟨.other, node⟩ :: before =>
    let (greed, rest) := match cs with
      | '?' :: rest => (Greed.lazy, rest)
      | '+' :: rest => (.possessive, rest)
      | _ => (.greedy, cs)
    .ok (⟨.repetition, .repeated greed count.least count.most node⟩ :: before, rest)

/-! ### Groups -/

/-- The number that a condition names a group by: digits of any script, perhaps with blanks around,
a plus sign before, and single underscores between. -/
def conditionNumber? (name : List Char) : Option Nat := do
  let stripped := Text.stripWhile Text.isBlank name
  let unsigned := match stripped with
    | '+' :: rest => rest
    | _ => stripped
  let digits ← unsigned.foldr
    (fun c (rest : Option (List Nat × Bool)) => do
      let (digits, underscore) ← rest
      if c == '_' then if underscore then none else some (digits, true)
      else (Text.digitValue? c).map fun d => (d :: digits, false))
    (some ([], true))
  if digits.2 || digits.1.isEmpty || Json.digitLimit < digits.1.length then none
  else some (digits.1.foldl (fun n d => n * 10 + d) 0)

/-- The group a condition asks for. -/
def conditionGroup (known : Known) (name : List Char) : Except Fault (Nat × Known) :=
  if Text.isIdentifier name then
    match known.names.lookup (String.ofList name) with
    | some index => .ok (index, known)
    | none => .error .malformed
  else match conditionNumber? name with
    | some index =>
      if index == 0 || groupLimit ≤ index then .error .malformed
      else .ok (index, { known with asked := max known.asked index })
    | none => .error .malformed

/-- Modes named by letters. -/
def isModeLetter (c : Char) : Bool := "iLmsxatu".toList.contains c

/-- The letters of modes up to the character that ends them. -/
def readModeLetters (cs : List Char) : List Char × List Char := cs.span isModeLetter

/-- Letters that may be switched on together. -/
def switchOn (letters : List Char) : Bool :=
  !letters.contains 'L' && !(letters.contains 'a' && letters.contains 'u')

/-- The modes with some switched on and others off. -/
def Mode.switch (mode : Mode) (on off : List Char) : Mode :=
  { ignoreCase := (mode.ignoreCase || on.contains 'i') && !off.contains 'i'
    asciiOnly := (mode.asciiOnly || on.contains 'a') && !on.contains 'u'
    multiline := (mode.multiline || on.contains 'm') && !off.contains 'm'
    dotAll := (mode.dotAll || on.contains 's') && !off.contains 's'
    verbose := (mode.verbose || on.contains 'x') && !off.contains 'x' }

/-- What the letters after an opening parenthesis and a question mark switch. -/
inductive Switch where
  | forAll (on : List Char)
  | inside (on off : List Char)

def readSwitch (cs : List Char) : Except Fault (Switch × List Char) :=
  let (on, rest) := readModeLetters cs
  if !switchOn on then .error .malformed
  else match rest with
    | ')' :: after => if on.isEmpty then .error .malformed else .ok (.forAll on, after)
    | ':' :: after =>
      if on.isEmpty || on.contains 't' then .error .malformed else .ok (.inside on [], after)
    | '-' :: more =>
      let (off, rest) := readModeLetters more
      match rest with
      | ':' :: after =>
        if off.isEmpty || on.contains 't' || off.any (fun c => c == 't' || c == 'a' || c == 'u' || c == 'L')
          || off.any on.contains then .error .malformed
        else .ok (.inside on off, after)
      | _ => .error .malformed
    | _ => .error .malformed

/-- What follows a comment in a pattern whose modes allow them, up to the end of its line. -/
def skipLine : List Char → List Char
  | [] => []
  | '\\' :: _ :: rest => skipLine rest
  | c :: rest => if c == '\n' then rest else if rest.isEmpty && c == '\\' then [c] else skipLine rest

/-- What follows a comment between parentheses. -/
def skipComment : List Char → Except Fault (List Char)
  | [] => .error .malformed
  | '\\' :: _ :: rest => skipComment rest
  | c :: rest => if c == ')' then .ok rest else skipComment rest

/-- White space that means nothing in a verbose pattern. -/
def isLayout (c : Char) : Bool := c == ' ' || (9 ≤ c.toNat && c.toNat ≤ 13)

/-! ### Patterns -/

/-- A group, a look-around or a condition that was opened: how its body is read, and what it becomes. -/
inductive Opening where
  | capture (name : Option (List Char))
  | plain (mode : Mode)
  | atomic
  | look (direction : Direction) (negated : Bool)
  | condition (index : Nat)
  | switched (mode : Mode)
  | comment
  | reference (index : Nat)

/-- What stands after an opening parenthesis.  Modes for the whole pattern are switched at its
beginning alone. -/
def readOpening (start : Bool) (mode : Mode) (known : Known) (cs : List Char) :
    Except Fault (Opening × Known × List Char) :=
  match cs with
  | '?' :: 'P' :: '<' :: rest => do
    let (name, rest) ← readName '>' [] rest
    if Text.isIdentifier name then return (.capture (some name), known, rest) else throw .malformed
  | '?' :: 'P' :: '=' :: rest => do
    let (name, rest) ← readName ')' [] rest
    match known.names.lookup (String.ofList name) with
    | some index =>
      if Text.isIdentifier name && known.isClosed index && known.allows index then
        return (.reference index, known, rest)
      else throw .malformed
    | none => throw .malformed
  | '?' :: ':' :: rest => .ok (.plain mode, known, rest)
  | '?' :: '#' :: rest => do return (.comment, known, ← skipComment rest)
  | '?' :: '=' :: rest => .ok (.look .ahead false, known, rest)
  | '?' :: '!' :: rest => .ok (.look .ahead true, known, rest)
  | '?' :: '<' :: '=' :: rest => .ok (.look (.behind 0) false, known, rest)
  | '?' :: '<' :: '!' :: rest => .ok (.look (.behind 0) true, known, rest)
  | '?' :: '(' :: rest => do
    let (name, rest) ← readName ')' [] rest
    let (index, known) ← conditionGroup known name
    if known.allows index then return (.condition index, known, rest) else throw .malformed
  | '?' :: '>' :: rest => .ok (.atomic, known, rest)
  | '?' :: rest => do
    match ← readSwitch rest with
    | (.forAll on, rest) =>
      if !start then throw .malformed
      return (.switched (mode.switch on []),
        { known with
          ascii := known.ascii || on.contains 'a'
          unicode := known.unicode || on.contains 'u'
          template := known.template || on.contains 't' }, rest)
    | (.inside on off, rest) => return (.plain (mode.switch on off), known, rest)
  | _ => .ok (.capture none, known, cs)

/-- The mode a body is read in, and what is known while it is. -/
def Opening.enter (mode : Mode) (known : Known) : Opening → Except Fault (Mode × Known)
  | .capture name =>
    match name with
    | none => .ok (mode, { known with next := known.next + 1 })
    | some name =>
      if (known.names.lookup (String.ofList name)).isSome then .error .malformed
      else .ok (mode,
        { known with next := known.next + 1, names := (String.ofList name, known.next) :: known.names })
  | .plain inner => .ok (inner, known)
  | .look (.behind _) _ => .ok (mode, { known with behind := some (known.behind.getD known.next) })
  | _ => .ok (mode, known)

/-- What an opening becomes with its body read; `before` is what was known at the opening. -/
def Opening.leave (before after : Known) (body : Node) : Opening → Node × Known
  | .capture _ =>
    (.group before.next body,
      { after with widths := (before.next, body.width after.width) :: after.widths })
  | .look direction negated => (.look direction negated body, { after with behind := before.behind })
  | .atomic => (.atomic body, after)
  | .condition index => (.conditional index body, after)
  | _ => (body, after)

/-- The items up to the end or to a closing parenthesis; `items` holds those so far, last first. -/
def readItems (steps depth : Nat) (top : Bool) (mode : Mode) (known : Known) (items : List Item)
    (cs : List Char) : Except Fault (Node × Known × List Char) :=
  match steps with
  | 0 => .error .malformed
  | steps + 1 =>
    let more (items : List Item) (rest : List Char) := readItems steps depth top mode known items rest
    let again (count : Count) (rest : List Char) := do
      let (items, rest) ← repeatLast items count rest
      more items rest
    match cs with
    | [] => .ok (sequence items, known, [])
    | c :: rest =>
      if c == ')' || c == '|' then .ok (sequence items, known, cs)
      else if mode.verbose && isLayout c then more items rest
      else if mode.verbose && c == '#' then more items (skipLine rest)
      else match c with
        | '\\' =>
          match readEscape mode known rest with
          | .error fault => .error fault
          | .ok (.char code, rest) => more (literal mode code :: items) rest
          | .ok (.category kind negated, rest) =>
            more (⟨.other, .char (.set mode.fold mode.asciiOnly false [.category kind negated])⟩ :: items)
              rest
          | .ok (.anchor anchor, rest) => more (⟨.anchor, .anchor anchor⟩ :: items) rest
          | .ok (.group index, rest) =>
            more (⟨.other, .backreference mode.fold index⟩ :: items) rest
        | '[' =>
          match readSet mode rest with
          | .error fault => .error fault
          | .ok (item, rest) => more (item :: items) rest
        | '.' => more (⟨.other, .char (if mode.dotAll then .any else .anyButLineFeed)⟩ :: items) rest
        | '^' =>
          more (⟨.anchor, .anchor (if mode.multiline then .lineStart else .textStart)⟩ :: items) rest
        | '$' =>
          more (⟨.anchor, .anchor (if mode.multiline then .lineEnd else .lastLineEnd)⟩ :: items) rest
        | '?' => again ⟨0, some 1⟩ rest
        | '*' => again ⟨0, none⟩ rest
        | '+' => again ⟨1, none⟩ rest
        | '\x7b' =>
          match readBraces rest with
          | .error fault => .error fault
          | .ok none => more (literal mode (Text.codePoint c) :: items) rest
          | .ok (some (count, rest)) => again count rest
        | '(' =>
          match readOpening (top && items.isEmpty) mode known rest with
          | .error fault => .error fault
          | .ok (.comment, known, rest) => readItems steps depth top mode known items rest
          | .ok (.switched mode, known, rest) => readItems steps depth top mode known items rest
          | .ok (.reference index, known, rest) =>
            readItems steps depth top mode known (⟨.other, .backreference mode.fold index⟩ :: items) rest
          | .ok (opening, known, rest) =>
            match depth, opening.enter mode known with
            | _, .error fault => .error fault
            | 0, _ => .error .nestedTooDeep
            | depth' + 1, .ok (inner, inside) =>
              match readItems steps depth' false inner inside [] rest with
              | .error fault => .error fault
              | .ok (body, after, ')' :: rest) =>
                let (node, known) := opening.leave known after body
                readItems steps depth top mode known (⟨.other, node⟩ :: items) rest
              | .ok _ => .error .malformed
        | _ => more (literal mode (Text.codePoint c) :: items) rest

/-- The pattern a text writes. -/
def read (text : String) : Except Fault Node := do
  let cs := text.toList
  let (node, known, rest) ← readItems (cs.length + 1) Interpreter.patternDepth true .start .start [] cs
  if known.ascii && known.unicode then throw .modeConflict
  if !rest.isEmpty || known.next ≤ known.asked then throw .malformed
  match node.settleWidths known.width with
  | none => throw .malformed
  | some settled => if known.template && settled.repeats then throw .malformed else return settled

end PlanAssistant.Pattern
