import PlanAssistant.Text.CaseVariants
import PlanAssistant.Text.Blank
import PlanAssistant.Text.Digit
import PlanAssistant.Text.Word

/-!
Search patterns as trees, and which characters and positions their leaves accept.  How letters compare
is settled in each leaf: exactly, without regard to the case of ASCII letters, or without regard to any
case.  A pattern has no alternatives: the bar that would divide them ends the pattern in a search.
-/
namespace PlanAssistant.Pattern

/-- How characters are compared. -/
inductive Fold where
  | exact
  | ascii
  | full
deriving DecidableEq, Repr, Inhabited

namespace Fold

/-- The form of a character that comparisons look at. -/
def apply : Fold → Nat → Nat
  | exact, code => code
  | ascii, code => Text.lowerAsciiCode code
  | full, code => Text.lowerCode code

/-- The forms that count as the character `code`. -/
def forms (fold : Fold) (code : Nat) : List Nat :=
  match fold with
  | full => let small := Text.lowerCode code; small :: Text.siblings small
  | _ => [fold.apply code]

/-- Whether some character of the basic plane between the bounds counts as one whose form is `form`. -/
def meetsBasic (fold : Fold) (low high form : Nat) : Bool :=
  let within (code : Nat) : Bool := low ≤ code && code ≤ high
  match fold with
  | exact => within form
  | ascii =>
    if 65 ≤ form && form ≤ 90 then false
    else within form || (97 ≤ form && form ≤ 122 && within (form - 32))
  | full => (within form && Text.lowerCode form == form) || (Text.caseVariants form).any within

/-- Whether a form counts as some character between the bounds.  Beyond the basic plane a form stands
for itself and its capital. -/
def meets (fold : Fold) (low high form : Nat) : Bool :=
  let within (code : Nat) : Bool := low ≤ code && code ≤ high
  if fold == exact then within form
  else if high < 65536 then fold.meetsBasic low high form
  else within form || (Text.highCapital? form).any within ||
    (low < 65536 && form < 65536 && fold.meetsBasic low 65535 form)

end Fold

inductive Category where
  | digit
  | space
  | word
deriving DecidableEq, Repr

/-- Whether a character belongs to a category, of ASCII alone or of all scripts. -/
def Category.holds (asciiOnly : Bool) (category : Category) (code : Nat) : Bool :=
  if asciiOnly then
    match category with
    | digit => 48 ≤ code && code ≤ 57
    | space => code == 32 || (9 ≤ code && code ≤ 13)
    | word =>
      (48 ≤ code && code ≤ 57) || (65 ≤ code && code ≤ 90) || code == 95 || (97 ≤ code && code ≤ 122)
  else
    match category with
    | digit => Text.isDigit (Char.ofNat code)
    | space => Text.isBlank (Char.ofNat code)
    | word => Text.isWord (Char.ofNat code)

inductive SetItem where
  | char (code : Nat)
  | range (low high : Nat)
  | category (kind : Category) (negated : Bool)
deriving DecidableEq, Repr

/-- Whether an item of a set accepts a character with this form.  Beyond the basic plane, a single
character in a set stands for itself alone. -/
def SetItem.accepts (fold : Fold) (asciiOnly : Bool) (form : Nat) : SetItem → Bool
  | char code => if code < 65536 then (fold.forms code).contains form else form == code
  | range low high => fold.meets low high form
  | category kind negated => kind.holds asciiOnly form != negated

/-- A test of one character. -/
inductive CharTest where
  | any
  | anyButLineFeed
  | letter (fold : Fold) (forms : List Nat) (negated : Bool)
  | set (fold : Fold) (asciiOnly : Bool) (negated : Bool) (items : List SetItem)
deriving DecidableEq, Repr

def CharTest.accepts (c : Char) : CharTest → Bool
  | any => true
  | anyButLineFeed => c != '\n'
  | letter fold forms negated => forms.contains (fold.apply c.toNat) != negated
  | set fold asciiOnly negated items =>
    items.any (·.accepts fold asciiOnly (fold.apply c.toNat)) != negated

/-- A test of a position. -/
inductive Anchor where
  | textStart
  | lineStart
  | textEnd
  | lastLineEnd
  | lineEnd
  | boundary (asciiOnly : Bool)
  | notBoundary (asciiOnly : Bool)
deriving DecidableEq, Repr

/-- Whether the character at a position belongs to a word. -/
def isWordAt (asciiOnly : Bool) (text : Array Char) (position : Nat) : Bool :=
  (text[position]?).any fun c => Category.word.holds asciiOnly c.toNat

/-- Whether a word starts or ends at a position. -/
def isBoundary (asciiOnly : Bool) (text : Array Char) (position : Nat) : Bool :=
  (0 < position && isWordAt asciiOnly text (position - 1)) != isWordAt asciiOnly text position

def Anchor.holds (text : Array Char) (position : Nat) : Anchor → Bool
  | textStart => position == 0
  | lineStart => position == 0 || text[position - 1]? == some '\n'
  | textEnd => position == text.size
  | lastLineEnd =>
    position == text.size || (position + 1 == text.size && text[position]? == some '\n')
  | lineEnd => position == text.size || text[position]? == some '\n'
  | boundary asciiOnly => !text.isEmpty && isBoundary asciiOnly text position
  | notBoundary asciiOnly => !text.isEmpty && !isBoundary asciiOnly text position

/-- How a repetition goes about it: as often as it can, as seldom as it can, or as often as it can
without ever giving anything back. -/
inductive Greed where
  | greedy
  | lazy
  | possessive
deriving DecidableEq, Repr

/-- Where a look-around looks: at what comes, or at so many characters before. -/
inductive Direction where
  | ahead
  | behind (width : Nat)
deriving DecidableEq, Repr

inductive Node where
  | empty
  | char (test : CharTest)
  | anchor (anchor : Anchor)
  | seq (first second : Node)
  | group (index : Nat) (body : Node)
  | repeated (greed : Greed) (least : Nat) (most : Option Nat) (body : Node)
  | atomic (body : Node)
  | look (direction : Direction) (negated : Bool) (body : Node)
  | backreference (fold : Fold) (index : Nat)
  | conditional (index : Nat) (body : Node)
deriving DecidableEq, Repr, Inhabited

/-- Least and greatest number of characters a match takes. -/
structure Width where
  least : Nat
  most : Nat
deriving DecidableEq, Repr

/-- Stands for a width without bound. -/
def unboundedWidth : Nat := 0x10000000000000000

namespace Node

/-- The width of a pattern, given those of the groups it may refer to. -/
def width (groups : Nat → Width) : Node → Width
  | empty => ⟨0, 0⟩
  | char _ => ⟨1, 1⟩
  | anchor _ => ⟨0, 0⟩
  | seq first second =>
    let a := width groups first
    let b := width groups second
    ⟨a.least + b.least, a.most + b.most⟩
  | group _ body => width groups body
  | repeated _ least most body =>
    let w := width groups body
    match most with
    | some most => ⟨least * w.least, most * w.most⟩
    | none => ⟨least * w.least, if w.most == 0 then 0 else unboundedWidth⟩
  | atomic body => width groups body
  | look _ _ _ => ⟨0, 0⟩
  | backreference _ index => groups index
  | conditional _ body => ⟨0, (width groups body).most⟩

/-- The pattern with the width of every look behind filled in; nothing if one has no fixed width. -/
def settleWidths (groups : Nat → Width) : Node → Option Node
  | seq first second => do return seq (← settleWidths groups first) (← settleWidths groups second)
  | group index body => (settleWidths groups body).map (group index)
  | repeated greed least most body => (settleWidths groups body).map (repeated greed least most)
  | atomic body => (settleWidths groups body).map atomic
  | look direction negated body => do
    let body' ← settleWidths groups body
    match direction with
    | .ahead => return look .ahead negated body'
    | .behind _ =>
      let w := width groups body
      if w.least == w.most && w.least < 0x100000000 then return look (.behind w.least) negated body' else none
  | conditional index body => (settleWidths groups body).map (conditional index)
  | leaf => some leaf

/-- Whether anything in the pattern is repeated. -/
def repeats : Node → Bool
  | seq first second => repeats first || repeats second
  | repeated .. => true
  | group _ body => repeats body
  | atomic body => repeats body
  | look _ _ body => repeats body
  | conditional _ body => repeats body
  | _ => false

end Node
end PlanAssistant.Pattern
