import PlanAssistant.Pattern.Syntax

/-!
Matching patterns.  `run` tries a pattern at a cursor and hands every way it matches, the preferred one
first, to what is to come next, until that succeeds.  Repetitions end since each optional round after
the first starts further on.  `occurs` looks for a match anywhere in a text.
-/
namespace PlanAssistant.Pattern

/-- Where each group that matched last started and ended. -/
abbrev Captures := List (Nat × Nat × Nat)

structure Cursor where
  position : Nat
  groups : Captures
deriving DecidableEq, Repr

/-- One way to go on from a cursor, given what comes after. -/
abbrev Step := Cursor → (Cursor → Option Cursor) → Option Cursor

/-! ### Single characters -/

/-- How many characters from a position on are accepted, at most so many. -/
def countAccepted (text : Array Char) (test : CharTest) (position : Nat) : Nat → Nat
  | 0 => 0
  | most + 1 =>
    match text[position]? with
    | some c => if test.accepts c then countAccepted text test (position + 1) most + 1 else 0
    | none => 0

/-- Try `least + extra` characters, then one fewer, down to `least`. -/
def fewerAndFewer (cursor : Cursor) (next : Cursor → Option Cursor) (least : Nat) : Nat → Option Cursor
  | 0 => next { cursor with position := cursor.position + least }
  | extra + 1 =>
    match next { cursor with position := cursor.position + (least + (extra + 1)) } with
    | some found => some found
    | none => fewerAndFewer cursor next least extra

/-- Try `taken` characters, then one more, up to `extra` more. -/
def moreAndMore (cursor : Cursor) (next : Cursor → Option Cursor) (taken : Nat) : Nat → Option Cursor
  | 0 => next { cursor with position := cursor.position + taken }
  | extra + 1 =>
    match next { cursor with position := cursor.position + taken } with
    | some found => some found
    | none => moreAndMore cursor next (taken + 1) extra

/-- A repeated test of one character. -/
def repeatChar (text : Array Char) (test : CharTest) (greed : Greed) (least : Nat) (most : Option Nat) :
    Step := fun cursor next =>
  let room := text.size - cursor.position
  let count := countAccepted text test cursor.position (min room (most.getD room))
  if count < least then none
  else match greed with
    | .greedy => fewerAndFewer cursor next least (count - least)
    | .lazy => moreAndMore cursor next least (count - least)
    | .possessive => next { cursor with position := cursor.position + count }

/-! ### Repetitions -/

/-- The rounds that have to be. -/
def repeatExactly (round : Step) : Nat → Step
  | 0 => fun cursor next => next cursor
  | more + 1 => fun cursor next => round cursor fun cursor => repeatExactly round more cursor next

/-- Whether no further round may start: none is left, or the last one started right here. -/
def mustStop (left : Option Nat) (last : Option Nat) (cursor : Cursor) : Bool :=
  left == some 0 || last == some cursor.position

/-- Optional rounds, as many as possible first; `steps` bounds their number. -/
def repeatGreedy (round : Step) (left : Option Nat) (last : Option Nat) : Nat → Step
  | 0 => fun cursor next => next cursor
  | steps + 1 => fun cursor next =>
    if mustStop left last cursor then next cursor
    else match round cursor fun after =>
        repeatGreedy round (left.map (· - 1)) (some cursor.position) steps after next with
      | some found => some found
      | none => next cursor

/-- Optional rounds, as few as possible first. -/
def repeatLazy (round : Step) (left : Option Nat) (last : Option Nat) : Nat → Step
  | 0 => fun cursor next => next cursor
  | steps + 1 => fun cursor next =>
    match next cursor with
    | some found => some found
    | none =>
      if mustStop left last cursor then none
      else round cursor fun after =>
        repeatLazy round (left.map (· - 1)) (some cursor.position) steps after next

/-- Where the rounds that have to be end, none of them tried in a second way. -/
def rushExactly (round : Step) : Nat → Cursor → Option Cursor
  | 0 => some
  | more + 1 => fun cursor => (round cursor some).bind (rushExactly round more)

/-- Where the rounds end that go on as long as they can, none of them tried in a second way. -/
def rush (round : Step) (left : Option Nat) (last : Option Nat) : Nat → Cursor → Cursor
  | 0 => id
  | steps + 1 => fun cursor =>
    if mustStop left last cursor then cursor
    else match round cursor some with
      | some after => rush round (left.map (· - 1)) (some cursor.position) steps after
      | none => cursor

def repeatRounds (size : Nat) (round : Step) (greed : Greed) (least : Nat) (most : Option Nat) : Step :=
  fun cursor next =>
    let left := most.map (· - least)
    let steps := size + 2
    match greed with
    | .greedy =>
      repeatExactly round least cursor fun cursor => repeatGreedy round left none steps cursor next
    | .lazy => repeatExactly round least cursor fun cursor => repeatLazy round left none steps cursor next
    | .possessive =>
      match rushExactly round least cursor with
      | some cursor => next (rush round left none steps cursor)
      | none => none

/-! ### Patterns -/

/-- Whether `length` characters at two positions agree. -/
def sameText (text : Array Char) (fold : Fold) (a b : Nat) : Nat → Bool
  | 0 => true
  | length + 1 =>
    match text[a]?, text[b]? with
    | some x, some y =>
      fold.apply x.toNat == fold.apply y.toNat && sameText text fold (a + 1) (b + 1) length
    | _, _ => false

def run (text : Array Char) : Node → Step
  | .empty => fun cursor next => next cursor
  | .char test => fun cursor next =>
    match text[cursor.position]? with
    | some c => if test.accepts c then next { cursor with position := cursor.position + 1 } else none
    | none => none
  | .anchor anchor => fun cursor next =>
    if anchor.holds text cursor.position then next cursor else none
  | .seq first second => fun cursor next =>
    run text first cursor fun cursor => run text second cursor next
  | .group index body => fun cursor next =>
    run text body cursor fun after =>
      next { after with groups := (index, cursor.position, after.position) :: after.groups }
  | .repeated greed least most (.char test) => repeatChar text test greed least most
  | .repeated greed least most body => repeatRounds text.size (run text body) greed least most
  | .atomic body => fun cursor next => (run text body cursor some).bind next
  | .look direction negated body => fun cursor next =>
    let start : Option Nat := match direction with
      | .ahead => some cursor.position
      | .behind width => if width ≤ cursor.position then some (cursor.position - width) else none
    let found := start.bind fun position => run text body { cursor with position } some
    if negated then (if found.isSome then none else next cursor)
    else found.bind fun after => next { after with position := cursor.position }
  | .backreference fold index => fun cursor next =>
    match cursor.groups.lookup index with
    | some (start, stop) =>
      if sameText text fold start cursor.position (stop - start) then
        next { cursor with position := cursor.position + (stop - start) }
      else none
    | none => none
  | .conditional index body => fun cursor next =>
    if (cursor.groups.lookup index).isSome then run text body cursor next else next cursor

/-- Whether the pattern matches at one of the positions from `position` on, `left` of them after it. -/
def occursFrom (text : Array Char) (pattern : Node) (position : Nat) : Nat → Bool
  | 0 => (run text pattern ⟨position, []⟩ some).isSome
  | left + 1 =>
    (run text pattern ⟨position, []⟩ some).isSome || occursFrom text pattern (position + 1) left

/-- Whether the pattern matches somewhere in a text. -/
def occurs (pattern : Node) (text : String) : Bool :=
  let cs := text.toList.toArray
  occursFrom cs pattern 0 cs.size

end PlanAssistant.Pattern
