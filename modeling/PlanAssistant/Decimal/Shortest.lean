import PlanAssistant.Decimal.Nearest

/-!
The text of a double.  `shortest` finds the fewest decimal digits that read back as the same double
and, among those, the ones closest to it; `text` writes them positionally between 10⁻⁴ and 10¹⁶ and
with an exponent outside; `fixed` rounds to a given number of places.
-/
namespace PlanAssistant.Decimal

/-- The exponent `k` with `10 ^ k ≤ num / den < 10 ^ (k + 1)`, searched from a close guess. -/
def decimalExponent (num den : Nat) : Int :=
  let guess : Int := (Nat.toDigits 10 num).length - (Nat.toDigits 10 den).length
  let reaches (k : Int) : Bool :=
    if 0 ≤ k then den * tenTo k.toNat ≤ num else den ≤ num * tenTo (-k).toNat
  if reaches guess then guess else guess - 1

/-- `num / den` in units of `10 ^ unit`: the whole part, and numerator and denominator of the rest. -/
def inUnits (num den : Nat) (unit : Int) : Nat × Nat × Nat :=
  let num := if 0 ≤ unit then num else num * tenTo (-unit).toNat
  let den := if 0 ≤ unit then den * tenTo unit.toNat else den
  (num / den, num % den, den)

def readsBack (bits : UInt64) (digits : Nat) (unit : Int) : Bool :=
  (if 0 ≤ unit then nearestBits (digits * tenTo unit.toNat) 1
   else nearestBits digits (tenTo (-unit).toNat)) == bits

/-- The decimal in units of `10 ^ unit` that is closest to `num / den`, if one of the two neighbours
reads back as the double with these bits. -/
def candidate? (bits : UInt64) (num den : Nat) (unit : Int) : Option Nat :=
  let (below, rest, whole) := inUnits num den unit
  let low := readsBack bits below unit
  let high := readsBack bits (below + 1) unit
  if low && high then
    some (if 2 * rest < whole || (2 * rest == whole && below % 2 == 0) then below else below + 1)
  else if low then some below
  else if high then some (below + 1)
  else none

/-- The first grid of `count`, `count + 1`, … digits that holds a decimal reading back. -/
def shortestFrom (bits : UInt64) (num den : Nat) (exponent : Int) (count : Nat) : Nat → Nat × Int
  | 0 => ((inUnits num den (exponent - 16)).1, exponent - 16)
  | tries + 1 =>
    let unit := exponent - (count - 1 : Nat)
    match candidate? bits num den unit with
    | some digits => (digits, unit)
    | none => shortestFrom bits num den exponent (count + 1) tries

/-- The shortest decimal `digits * 10 ^ unit` for the positive value `num / den` with these bits. -/
def shortest (bits : UInt64) (num den : Nat) : Nat × Int :=
  shortestFrom bits num den (decimalExponent num den) 1 17

def dropTrailingZeros (digits : List Char) : List Char :=
  (digits.reverse.dropWhile (· == '0')).reverse

/-- Digits with the point after the first `place` of them, filled up with zeros; at least one digit
stands on each side. -/
def positional (digits : List Char) (place : Int) : List Char :=
  if place ≤ 0 then '0' :: '.' :: List.replicate (-place).toNat '0' ++ digits
  else
    let n := place.toNat
    let whole := digits.take n ++ List.replicate (n - digits.length) '0'
    let rest := digits.drop n
    whole ++ '.' :: (if rest.isEmpty then ['0'] else rest)

def exponentText (e : Int) : List Char :=
  let digits := Nat.toDigits 10 e.natAbs
  'e' :: (if e < 0 then '-' else '+') :: (if digits.length < 2 then '0' :: digits else digits)

/-- One digit, the point and the others if there are any, and an exponent. -/
def scientific (digits : List Char) (place : Int) : List Char :=
  match digits with
  | [] => []
  | d :: rest => d :: (if rest.isEmpty then [] else '.' :: rest) ++ exponentText (place - 1)

/-- A double in the fewest digits that read back. -/
def text (x : Float) : String :=
  let sign := if isNegative x then "-" else ""
  match ratio? x with
  | none => if x.isNaN then "nan" else sign ++ "inf"
  | some (num, den) =>
    if num == 0 then sign ++ "0.0"
    else
      let (n, unit) := shortest (x.toBits &&& 0x7FFFFFFFFFFFFFFF) num den
      let all := Nat.toDigits 10 n
      let place : Int := all.length + unit
      let digits := dropTrailingZeros all
      sign ++ String.ofList
        (if -4 < place && place ≤ 16 then positional digits place else scientific digits place)

/-- A double rounded to `places` decimal places, an exact half to the even neighbour. -/
def fixed (places : Nat) (x : Float) : String :=
  let sign := if isNegative x then "-" else ""
  match ratio? x with
  | none => if x.isNaN then "nan" else sign ++ "inf"
  | some (num, den) =>
    let n := roundHalfEven (num * tenTo places) den
    let digits := Nat.toDigits 10 n
    let padded := List.replicate (places + 1 - digits.length) '0' ++ digits
    let whole := padded.take (padded.length - places)
    sign ++ String.ofList
      (if places == 0 then whole else whole ++ '.' :: padded.drop (padded.length - places))

end PlanAssistant.Decimal
