/-!
Double-precision numbers as ratios of whole numbers.  `nearest num den` is the double closest to
`num / den`, the even one of two equally close ones; `ratio?` gives the exact value of a finite
double back.
-/
namespace PlanAssistant.Decimal

/-- Powers of two. -/
def twoTo (n : Nat) : Nat := Nat.pow 2 n

/-- Powers of ten. -/
def tenTo (n : Nat) : Nat := Nat.pow 10 n

/-- The whole number closest to `num / den`, the even one of two equally close ones. -/
def roundHalfEven (num den : Nat) : Nat :=
  let q := num / den
  let r := num % den
  if 2 * r < den then q
  else if den < 2 * r then q + 1
  else q + q % 2

/-- `num / den / 2 ^ e`, rounded. -/
def scaled (num den : Nat) (e : Int) : Nat :=
  if 0 ≤ e then roundHalfEven num (den * twoTo e.toNat) else roundHalfEven (num * twoTo (-e).toNat) den

/-- Whether `num / den < 2 ^ 52 * 2 ^ e`. -/
def belowUnit (num den : Nat) (e : Int) : Bool :=
  if 0 ≤ e then num < den * twoTo (52 + e.toNat) else num * twoTo (-e).toNat < den * twoTo 52

/-- The exponent of the last place of the double closest to `num / den`. -/
def placeExponent (num den : Nat) : Int :=
  let guess : Int := (num.log2 : Int) - den.log2 - 52
  max (-1074) (if belowUnit num den guess then guess - 1 else guess)

def infinityBits : UInt64 := 0x7FF0000000000000

/-- The bits of the double closest to `num / den`, sign apart; infinity when it is too large. -/
def nearestBits (num den : Nat) : UInt64 :=
  if num == 0 then 0
  else
    let e := placeExponent num den
    let m := scaled num den e
    if m < twoTo 52 then m.toUInt64
    else
      let field := (e + 1075).toNat * twoTo 52 + (m - twoTo 52)
      if field < infinityBits.toNat then field.toUInt64 else infinityBits

def nearest (negative : Bool) (num den : Nat) : Float :=
  let x := Float.ofBits (nearestBits num den)
  if negative then -x else x

/-- The double closest to a whole number, unless it is beyond the largest double. -/
def ofInt? (n : Int) : Option Float :=
  if nearestBits n.natAbs 1 == infinityBits then none else some (nearest (n < 0) n.natAbs 1)

/-- The double closest to `digits * 10 ^ exponent`.  Exponents far outside the range of doubles are
settled without computing the power. -/
def ofScientific (negative : Bool) (digits : Nat) (exponent : Int) : Float :=
  let zero : Float := if negative then -0.0 else 0.0
  let count : Int := (Nat.toDigits 10 digits).length
  if digits == 0 || exponent + count < -400 then zero
  else if 400 < exponent + count then
    (if negative then -Float.ofBits infinityBits else Float.ofBits infinityBits)
  else if 0 ≤ exponent then nearest negative (digits * tenTo exponent.toNat) 1
  else nearest negative digits (tenTo (-exponent).toNat)

def isNegative (x : Float) : Bool := x.toBits >>> 63 == 1

/-- The magnitude of a finite double as `m * 2 ^ e`. -/
def magnitude? (x : Float) : Option (Nat × Int) :=
  let bits := x.toBits.toNat
  let field : Nat := bits / twoTo 52 % 2048
  let fraction : Nat := bits % twoTo 52
  if field == 2047 then none
  else if field == 0 then some (fraction, -1074)
  else some (fraction + twoTo 52, (field : Int) - 1075)

/-- The magnitude of a finite double as a ratio of whole numbers. -/
def ratio? (x : Float) : Option (Nat × Nat) :=
  (magnitude? x).map fun (m, e) =>
    if 0 ≤ e then (m * twoTo e.toNat, 1) else (m, twoTo (-e).toNat)

end PlanAssistant.Decimal
