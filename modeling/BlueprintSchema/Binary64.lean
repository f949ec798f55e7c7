/-!
The 64-bit binary floating-point numbers, as bit patterns with exact integer arithmetic: rounding a
quotient to the nearest number, and cutting a number to a 64-bit integer.
-/

namespace BlueprintSchema

structure Binary64 where
  /-- Sign, exponent field and fraction, from the highest bit down. -/
  bits : UInt64
  deriving DecidableEq, Repr, Inhabited

namespace Binary64

def twoTo (n : Nat) : Nat := Nat.pow 2 n

def tenTo (n : Nat) : Nat := Nat.pow 10 n

/-- A quotient rounded to the nearest natural number, a half going to the even one. -/
def roundRatio (num den : Nat) : Nat :=
  let q := num / den
  let r := num % den
  if den < 2 * r || (den == 2 * r && q % 2 == 1) then q + 1 else q

def infinityBits : Nat := 0x7FF0000000000000

/-- The pattern of the number nearest to `num / den`, a tie going to the even fraction. -/
def magnitudeBits (num den : Nat) : Nat :=
  if num = 0 then 0
  else
    let k : Int := (Nat.log2 num : Int) - Nat.log2 den
    let below : Bool :=
      if 0 ≤ k then num < den * twoTo k.toNat else num * twoTo (-k).toNat < den
    let k := if below then k - 1 else k
    let e := max (k - 52) (-1074)
    let q := if 0 ≤ e then roundRatio num (den * twoTo e.toNat)
      else roundRatio (num * twoTo (-e).toNat) den
    min ((e + 1074).toNat * twoTo 52 + q) infinityBits

def ofMagnitude (negative : Bool) (magnitude : Nat) : Binary64 :=
  ⟨UInt64.ofNat (magnitude + if negative then twoTo 63 else 0)⟩

def ofRatio (negative : Bool) (num den : Nat) : Binary64 :=
  ofMagnitude negative (magnitudeBits num den)

def infinity (negative : Bool) : Binary64 := ofMagnitude negative infinityBits

def nan : Binary64 := ⟨0x7FF8000000000000⟩

/-- The number nearest to `±m * 10 ^ e`. A decimal far outside the range is settled by its order of
magnitude alone. -/
def ofDecimal (negative : Bool) (m : Nat) (e : Int) : Binary64 :=
  if m = 0 then ofMagnitude negative 0
  else
    let order : Int := (Nat.toDigits 10 m).length + e
    if 400 < order then infinity negative
    else if order < -400 then ofMagnitude negative 0
    else if 0 ≤ e then ofRatio negative (m * tenTo e.toNat) 1
    else ofRatio negative m (tenTo (-e).toNat)

def isNegative (x : Binary64) : Bool := twoTo 63 ≤ x.bits.toNat

def magnitude (x : Binary64) : Nat := x.bits.toNat % twoTo 63

def isFinite (x : Binary64) : Bool := x.magnitude < infinityBits

def isNaN (x : Binary64) : Bool := infinityBits < x.magnitude

/-- The pair `(m, q)` such that a finite number has the magnitude `m * 2 ^ q`. -/
def parts (x : Binary64) : Nat × Int :=
  let field : Nat := x.magnitude / twoTo 52
  let fraction : Nat := x.magnitude % twoTo 52
  if field = 0 then (fraction, -1074) else (fraction + twoTo 52, (field : Int) - 1075)

/-- Equality as keys compare: a NaN equals a NaN, and both zeros are one number. -/
def same (x y : Binary64) : Bool :=
  x == y || (x.isNaN && y.isNaN) || (x.magnitude == 0 && y.magnitude == 0)

def int64Min : Int := -(twoTo 63 : Int)

def int64Max : Int := (twoTo 63 : Int) - 1

/-- The number without its fraction, brought into the range of the 64-bit signed integers. -/
def toInt64 (x : Binary64) : Int :=
  if x.isNaN then 0
  else if x.magnitude = infinityBits then if x.isNegative then int64Min else int64Max
  else
    let (m, q) := x.parts
    let whole : Nat := if 0 ≤ q then m * twoTo q.toNat else m / twoTo (-q).toNat
    max int64Min (min int64Max (if x.isNegative then -(whole : Int) else whole))

end Binary64

end BlueprintSchema
