import BlueprintSchema.Binary64

/-!
Decimal text of binary64 numbers: reading to the nearest number, and the fewest digits that read
back, written with or without an exponent.
-/

namespace BlueprintSchema.Binary64

def natOfDigits (ds : List Char) : Nat :=
  ds.foldl (fun n c => n * 10 + (c.toNat - 48)) 0

def takeSign : List Char → Bool × List Char
  | '-' :: r => (true, r)
  | '+' :: r => (false, r)
  | r => (false, r)

/-- Read the exponent at the end of a decimal: nothing, or `e`, a sign and digits. -/
def exponent? : List Char → Option Int
  | [] => some 0
  | c :: r =>
    if c = 'e' || c = 'E' then
      let (negative, ds) := takeSign r
      if ds.isEmpty || !ds.all Char.isDigit then none
      else some (if negative then -(natOfDigits ds : Int) else natOfDigits ds)
    else none

/-- Read a decimal without its sign: digits with at most one point, at least one digit, and an
optional exponent. The answer `(m, e)` stands for `m * 10 ^ e`. -/
def unsignedDecimal? (s : List Char) : Option (Nat × Int) :=
  let whole := s.takeWhile Char.isDigit
  let rest := s.dropWhile Char.isDigit
  let (fraction, rest) := match rest with
    | '.' :: r => (r.takeWhile Char.isDigit, r.dropWhile Char.isDigit)
    | r => ([], r)
  if whole.isEmpty && fraction.isEmpty then none
  else (exponent? rest).map fun e => (natOfDigits (whole ++ fraction), e - fraction.length)

/-- Read a signed decimal to the nearest number. Words for infinity and NaN are not read. -/
def ofText? (s : List Char) : Option Binary64 :=
  let (negative, r) := takeSign s
  (unsignedDecimal? r).map fun (m, e) => ofDecimal negative m e

def compareScaled (a : Nat) (e : Int) (num den : Nat) : Ordering :=
  if 0 ≤ e then compare (a * tenTo e.toNat * den) num
  else compare (a * den) (num * tenTo (-e).toNat)

/-- The distance from `a * 10 ^ e` to `num / den`, times a factor that depends on `e` and `den`
alone. -/
def scaledDistance (a : Nat) (e : Int) (num den : Nat) : Nat :=
  let (x, y) := if 0 ≤ e then (a * tenTo e.toNat * den, num)
    else (a * den, num * tenTo (-e).toNat)
  if x ≤ y then y - x else x - y

def ratioOf (m : Nat) (q : Int) : Nat × Nat :=
  if 0 ≤ q then (m * twoTo q.toNat, 1) else (m, twoTo (-q).toNat)

/-- The greatest `d` with `10 ^ d ≤ num / den`, searched downwards from `d`. -/
def orderBelow (num den : Nat) : Nat → Int → Int
  | 0, d => d
  | fuel + 1, d =>
    if compareScaled 1 d num den == .gt then orderBelow num den fuel (d - 1) else d

def dropZeros : Nat → Nat → Int → Nat × Int
  | 0, a, e => (a, e)
  | fuel + 1, a, e =>
    if a ≠ 0 && a % 10 = 0 then dropZeros fuel (a / 10) (e + 1) else (a, e)

/-- The shortest decimal `(a, e)`, standing for `a * 10 ^ e`, that reads back as the finite number
`x` without its sign. Of two of one length the nearer is taken, and the even one if neither is. -/
def shortest (x : Binary64) : Nat × Int :=
  let (m, q) := x.parts
  if m = 0 then (0, 0)
  else
    let (num, den) := ratioOf m q
    let (lowNum, lowDen) :=
      if m = twoTo 52 && -1074 < q then ratioOf (4 * m - 1) (q - 2) else ratioOf (2 * m - 1) (q - 1)
    let (highNum, highDen) := ratioOf (2 * m + 1) (q - 1)
    let inside (a : Nat) (e : Int) : Bool :=
      let low := compareScaled a e lowNum lowDen
      let high := compareScaled a e highNum highDen
      if m % 2 = 0 then low != .lt && high != .gt else low == .gt && high == .lt
    let order := orderBelow num den 660 320
    let pick (n : Nat) : Option (Nat × Int) :=
      let e := order - n
      let a := if 0 ≤ e then num / (den * tenTo e.toNat) else num * tenTo (-e).toNat / den
      match inside a e, inside (a + 1) e with
      | true, true =>
        let dl := scaledDistance a e num den
        let dh := scaledDistance (a + 1) e num den
        if dl < dh || (dl = dh && a % 2 = 0) then some (a, e) else some (a + 1, e)
      | true, false => some (a, e)
      | false, true => some (a + 1, e)
      | false, false => none
    match (List.range 17).findSome? pick with
    | some (a, e) => dropZeros 20 a e
    | none => (m, q)

def digits (n : Nat) : List Char := Nat.toDigits 10 n

def withPoint (ds : List Char) (places : Nat) : List Char :=
  let padded := List.replicate (places + 1 - ds.length) '0' ++ ds
  let n := padded.length - places
  padded.take n ++ '.' :: padded.drop n

/-- Text without an exponent: a whole number has no point. -/
def toPlainText (x : Binary64) : String :=
  let sign := if x.isNegative then ['-'] else []
  if x.isNaN then "NaN"
  else if !x.isFinite then String.ofList (sign ++ ['i', 'n', 'f'])
  else
    let (a, e) := x.shortest
    let body :=
      if 0 ≤ e then digits a ++ (if a = 0 then [] else List.replicate e.toNat '0')
      else withPoint (digits a) (-e).toNat
    String.ofList (sign ++ body)

/-- Text of a finite number that always shows a point or an exponent: positional from `1e-5` up to,
but not at, `1e16`, and with an exponent outside. -/
def toPointedText (x : Binary64) : String :=
  let sign := if x.isNegative then ['-'] else []
  let (a, e) := x.shortest
  let ds := digits a
  let point : Int := ds.length + e
  let body :=
    if a = 0 then ['0', '.', '0']
    else if 0 ≤ e && point ≤ 16 then ds ++ List.replicate e.toNat '0' ++ ['.', '0']
    else if e < 0 && -5 < point && point ≤ 16 then withPoint ds (-e).toNat
    else
      let mantissa := match ds with
        | [] => []
        | [d] => [d]
        | d :: r => d :: '.' :: r
      let x := point - 1
      mantissa ++ 'e' :: (if x < 0 then '-' :: digits x.natAbs else digits x.toNat)
  String.ofList (sign ++ body)

end BlueprintSchema.Binary64
