import BlueprintSchema.Json

/-!
Reading JSON text. A number without point and exponent is an integer as long as it fits 64 bits; any
other is a float. Nesting is bounded, and text after the value is refused.
-/

namespace BlueprintSchema.Json

def isSpace (c : Char) : Bool := c == ' ' || c == '\n' || c == '\t' || c == '\r'

def hexValue? (c : Char) : Option Nat :=
  if '0' ≤ c && c ≤ '9' then some (c.toNat - 48)
  else if 'a' ≤ c && c ≤ 'f' then some (c.toNat - 87)
  else if 'A' ≤ c && c ≤ 'F' then some (c.toNat - 55)
  else none

def hex4? : List Char → Option (Nat × List Char)
  | a :: b :: c :: d :: r => do
    let a ← hexValue? a
    let b ← hexValue? b
    let c ← hexValue? c
    let d ← hexValue? d
    some (((a * 16 + b) * 16 + c) * 16 + d, r)
  | _ => none

/-- The character of an escape after its backslash, and the rest. A pair of surrogates is one
character; a surrogate on its own is refused. -/
def escape? : List Char → Option (Char × List Char)
  | '"' :: r => some ('"', r)
  | '\\' :: r => some ('\\', r)
  | '/' :: r => some ('/', r)
  | 'b' :: r => some ('\x08', r)
  | 'f' :: r => some ('\x0c', r)
  | 'n' :: r => some ('\n', r)
  | 'r' :: r => some ('\r', r)
  | 't' :: r => some ('\t', r)
  | 'u' :: r => do
    let (n, r) ← hex4? r
    if 0xD800 ≤ n && n < 0xDC00 then
      match r with
      | '\\' :: 'u' :: r => do
        let (m, r) ← hex4? r
        if 0xDC00 ≤ m && m < 0xE000 then
          some (Char.ofNat (0x10000 + (n - 0xD800) * 1024 + (m - 0xDC00)), r)
        else none
      | _ => none
    else if 0xDC00 ≤ n && n < 0xE000 then none
    else some (Char.ofNat n, r)
  | _ => none

/-- The rest of a string after its opening quote: its characters and what follows the closing quote.
The first argument bounds the number of steps. -/
def stringBody? : Nat → List Char → Option (List Char × List Char)
  | 0, _ => none
  | _ + 1, [] => none
  | _ + 1, '"' :: r => some ([], r)
  | fuel + 1, '\\' :: r => do
    let (c, r) ← escape? r
    let (cs, r) ← stringBody? fuel r
    some (c :: cs, r)
  | fuel + 1, c :: r =>
    if c.toNat < 32 then none
    else (stringBody? fuel r).map fun (cs, r) => (c :: cs, r)

/-- Digits folded into a significand of at most 64 bits: the significand, and how many digits did not
fit. -/
def foldSignificand (start : Nat) (ds : List Char) : Nat × Nat :=
  ds.foldl (fun (n, dropped) c =>
    let m := n * 10 + (c.toNat - 48)
    if dropped = 0 && m < Binary64.twoTo 64 then (m, 0) else (n, dropped + 1)) (start, 0)

def product (x y : Binary64) : Binary64 :=
  let (a, p) := x.parts
  let (b, q) := y.parts
  let (num, den) := Binary64.ratioOf (a * b) (p + q)
  Binary64.ofRatio false num den

/-- The quotient of two nonnegative finite numbers, rounded; the divisor is not zero. -/
def quotient (x y : Binary64) : Binary64 :=
  let (a, p) := x.parts
  let (b, q) := y.parts
  let (num, den) := Binary64.ratioOf a (p - q)
  Binary64.ofRatio false num (den * b)

/-- A significand scaled by a power of ten, with one rounding for the significand, one for the power
and one for the result; a power below the range is applied in steps of 308. Overflow is refused. -/
def scale? : Nat → Binary64 → Int → Option Binary64
  | 0, f, _ => some f
  | fuel + 1, f, e =>
    if e.natAbs ≤ 308 then
      let power := Binary64.ofDecimal false 1 e.natAbs
      if 0 ≤ e then
        let g := product f power
        if g.isFinite then some g else none
      else some (quotient f power)
    else if f.magnitude = 0 then some f
    else if 0 ≤ e then none
    else scale? fuel (quotient f (Binary64.ofDecimal false 1 308)) (e + 308)

def number? (s : List Char) : Option (Json × List Char) :=
  let (negative, r) := match s with
    | '-' :: r => (true, r)
    | r => (false, r)
  let whole := r.takeWhile Char.isDigit
  let rest := r.dropWhile Char.isDigit
  if whole.isEmpty || (whole.head? = some '0' && 1 < whole.length) then none
  else
    let (n, excess) := foldSignificand 0 whole
    let fraction? : Option (Option (List Char) × List Char) := match rest with
      | '.' :: r =>
        let ds := r.takeWhile Char.isDigit
        if ds.isEmpty then none else some (some ds, r.dropWhile Char.isDigit)
      | r => some (none, r)
    match fraction? with
    | none => none
    | some (fraction, rest) =>
      let exponent? : Option (Option Int × List Char) := match rest with
        | c :: r =>
          if c = 'e' || c = 'E' then
            let (down, r) := Binary64.takeSign r
            let ds := r.takeWhile Char.isDigit
            if ds.isEmpty then none
            else
              let x : Int := Binary64.natOfDigits ds
              some (some (if down then -x else x), r.dropWhile Char.isDigit)
          else some (none, rest)
        | [] => some (none, rest)
      match exponent? with
      | none => none
      | some (exponent, rest) =>
        match fraction, exponent with
        | none, none =>
          if excess = 0 && !negative then some (.int n, rest)
          else if excess = 0 && n ≠ 0 && n ≤ Binary64.twoTo 63 then some (.int (-(n : Int)), rest)
          else
            (scale? 4 (Binary64.ofRatio false n 1) excess).map fun x =>
              (.float (if negative then .ofMagnitude true x.magnitude else x), rest)
        | _, _ =>
          let (n, e) := match fraction with
            | none => (n, (excess : Int))
            | some ds =>
              if excess ≠ 0 then (n, (excess : Int))
              else
                let (m, dropped) := foldSignificand n ds
                (m, (dropped : Int) - ds.length)
          let x? :=
            if n = 0 then some (Binary64.ofMagnitude false 0)
            else scale? 4 (Binary64.ofRatio false n 1) (e + exponent.getD 0)
          x?.map fun x =>
            (.float (if negative then .ofMagnitude true x.magnitude else x), rest)

def word? (w : List Char) (j : Json) (s : List Char) : Option (Json × List Char) :=
  if w.isPrefixOf s then some (j, s.drop w.length) else none

mutual

/-- A value at the start, after blanks, and the rest. The first argument bounds the number of steps,
the second the nesting. -/
def readValue? : Nat → Nat → List Char → Option (Json × List Char)
  | 0, _, _ => none
  | fuel + 1, depth, s =>
    match s.dropWhile isSpace with
    | '"' :: r => (stringBody? (r.length + 1) r).map fun (cs, r) => (.string (String.ofList cs), r)
    | '[' :: r =>
      if depth = 0 then none
      else match r.dropWhile isSpace with
        | ']' :: r => some (.array [], r)
        | r => (readItems? fuel (depth - 1) r).map fun (js, r) => (.array js, r)
    | '\x7b' :: r =>
      if depth = 0 then none
      else match r.dropWhile isSpace with
        | '\x7d' :: r => some (.object [], r)
        | r => (readMembers? fuel (depth - 1) r).map fun (ms, r) => (ofMembers ms, r)
    | 't' :: r => word? ['r', 'u', 'e'] (.bool true) r
    | 'f' :: r => word? ['a', 'l', 's', 'e'] (.bool false) r
    | 'n' :: r => word? ['u', 'l', 'l'] .null r
    | r => number? r

def readItems? : Nat → Nat → List Char → Option (List Json × List Char)
  | 0, _, _ => none
  | fuel + 1, depth, s => do
    let (j, r) ← readValue? fuel depth s
    match r.dropWhile isSpace with
    | ']' :: r => some ([j], r)
    | ',' :: r => do
      let (js, r) ← readItems? fuel depth r
      some (j :: js, r)
    | _ => none

def readMembers? : Nat → Nat → List Char → Option (List (String × Json) × List Char)
  | 0, _, _ => none
  | fuel + 1, depth, s =>
    match s.dropWhile isSpace with
    | '"' :: r => do
      let (key, r) ← stringBody? (r.length + 1) r
      match r.dropWhile isSpace with
      | ':' :: r => do
        let (j, r) ← readValue? fuel depth r
        match r.dropWhile isSpace with
        | '\x7d' :: r => some ([(String.ofList key, j)], r)
        | ',' :: r => do
          let (ms, r) ← readMembers? fuel depth r
          some ((String.ofList key, j) :: ms, r)
        | _ => none
      | _ => none
    | _ => none

end

def maxDepth : Nat := 127

def parse (s : String) : Option Json :=
  let cs := s.toList
  match readValue? (2 * cs.length + 2) maxDepth cs with
  | some (j, rest) => if rest.all isSpace then some j else none
  | none => none

end BlueprintSchema.Json
