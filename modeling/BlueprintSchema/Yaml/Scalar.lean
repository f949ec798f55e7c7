import BlueprintSchema.Yaml.Value

/-!
What a scalar denotes. A plain scalar without a tag is read by its form: null, a truth value, an
integer, a float, or else text. A standard tag asks for one of these forms and refuses any other.
-/

namespace BlueprintSchema.Yaml.Scalar

def nullWords : List String := ["null", "Null", "NULL", "~"]

def boolWords : List (String × Bool) :=
  [("true", true), ("True", true), ("TRUE", true),
   ("false", false), ("False", false), ("FALSE", false)]

def digitValue? (radix : Nat) (c : Char) : Option Nat :=
  let v :=
    if '0' ≤ c && c ≤ '9' then c.toNat - 48
    else if 'a' ≤ c && c ≤ 'z' then c.toNat - 87
    else if 'A' ≤ c && c ≤ 'Z' then c.toNat - 55
    else 36
  if v < radix then some v else none

def natOf? (radix : Nat) : List Char → Option Nat
  | [] => none
  | ds => ds.foldlM (fun n c => (digitValue? radix c).map (n * radix + ·)) 0

def radixMark? : List Char → Option (Nat × List Char)
  | '0' :: 'x' :: r => some (16, r)
  | '0' :: 'o' :: r => some (8, r)
  | '0' :: 'b' :: r => some (2, r)
  | _ => none

/-- Whether text is made of digits after an optional sign, with a zero in front of others: such text
is no number. -/
def isZeroPadded (s : List Char) : Bool :=
  let ds := match s with
    | '+' :: r => r
    | '-' :: r => r
    | r => r
  1 < ds.length && ds.head? == some '0' && ds.all Char.isDigit

/-- The integer that text spells, of any size. A radix mark may follow a sign. A mark whose digits do
not fit leaves the text to be read as a decimal, which it is not. -/
def integer? (s : List Char) : Option Int :=
  match s with
  | '-' :: r =>
    match radixMark? r with
    | some (radix, ds) => (natOf? radix ds).map fun n => -(n : Int)
    | none => if isZeroPadded s then none else (natOf? 10 r).map fun n => -(n : Int)
  | _ =>
    let r := match s with
      | '+' :: r => r
      | r => r
    match radixMark? r with
    | some (radix, ds) => (natOf? radix ds).map Int.ofNat
    | none => if isZeroPadded s then none else (natOf? 10 r).map Int.ofNat

inductive Form
  | null
  | bool (b : Bool)
  /-- An integer of 64 bits; `minus` says that it is written with a minus sign. -/
  | int (n : Int) (minus : Bool)
  /-- An integer of up to 128 bits that 64 do not hold. -/
  | wide (n : Int)
  | float (x : Binary64)
  | string (s : String)

def Form.value? : Form → Option Value
  | .null => some .null
  | .bool b => some (.bool b)
  | .int n _ => some (.int n)
  | .wide _ => none
  | .float x => some (.float x)
  | .string s => some (.string s)

def intForm? (s : List Char) : Option Form :=
  match integer? s with
  | none => none
  | some n =>
    if Binary64.int64Min ≤ n && n < Binary64.twoTo 64 then some (.int n (s.head? == some '-'))
    else if -(Binary64.twoTo 127 : Int) ≤ n && n < Binary64.twoTo 128 then some (.wide n)
    else none

/-- The float that text spells: a finite decimal, or a word for infinity or NaN. -/
def float? (s : List Char) : Option Binary64 :=
  let word := String.ofList s
  if [".inf", ".Inf", ".INF", "+.inf", "+.Inf", "+.INF"].contains word then
    some (.infinity false)
  else if ["-.inf", "-.Inf", "-.INF"].contains word then some (.infinity true)
  else if [".nan", ".NaN", ".NAN"].contains word then some .nan
  else
    match Binary64.ofText? s with
    | some x => if x.isFinite then some x else none
    | none => none

def resolve (text : String) : Form :=
  if text = "" ∨ nullWords.contains text then .null
  else
    match boolWords.lookup text with
    | some b => .bool b
    | none =>
      match intForm? text.toList with
      | some form => form
      | none =>
        if isZeroPadded text.toList then .string text
        else
          match float? text.toList with
          | some x => .float x
          | none => .string text

def standard : String := "tag:yaml.org,2002:"

/-- The name of a local tag. A tag of a lone mark has the mark as its name. -/
def localName? (tag : String) : Option String :=
  match tag.toList with
  | ['!'] => some "!"
  | '!' :: r => some (String.ofList r)
  | _ => none

/-- What a scalar with a tag that is not local, or with none, denotes. -/
def form? (tag : Option String) (text : String) (plain : Bool) : Option Form :=
  match tag with
  | none => some (if plain then resolve text else .string text)
  | some t =>
    if t = standard ++ "bool" then (boolWords.lookup text).map .bool
    else if t = standard ++ "int" then intForm? text.toList
    else if t = standard ++ "float" then (float? text.toList).map .float
    else if t = standard ++ "null" then
      if nullWords.contains text then some .null else none
    else some (.string text)

end BlueprintSchema.Yaml.Scalar
