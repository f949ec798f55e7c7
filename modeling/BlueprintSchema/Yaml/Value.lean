import BlueprintSchema.Binary64.Decimal

/-!
YAML values: what a document denotes once its scalars are resolved and its aliases are replaced.
-/

namespace BlueprintSchema.Yaml

/-- A YAML value. The entries of a mapping keep the order of the document. -/
inductive Value
  | null
  | bool (b : Bool)
  | int (n : Int)
  | float (x : Binary64)
  | string (s : String)
  | sequence (items : List Value)
  | mapping (entries : List (Value × Value))
  | tagged (tag : String) (value : Value)
  deriving Inhabited

abbrev Mapping := List (Value × Value)

namespace Value

mutual

/-- Whether two values are one and the same key: numbers by value, with a NaN equal to a NaN, and
mappings without regard to order. -/
def same : Value → Value → Bool
  | null, null => true
  | bool a, bool b => a == b
  | int a, int b => a == b
  | float a, float b => a.same b
  | string a, string b => a == b
  | sequence a, sequence b => sameItems a b
  | mapping a, mapping b => a.length == b.length && sameEntries a b
  | tagged s a, tagged t b => s == t && same a b
  | _, _ => false

def sameItems : List Value → List Value → Bool
  | [], [] => true
  | a :: r, b :: s => same a b && sameItems r s
  | _, _ => false

def sameEntries : List (Value × Value) → List (Value × Value) → Bool
  | [], _ => true
  | e :: r, es => hasEntry e es && sameEntries r es

def hasEntry : Value × Value → List (Value × Value) → Bool
  | (k, v), es => es.any fun e => same k e.1 && same v e.2

end

def untagged : Value → Value
  | tagged _ v => untagged v
  | v => v

def asString? (v : Value) : Option String :=
  match v.untagged with
  | string s => some s
  | _ => none

/-- The items of a sequence, or the values of a mapping, in document order; any other value has no
members. -/
def members : Value → List Value
  | sequence items => items
  | mapping entries => entries.map (·.2)
  | _ => []

end Value

namespace Mapping

def get? (m : Mapping) (key : String) : Option Value :=
  m.findSome? fun
    | (.string k, v) => if k = key then some v else none
    | _ => none

def contains (m : Mapping) (key : String) : Bool := (get? m key).isSome

end Mapping

def Value.get? (v : Value) (key : String) : Option Value :=
  match v.untagged with
  | .mapping m => Mapping.get? m key
  | _ => none

/-- The text of a number as a key: an integer in decimal, a float with a point or an exponent, and
the words for infinity and NaN behind a point. -/
def floatText (x : Binary64) : String :=
  if x.isNaN then ".nan"
  else if x.isFinite then x.toPointedText
  else if x.isNegative then "-.inf" else ".inf"

end BlueprintSchema.Yaml
