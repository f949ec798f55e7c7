import BlueprintSchema.Dict
import BlueprintSchema.Text.Blank
import BlueprintSchema.Yaml.Value

/-!
A field: its handle, its kind, and the options that its blueprint gives it. Among the options
`max_items` is read as a number, since it decides between one related item and a list of them.
-/

namespace BlueprintSchema

def defaultKind : String := "text"

def computedKind : String := "computed"

structure Field where
  handle : String
  kind : String
  config : Dict Yaml.Value

namespace Field

def computed (handle : String) : Field := ⟨handle, computedKind, ∅⟩

def int64? (s : List Char) : Option Int :=
  let (negative, ds) := Binary64.takeSign s
  if ds.isEmpty || !ds.all Char.isDigit then none
  else
    let n : Int := Binary64.natOfDigits ds
    let n := if negative then -n else n
    if Binary64.int64Min ≤ n && n ≤ Binary64.int64Max then some n else none

/-- The integer that text spells: a 64-bit integer, or else a finite decimal without its fraction,
brought into the range of 64 bits. -/
def numeric? (s : List Char) : Option Int :=
  match int64? s with
  | some n => some n
  | none =>
    match Binary64.ofText? s with
    | some x => if x.isFinite then some x.toInt64 else none
    | none => none

/-- The greatest number of related items, from an integer or from text that spells a number. -/
def maxItems (f : Field) : Option Int :=
  match f.config.get? "max_items" with
  | some (.int n) => if n ≤ Binary64.int64Max then some n else none
  | some (.string s) => numeric? (Text.trimChars s.toList)
  | _ => none

def isSingle (f : Field) : Bool := f.maxItems == some 1

end Field

end BlueprintSchema
