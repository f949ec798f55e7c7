import BlueprintSchema.Yaml.Node
import BlueprintSchema.Yaml.Scalar

/-!
The value of a YAML document: that of its node, with every scalar resolved. A mapping with one key
twice is refused.
-/

namespace BlueprintSchema.Yaml

def Value.withTag (tag : Option String) (v : Value) : Value :=
  match tag.bind Scalar.localName? with
  | some name => .tagged name v
  | none => v

namespace Node

def scalarValue? (tag : Option String) (text : String) (plain : Bool) : Option Value :=
  match tag.bind Scalar.localName? with
  | some name => ((Scalar.form? none text plain).bind Scalar.Form.value?).map (.tagged name)
  | none => (Scalar.form? tag text plain).bind Scalar.Form.value?

mutual

def value? : Node → Option Value
  | .scalar tag text plain => scalarValue? tag text plain
  | .sequence tag items => (values? items).map fun vs => .withTag tag (.sequence vs)
  | .mapping tag entries => (entries? [] entries).map fun es => .withTag tag (.mapping es)

def values? : List Node → Option (List Value)
  | [] => some []
  | n :: ns => do
    let v ← value? n
    let vs ← values? ns
    some (v :: vs)

/-- The entries of a mapping; `seen` are those before, in reverse. -/
def entries? (seen : List (Value × Value)) : List (Node × Node) → Option (List (Value × Value))
  | [] => some seen.reverse
  | (k, v) :: es => do
    let k ← value? k
    if seen.any (fun e => e.1.same k) then none
    else
      let v ← value? v
      entries? ((k, v) :: seen) es

end

end Node

def parse (s : String) : Option Value := (Node.ofText? s).bind Node.value?

end BlueprintSchema.Yaml
