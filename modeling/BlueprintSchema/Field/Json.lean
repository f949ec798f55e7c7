import BlueprintSchema.Field
import BlueprintSchema.Json

/-!
Field definitions as JSON: an object with handle, type and options, or an array of the same in this
order.
-/

namespace BlueprintSchema

namespace Yaml.Value

mutual

def ofJson : Json → Value
  | .null => .null
  | .bool b => .bool b
  | .int n => .int n
  | .float x => .float x
  | .string s => .string s
  | .array items => .sequence (ofJsonItems items)
  | .object members => .mapping (ofJsonMembers members)

def ofJsonItems : List Json → List Value
  | [] => []
  | j :: r => ofJson j :: ofJsonItems r

def ofJsonMembers : List (String × Json) → List (Value × Value)
  | [] => []
  | (k, j) :: r => (.string k, ofJson j) :: ofJsonMembers r

end

/-- The name that a key has in JSON: text as it is, a truth value or a finite number in its written
form. -/
def memberName? : Value → Option String
  | .string s => some s
  | .bool b => some (if b then "true" else "false")
  | .int n => some (toString n)
  | .float x => if x.isFinite then some x.toPointedText else none
  | _ => none

mutual

/-- The JSON value of a YAML value. A tagged value is an object with its tag as the only name; a mapping
has none if one of its keys has no name. -/
def toJson? : Value → Option Json
  | .null => some .null
  | .bool b => some (.bool b)
  | .int n => some (.int n)
  | .float x => some (.float x)
  | .string s => some (.string s)
  | .sequence items => (toJsonItems? items).map .array
  | .mapping entries => (toJsonMembers? entries).map .ofMembers
  | .tagged tag v => (toJson? v).map fun j => .object [("!" ++ tag, j)]

def toJsonItems? : List Value → Option (List Json)
  | [] => some []
  | v :: r => do
    let j ← toJson? v
    let js ← toJsonItems? r
    some (j :: js)

def toJsonMembers? : List (Value × Value) → Option (List (String × Json))
  | [] => some []
  | (k, v) :: r => do
    let name ← memberName? k
    let j ← toJson? v
    let ms ← toJsonMembers? r
    some ((name, j) :: ms)

end

end Yaml.Value

namespace Field

def configOfJson? : Json → Option (Dict Yaml.Value)
  | .object members => some (.ofList (members.map fun (k, j) => (k, .ofJson j)))
  | _ => none

/-- A field from JSON. Members of other names are passed over, and absent options are none. -/
def ofJson? : Json → Option Field
  | .object members => do
    let handle ← (members.lookup "handle").bind Json.string?
    let kind ← (members.lookup "type").bind Json.string?
    let config ← match members.lookup "config" with
      | some j => configOfJson? j
      | none => some ∅
    some ⟨handle, kind, config⟩
  | .array [.string handle, .string kind] => some ⟨handle, kind, ∅⟩
  | .array [.string handle, .string kind, j] => (configOfJson? j).map fun c => ⟨handle, kind, c⟩
  | _ => none

/-- A field as a JSON object, without the options if there are none. -/
def toJson? (f : Field) : Option Json := do
  let members := [("handle", Json.string f.handle), ("type", Json.string f.kind)]
  if f.config.isEmpty then some (.ofMembers members)
  else do
    let options ← f.config.toList.mapM fun (k, v) => v.toJson?.map fun j => (k, j)
    some (.ofMembers (("config", .ofMembers options) :: members))

end Field

end BlueprintSchema
