import BlueprintSchema.Field
import BlueprintSchema.FileTree
import BlueprintSchema.Yaml.Document

/-!
The fields of a blueprint document. Three layouts are read, and one document may mix them: tabs with
sections, sections, and a flat list. An entry that does not describe a field is passed over.
-/

namespace BlueprintSchema.Blueprint

def bookkeepingKeys : List String := ["type", "display", "instructions", "handle"]

/-- The option name that a key stands for: scalars by their text, nothing else. -/
def optionName? : Yaml.Value → Option String
  | .string s => some s
  | .int n => some (toString n)
  | .float x => some (Yaml.floatText x)
  | .bool b => some (if b then "true" else "false")
  | _ => none

/-- The options in a mapping: every scalar key that is not bookkeeping, the last of equal names
counting. -/
def options (data : Yaml.Mapping) : Dict Yaml.Value :=
  .ofList <| data.filterMap fun (key, value) =>
    match optionName? key with
    | some name => if bookkeepingKeys.contains name then none else some (name, value)
    | none => none

/-- The mapping that describes a field: the one under `field`, or the entry itself. -/
def fieldData? (entry : Yaml.Mapping) : Option Yaml.Mapping :=
  match Yaml.Mapping.get? entry "field" with
  | none => some entry
  | some .null => some entry
  | some (.mapping data) => some data
  | some _ => none

def kind? (data : Yaml.Mapping) : Option String :=
  match Yaml.Mapping.get? data "type" with
  | none => some defaultKind
  | some .null => some defaultKind
  | some v => v.asString?

/-- The field that an entry of a list describes. An import of other fields is not expanded. -/
def fieldOf? : Yaml.Value → Option Field
  | .mapping entry =>
    if Yaml.Mapping.contains entry "import" then none
    else do
      let handle ← (Yaml.Mapping.get? entry "handle").bind Yaml.Value.asString?
      let data ← fieldData? entry
      let kind ← kind? data
      some ⟨handle, kind, options data⟩
  | _ => none

def fieldsOfList (list : Yaml.Value) : List Field := list.members.filterMap fieldOf?

def listed (list : Option Yaml.Value) : List Field :=
  match list with
  | some l => fieldsOfList l
  | none => []

def fieldsOfSections (sections : Option Yaml.Value) : List Field :=
  match sections with
  | some s => s.members.flatMap fun part => listed (part.get? "fields")
  | none => []

def fieldsOfPart (part : Yaml.Mapping) : List Field :=
  fieldsOfSections (Yaml.Mapping.get? part "sections") ++ listed (Yaml.Mapping.get? part "fields")

/-- The fields of one tab; only a mapping is a tab. -/
def fieldsOfTab : Yaml.Value → List Field
  | .mapping tab => fieldsOfPart tab
  | _ => []

/-- The fields of a document: those of its tabs, of its sections, and of its own list. -/
def fieldsOfDocument : Yaml.Value → List Field
  | .mapping root =>
    (match Yaml.Mapping.get? root "tabs" with
      | some tabs => tabs.members.flatMap fieldsOfTab
      | none => []) ++ fieldsOfPart root
  | _ => []

/-- The fields of a blueprint's text. Blank text has none, and text that is no document has no
answer. -/
def parse? (content : String) : Option (List Field) :=
  if Text.isAllBlank content then some []
  else (Yaml.parse content).map fieldsOfDocument

inductive Error
  | unreadable (path cause : String)
  | malformed

def Error.message : Error → String
  | .unreadable path cause => "failed to read blueprint '" ++ path ++ "': " ++ cause
  | .malformed => "YAML error"

/-- The fields of the blueprint at a path, or why it cannot be read. A path that leads nowhere has
none. -/
def load (t : FileTree) (path : String) : Except Error (List Field) :=
  if t.contains path then
    match t.read path with
    | .ok content =>
      match parse? content with
      | some fields => .ok fields
      | none => .error .malformed
    | .error cause => .error (.unreadable path cause.message)
  else .ok []

def fields (t : FileTree) (path : String) : List Field :=
  match load t path with
  | .ok fs => fs
  | .error _ => []

end BlueprintSchema.Blueprint
