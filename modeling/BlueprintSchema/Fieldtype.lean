import BlueprintSchema.Field
import BlueprintSchema.SemanticType

/-!
From the kind of a field to the type of its value. The built-in kinds are settled first, so that a
custom kind can be added but no built-in kind can be changed; any other kind is `mixed`.
-/

namespace BlueprintSchema

namespace Fieldtype

def stringKinds : List String :=
  ["text", "textarea", "markdown", "slug", "code", "color", "html", "video", "template", "link",
   "time", "yaml", "table"]

def referenceKinds : List String := ["collections", "taxonomies", "sites", "form"]

def selectKinds : List String := ["select", "button_group", "radio"]

def arrayKinds : List String :=
  ["checkboxes", "array", "list", "bard", "replicator", "grid", "structures"]

def relationshipClasses : List (String × String) :=
  [("entries", "Statamic\\Entries\\Entry"),
   ("terms", "Statamic\\Taxonomies\\LocalizedTerm"),
   ("assets", "Statamic\\Assets\\Asset"),
   ("users", "Statamic\\Contracts\\Auth\\User")]

inductive Rule
  /-- One type for every field of the kind. -/
  | fixed (type : SemanticType)
  /-- One object or a list of them, as the field holds at most one item or more. -/
  | relationship (className : String)

def builtin : List (String × Rule) :=
  (stringKinds ++ referenceKinds).map (·, .fixed .string) ++
  [("toggle", .fixed .bool), ("integer", .fixed .int), ("range", .fixed .int),
   ("float", .fixed .float), ("date", .fixed .date)] ++
  selectKinds.map (·, .fixed (.union [.string, .int])) ++
  arrayKinds.map (·, .fixed .mixedArray) ++
  relationshipClasses.map fun (kind, c) => (kind, .relationship c)

def relationshipType (f : Field) (className : String) : SemanticType :=
  if f.isSingle then .nullable (.instanceOf className) else .listOf (.instanceOf className)

def typeOf (custom : Dict String) (f : Field) : SemanticType :=
  match builtin.lookup f.kind with
  | some (.fixed t) => t
  | some (.relationship c) => relationshipType f c
  | none =>
    match custom.get? f.kind with
    | some c => .instanceOf c
    | none => .mixed

end Fieldtype

end BlueprintSchema
