import BlueprintSchema.Json
import BlueprintSchema.Repository

/-!
The properties of content classes: universal properties and fields, with the types of their values.
-/

namespace BlueprintSchema

structure Property where
  declaringClass : String
  type : SemanticType

namespace Property

def has (c : ClassInfo) (name : String) : Query Bool :=
  match ContentClass.contentType? c with
  | some type => Repository.has type name
  | none => pure false

def get? (custom : Dict String) (c : ClassInfo) (name : String) : Query (Option Property) :=
  match ContentClass.contentType? c with
  | some type => do
    pure ((← Repository.lookup? type name).map fun l => ⟨c.name, l.type custom⟩)
  | none => pure none

def toJson (p : Property) : Json :=
  .ofMembers [("declaring_class", .string p.declaringClass), ("type", .string p.type.text)]

end Property

end BlueprintSchema
