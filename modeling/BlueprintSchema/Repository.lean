import BlueprintSchema.Blueprint
import BlueprintSchema.ComputedField
import BlueprintSchema.ContentClass
import BlueprintSchema.Fieldtype
import BlueprintSchema.Location
import BlueprintSchema.Registry

/-!
The fields of a project. A repository builds its registry when a question first needs it, from the
files as they are then, and answers from that registry ever after. Questions that need no registry
leave the moment open. Main statements: `Repository.run_registry`, that asking for the registry gives
the snapshot if there is one and else fixes it, and `Repository.run_lookup?_of_universal`, that a
universal property is found without it.
-/

namespace BlueprintSchema

/-- The registry of the blueprints below some directories and the computed fields under some scan
paths. Blueprints come in the order of their locations, computed fields after them; they exist on
entries alone. -/
def Registry.ofFiles (t : FileTree) (blueprintPaths scanPaths : List String) : Registry :=
  let declared := (Location.all t blueprintPaths).foldl
    (fun (r : Registry) l => r.extend l.contentType (Blueprint.fields t l.path)) empty
  declared.extend .entry (ComputedField.discover t scanPaths)

structure Repository where
  blueprintPaths : List String
  scanPaths : List String
  snapshot : Option Registry := none

inductive Lookup
  | universal (type : SemanticType)
  | field (definition : Field)

namespace Lookup

def isUniversal : Lookup → Bool
  | universal _ => true
  | field _ => false

/-- The definition, if the name is a field. -/
def field? : Lookup → Option Field
  | universal _ => none
  | field f => some f

def type (custom : Dict String) : Lookup → SemanticType
  | universal t => t
  | field f => Fieldtype.typeOf custom f

end Lookup

/-- A question to a repository: it sees the files as they are, and may fix the snapshot. -/
abbrev Query (α : Type) := ReaderT FileTree (StateM Repository) α

namespace Repository

def build (r : Repository) (t : FileTree) : Registry :=
  .ofFiles t r.blueprintPaths r.scanPaths

def registry : Query Registry := do
  let r ← get
  match r.snapshot with
  | some g => pure g
  | none =>
    let g := r.build (← read)
    set { r with snapshot := some g }
    pure g

def fields (type : ContentType) : Query (List Field) := do
  pure ((← registry).fields type)

def fieldMap (type : ContentType) : Query (Dict Field) := do
  pure ((← registry).fieldMap type)

/-- The field of a handle, whether or not a universal property has the same name. -/
def field? (type : ContentType) (handle : String) : Query (Option Field) := do
  pure ((← registry).get? type handle)

/-- What a name stands for: a universal property before a field. -/
def lookup? (type : ContentType) (name : String) : Query (Option Lookup) :=
  match ContentClass.universalProperty? type name with
  | some u => pure (some (.universal u))
  | none => do pure ((← field? type name).map .field)

def has (type : ContentType) (name : String) : Query Bool := do
  pure (← lookup? type name).isSome

theorem run_registry (t : FileTree) (r : Repository) :
    (registry.run t).run r =
      match r.snapshot with
      | some g => (g, r)
      | none => (r.build t, { r with snapshot := some (r.build t) }) := by
  obtain ⟨_, _, _ | _⟩ := r <;> rfl

theorem run_lookup?_of_universal {type : ContentType} {name : String} {u : SemanticType}
    (h : ContentClass.universalProperty? type name = some u) (t : FileTree) (r : Repository) :
    ((lookup? type name).run t).run r = (some (.universal u), r) := by
  unfold lookup?
  rw [h]
  rfl

end Repository

end BlueprintSchema
