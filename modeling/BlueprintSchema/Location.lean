import BlueprintSchema.ContentType
import BlueprintSchema.FileTree.Walk

/-!
Where blueprints lie. Below each base directory fixed subdirectories hold the blueprints of each
content type, either in one directory per group or as one file per group.
-/

namespace BlueprintSchema

inductive Layout
  | nested
  | flat
  deriving DecidableEq

structure Convention where
  directory : String
  contentType : ContentType
  layout : Layout

structure Location where
  contentType : ContentType
  path : String
  group : String

namespace Location

/-- Why a directory cannot be listed. One that cannot counts as empty. -/
inductive Error
  | unlistable (directory place : String) (cause : FileTree.Failure)

def Error.message : Error → String
  | .unlistable directory place cause =>
    "failed to read directory '" ++ directory ++ "': IO error for operation on " ++ place ++ ": " ++
      cause.message

/-- All conventions, in the order in which they are looked at. -/
def conventions : List Convention :=
  [⟨"collections", .entry, .nested⟩, ⟨"taxonomies", .term, .nested⟩, ⟨"globals", .global, .flat⟩,
    ⟨"assets", .asset, .flat⟩]

def extension : String := "yaml"

/-- Whether a path has the name of a blueprint; names that start with a dot are hidden. -/
def isBlueprint (path : String) : Bool :=
  Path.extension? path == some extension &&
    !(Path.fileName? path).any fun n => n.toList.head? == some '.'

def blueprints (t : FileTree) (directory : String) : List String :=
  (t.children directory).filter fun path => t.isFile path && isBlueprint path

def ofConvention (t : FileTree) (base : String) (c : Convention) : List Location :=
  let directory := Path.join base c.directory
  if t.isDirectory directory then
    match c.layout with
    | .nested =>
      ((t.children directory).filter t.isDirectory).flatMap fun group =>
        match Path.fileName? group with
        | some name => (blueprints t group).map fun path => ⟨c.contentType, path, name⟩
        | none => []
    | .flat =>
      (blueprints t directory).filterMap fun path =>
        (Path.stem? path).map fun name => ⟨c.contentType, path, name⟩
  else []

def ofBase (t : FileTree) (base : String) : List Location :=
  if t.isDirectory base then conventions.flatMap (ofConvention t base) else []

def all (t : FileTree) (bases : List String) : List Location := bases.flatMap (ofBase t)

def ofType (t : FileTree) (bases : List String) (type : ContentType) : List Location :=
  (all t bases).filter fun l => l.contentType == type

end Location

end BlueprintSchema
