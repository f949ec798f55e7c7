import BlueprintSchema.ContentType
import BlueprintSchema.SemanticType

/-!
The classes that hold content, and the properties that every instance has whatever the blueprints
say.
-/

namespace BlueprintSchema

/-- A class as type inference describes it: its name, a name for messages, and the names of its
parents and interfaces, nearest first. Names carry no backslash in front. -/
structure ClassInfo where
  name : String
  displayName? : Option String
  ancestors : List String
  deriving DecidableEq, Repr

namespace ClassInfo

def ofName (name : String) : ClassInfo := ⟨bareClass name, none, []⟩

def withAncestor (c : ClassInfo) (ancestor : String) : ClassInfo :=
  { c with ancestors := c.ancestors ++ [bareClass ancestor] }

def withDisplayName (c : ClassInfo) (name : String) : ClassInfo :=
  { c with displayName? := some name }

def displayName (c : ClassInfo) : String := c.displayName?.getD c.name

end ClassInfo

namespace ContentClass

def table : List (String × ContentType) :=
  [("Statamic\\Entries\\Entry", .entry),
   ("Statamic\\Contracts\\Entries\\Entry", .entry),
   ("Statamic\\Taxonomies\\LocalizedTerm", .term),
   ("Statamic\\Contracts\\Taxonomies\\Term", .term),
   ("Statamic\\Assets\\Asset", .asset),
   ("Statamic\\Contracts\\Assets\\Asset", .asset),
   ("Statamic\\Globals\\Variables", .global),
   ("Statamic\\Contracts\\Globals\\Variables", .global)]

def contentTypeOfName? (name : String) : Option ContentType := table.lookup (bareClass name)

/-- The content type of a class: that of the class itself, else that of its first ancestor that has
one. -/
def contentType? (c : ClassInfo) : Option ContentType :=
  (c.name :: c.ancestors).findSome? contentTypeOfName?

def isContentClass (c : ClassInfo) : Bool := (contentType? c).isSome

def universalProperties : ContentType → List (String × SemanticType)
  | .entry =>
    [("id", .string), ("title", .string), ("slug", .string), ("url", .string),
     ("uri", .nullable .string), ("permalink", .string), ("date", .date), ("published", .bool),
     ("status", .string), ("locale", .string), ("last_modified", .date), ("edit_url", .string),
     ("api_url", .nullable .string), ("collection", .instanceOf "Statamic\\Entries\\Collection")]
  | .term =>
    [("id", .string), ("title", .string), ("slug", .string), ("url", .string),
     ("uri", .nullable .string), ("permalink", .string), ("locale", .string),
     ("edit_url", .string), ("api_url", .nullable .string)]
  | .asset =>
    [("id", .string), ("url", .string), ("permalink", .string), ("path", .string),
     ("filename", .string), ("basename", .string), ("extension", .string), ("size", .int),
     ("size_bytes", .int), ("last_modified", .date), ("mime_type", .string),
     ("edit_url", .string), ("api_url", .nullable .string), ("is_image", .bool),
     ("is_audio", .bool), ("is_video", .bool), ("width", .nullable .int),
     ("height", .nullable .int)]
  | .global =>
    [("id", .string), ("handle", .string), ("title", .string), ("locale", .string),
     ("api_url", .nullable .string)]

def universalProperty? (t : ContentType) (name : String) : Option SemanticType :=
  (universalProperties t).lookup name

end ContentClass

end BlueprintSchema
