import BlueprintSchema.Path

/-!
A tree of files: directories, files and symbolic links, each at a place named from the root down.
Following a path goes through the links on its way, at most forty of them, and either reaches a place
or fails for one of four causes.
-/

namespace BlueprintSchema

abbrev Place := List String

inductive FileNode
  | directory
  | file (content : ByteArray)
  | link (target : String)

/-- What stands where, the root left out, which always is a directory. -/
structure FileTree where
  nodes : List (Place × FileNode) := []

namespace FileTree

inductive Failure
  | missing
  | notDirectory
  | tooManyLinks
  | isDirectory
  | notText
  deriving DecidableEq

def Failure.message : Failure → String
  | .missing => "No such file or directory (os error 2)"
  | .notDirectory => "Not a directory (os error 20)"
  | .tooManyLinks => "Too many levels of symbolic links (os error 40)"
  | .isDirectory => "Is a directory (os error 21)"
  | .notText => "stream did not contain valid UTF-8"

def get? (t : FileTree) (p : Place) : Option FileNode :=
  if p.isEmpty then some .directory else t.nodes.lookup p

/-- The steps of a path. A slash at the end is a step that stays, so that it asks for a directory. -/
def steps (path : String) : List String :=
  let names := (Text.splitAtChar '/' path.toList).filter fun n => !n.isEmpty
  let last := if path.toList.getLast? = some '/' then ["."] else []
  names.map String.ofList ++ last

def maxLinks : Nat := 40

/-- Take steps from a directory; `through` goes on after a link. -/
def follow (t : FileTree) (through : Place → List String → Except Failure Place) (here : Place) :
    List String → Except Failure Place
  | [] => .ok here
  | step :: rest =>
    if step = "." then follow t through here rest
    else if step = ".." then follow t through here.dropLast rest
    else
      match t.get? (here ++ [step]) with
      | none => .error .missing
      | some (.link target) => through (if Path.isAbsolute target then [] else here) (steps target ++ rest)
      | some (.file _) => if rest.isEmpty then .ok (here ++ [step]) else .error .notDirectory
      | some .directory => follow t through (here ++ [step]) rest

def followLinks (t : FileTree) : Nat → Place → List String → Except Failure Place
  | 0 => follow t fun _ _ => .error .tooManyLinks
  | links + 1 => follow t (followLinks t links)

def resolve (t : FileTree) (path : String) : Except Failure Place :=
  if path.isEmpty then .error .missing else followLinks t maxLinks [] (steps path)

def lookup? (t : FileTree) (path : String) : Option FileNode :=
  match t.resolve path with
  | .ok p => t.get? p
  | .error _ => none

def contains (t : FileTree) (path : String) : Bool := (t.lookup? path).isSome

def isFile (t : FileTree) (path : String) : Bool :=
  match t.lookup? path with
  | some (.file _) => true
  | _ => false

def isDirectory (t : FileTree) (path : String) : Bool :=
  match t.lookup? path with
  | some .directory => true
  | _ => false

def read (t : FileTree) (path : String) : Except Failure String := do
  let p ← t.resolve path
  match t.get? p with
  | some (.file content) =>
    match String.fromUTF8? content with
    | some s => .ok s
    | none => .error .notText
  | some _ => .error .isDirectory
  | none => .error .missing

end FileTree

end BlueprintSchema
