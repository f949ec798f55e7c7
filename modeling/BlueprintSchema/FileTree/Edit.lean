import BlueprintSchema.FileTree

/-!
Changing a tree of files: writing files, making directories and links, and removing what stands at a
path.
-/

namespace BlueprintSchema.FileTree

def put (t : FileTree) (p : Place) (n : FileNode) : FileTree :=
  ⟨t.nodes.filter (·.1 != p) ++ [(p, n)]⟩

/-- Make the directories that steps from a directory lead through, as far as they are missing; the
place they lead to comes with the tree. Nothing is made below a file. -/
def makeSteps (t : FileTree) (here : Place) : List String → Option (FileTree × Place)
  | [] => some (t, here)
  | step :: rest =>
    if step = "." then makeSteps t here rest
    else if step = ".." then makeSteps t here.dropLast rest
    else
      match t.get? (here ++ [step]) with
      | none => makeSteps (t.put (here ++ [step]) .directory) (here ++ [step]) rest
      | some _ =>
        match followLinks t maxLinks here [step] with
        | .ok q =>
          match t.get? q with
          | some .directory => makeSteps t q rest
          | _ => none
        | .error _ => none

def makeDirectory (t : FileTree) (path : String) : FileTree :=
  match t.makeSteps [] (steps path) with
  | some (t, _) => t
  | none => t

/-- The place where writing to the last of some steps from a directory ends up: links there are
followed, and need not lead to anything yet. -/
def destination? (t : FileTree) : Nat → Place → List String → Option Place
  | 0, _, _ => none
  | links + 1, here, steps =>
    match followLinks t maxLinks here steps.dropLast, steps.getLast? with
    | .ok parent, some name =>
      match t.get? (parent ++ [name]) with
      | some (.link target) =>
        destination? t links (if Path.isAbsolute target then [] else parent) (FileTree.steps target)
      | some .directory => none
      | _ => some (parent ++ [name])
    | _, _ => none

def write (t : FileTree) (path : String) (content : ByteArray) : FileTree :=
  match t.makeSteps [] (steps path).dropLast with
  | some (t, _) =>
    match t.destination? maxLinks [] (steps path) with
    | some p => t.put p (.file content)
    | none => t
  | none => t

def makeLink (t : FileTree) (path target : String) : FileTree :=
  match t.makeSteps [] (steps path).dropLast, (steps path).getLast? with
  | some (t, parent), some name =>
    if (t.get? (parent ++ [name])).isSome then t else t.put (parent ++ [name]) (.link target)
  | _, _ => t

/-- Remove what stands at a path: a file, a link, or a directory with all in it. None if there is
nothing. -/
def remove? (t : FileTree) (path : String) : Option FileTree :=
  let way := (steps path).filter (· != ".")
  match followLinks t maxLinks [] way.dropLast, way.getLast? with
  | .ok parent, some name =>
    let p := parent ++ [name]
    if (t.get? p).isSome then some ⟨t.nodes.filter fun (q, _) => !p.isPrefixOf q⟩ else none
  | _, _ => none

end BlueprintSchema.FileTree
