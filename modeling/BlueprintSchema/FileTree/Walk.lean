import BlueprintSchema.FileTree

/-!
Listing directories. Names come in the order of their characters, links are followed, and what a link
leads to is left out if that is nothing or a directory that is being listed already.
-/

namespace BlueprintSchema.FileTree

def names (t : FileTree) (p : Place) : List String :=
  (t.nodes.filterMap fun (q, _) =>
    match q.getLast? with
    | some name => if q.dropLast = p then some name else none
    | none => none).mergeSort fun a b => decide (a ≤ b)

/-- What a name in a directory leads to. The directories on the way to it are given, and a link back
to one of them leads nowhere. -/
def entry? (t : FileTree) (way : List Place) (p : Place) (name : String) : Option (Place × FileNode) :=
  match t.get? (p ++ [name]) with
  | none => none
  | some (.link _) =>
    match followLinks t maxLinks p [name] with
    | .error _ => none
    | .ok q =>
      match t.get? q with
      | some .directory => if way.contains q then none else some (q, .directory)
      | some n => some (q, n)
      | none => none
  | some n => some (p ++ [name], n)

def children (t : FileTree) (path : String) : List String :=
  match t.resolve path with
  | .error _ => []
  | .ok p => (t.names p).filterMap fun name => (t.entry? [p] p name).map fun _ => Path.join path name

/-- The paths of all files below a directory, at most as many levels down as the first argument
says. -/
def filesBelow (t : FileTree) : Nat → List Place → Place → String → List String
  | 0, _, _, _ => []
  | depth + 1, way, p, path =>
    (t.names p).flatMap fun name =>
      match t.entry? way p name with
      | some (q, .directory) => filesBelow t depth (q :: way) q (Path.join path name)
      | some (_, .file _) => [Path.join path name]
      | _ => []

/-- A bound on the levels below any directory: between two links a way goes down, and it takes no two
links to one directory. -/
def maxDepth (t : FileTree) : Nat := (t.nodes.length + 2) * (t.nodes.length + 2)

def files (t : FileTree) (path : String) : List String :=
  match t.resolve path with
  | .error _ => []
  | .ok p => t.filesBelow t.maxDepth [p] p path

end BlueprintSchema.FileTree
