import BlueprintSchema.Text.Basic

/-!
Paths as text: joining, and the parts of the last name.
-/

namespace BlueprintSchema.Path

def isAbsolute (path : String) : Bool := path.toList.head? == some '/'

/-- A path below another; an absolute one replaces it. -/
def join (base path : String) : String :=
  if isAbsolute path then path
  else if base.isEmpty || base.toList.getLast? == some '/' then base ++ path
  else base ++ "/" ++ path

/-- The names of a path between its slashes, without empty ones and without those that are a single
dot. -/
def names (path : String) : List String :=
  ((Text.splitAtChar '/' path.toList).filter (fun n => !n.isEmpty && n != ['.'])).map String.ofList

/-- The last name of a path, unless that is the step to the parent. -/
def fileName? (path : String) : Option String :=
  match (names path).getLast? with
  | some ".." => none
  | n => n

/-- A file name cut at its last dot: the stem, and the extension if there is one. A dot at the very
start begins no extension. -/
def splitName (name : String) : String × Option String :=
  let after := name.toList.reverse.takeWhile (· != '.')
  let before := name.toList.reverse.dropWhile (· != '.')
  match before with
  | '.' :: stem =>
    if stem.isEmpty then (name, none)
    else (String.ofList stem.reverse, some (String.ofList after.reverse))
  | _ => (name, none)

def extension? (path : String) : Option String := (fileName? path).bind fun n => (splitName n).2

def stem? (path : String) : Option String := (fileName? path).map fun n => (splitName n).1

end BlueprintSchema.Path
