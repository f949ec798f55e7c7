import BlueprintSchema.Field
import BlueprintSchema.FileTree.Walk
import BlueprintSchema.Script.Document
import BlueprintSchema.Script.Literal
import BlueprintSchema.Text.Blank

/-!
Computed fields that a script registers. Only one idiom counts: a static call on the collection facade
whose second argument names the fields, as one string or as an array whose string keys, or else string
values, are the handles.
-/

namespace BlueprintSchema.ComputedField

open Script

def registrationMethod : String := "computed"

/-- Names of the facade that the method is called on, without a leading backslash. -/
def facadeClasses : List String := ["Collection", "Statamic\\Facades\\Collection"]

def language : String := "php"

def extension : String := "php"

def isFacade (scope : List Char) : Bool :=
  facadeClasses.contains (Text.dropLeading '\\' (Text.trim (String.ofList scope)))

def markupBefore (t : Tree) : List Trivia :=
  t.leading.filter fun
    | .markup _ => true
    | _ => false

/-- The parts of an element that carry meaning: its nodes without references, and pieces of markup
between its parts, which stand as `none`. -/
def elementParts (parts : List Tree) : List (Option Tree) :=
  parts.mapIdx (fun i t =>
    let markup := if i = 0 then [] else (markupBefore t).map fun _ => none
    let own := match t with
      | .node kind _ => if kind = .reference then [] else [some t]
      | .token _ _ => []
    markup ++ own) |>.flatten

/-- The handle that an array element names: a string key, else a string value. -/
def ofElement (parts : List Tree) : Option (List Char) :=
  match elementParts parts with
  | [key, value] => key.bind Literal.value? <|> value.bind Literal.value?
  | [value] => value.bind Literal.value?
  | _ => none

def ofArgument (argument : Tree) : List (List Char) :=
  match argument.parts.getLast? with
  | some (.node .array parts) =>
    (parts.filter (Tree.hasKind .element)).filterMap fun e => ofElement e.parts
  | some value => (Literal.value? value).toList
  | none => []

/-- The handles that a static call with the given parts registers; none if it is some other call. -/
def ofCall (parts : List Tree) : List (List Char) :=
  let named (kind : Kind) : List Char := match parts.find? (Tree.hasKind kind) with
    | some t => t.text
    | none => []
  if isFacade (named .scope) && named .method = registrationMethod.toList then
    match parts.find? (Tree.hasKind .arguments) with
    | some arguments =>
      match (arguments.parts.filter (Tree.hasKind .argument))[1]? with
      | some argument => ofArgument argument
      | none => []
    | none => []
  else []

/-- The handles that the static calls of a tree register, an outer call before those in it. -/
def handles (t : Tree) : List String :=
  t.nodes.flatMap fun (kind, parts) =>
    if kind = .staticCall then (ofCall parts).map String.ofList else []

inductive Error
  | unreadable (path cause : String)
  | grammar (language cause : String)
  | malformed (path cause : String)
  | query (language cause : String)

def Error.message : Error → String
  | .unreadable path cause => "Failed to read " ++ path ++ ": " ++ cause
  | .grammar language cause => "Language error for " ++ language ++ ": " ++ cause
  | .malformed path cause => "Parse error in " ++ path ++ ": " ++ cause
  | .query language cause => "Query compilation error for " ++ language ++ ": " ++ cause

/-- The computed fields that a script registers. A script that nowhere mentions the method registers
nothing, and is not read; any other is refused if it has a syntax error. -/
def ofScript (path source : String) : Except Error (List Field) :=
  if Text.occursIn registrationMethod.toList source.toList then
    match parse? source with
    | some t => .ok ((handles t).map Field.computed)
    | none => .error (.malformed path "source contains syntax errors")
  else .ok []

def ofSource (source : String) : Except Error (List Field) := ofScript "<memory>" source

def ofFile (t : FileTree) (path : String) : Except Error (List Field) :=
  match t.read path with
  | .ok source => ofScript path source
  | .error cause => .error (.unreadable path cause.message)

def isScript (path : String) : Bool := Path.extension? path == some extension

def scripts (t : FileTree) (path : String) : List String :=
  if t.isFile path then [path].filter isScript
  else if t.isDirectory path then (t.files path).filter isScript
  else []

/-- The computed fields of all scripts under the scan paths. A script that cannot be read registers
nothing. -/
def discover (t : FileTree) (paths : List String) : List Field :=
  (paths.flatMap (scripts t)).flatMap fun path =>
    match ofFile t path with
    | .ok fs => fs
    | .error _ => []

structure Scanner where
  paths : List String
  found : Option (List Field) := none

namespace Scanner

/-- The computed fields under the paths, as they were when first asked for, and the scanner that
remembers them. -/
def scan (s : Scanner) (t : FileTree) : List Field × Scanner :=
  match s.found with
  | some fs => (fs, s)
  | none =>
    let fs := discover t s.paths
    (fs, { s with found := some fs })

end Scanner

end BlueprintSchema.ComputedField
