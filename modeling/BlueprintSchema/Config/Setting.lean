import BlueprintSchema.Binary64.Decimal
import BlueprintSchema.Dict
import BlueprintSchema.Json
import BlueprintSchema.Toml
import BlueprintSchema.Yaml.Node
import BlueprintSchema.Yaml.Scalar

/-!
Settings as sources give them, before it is known what they should be. All formats are brought to this
one form, and tables of several sources are merged key by key, the later source winning.
-/

namespace BlueprintSchema

/-- A setting. The entries of a table are in key order, one for each key. -/
inductive Setting
  | empty
  | bool (b : Bool)
  /-- An integer of 64 bits from a source that gives it without sign. -/
  | unsigned (n : Nat)
  /-- An integer of 64 bits from a source that gives it with sign. -/
  | signed (n : Int)
  /-- An integer of up to 128 bits that 64 do not hold. -/
  | wide (n : Int)
  | float (x : Binary64)
  | char (c : Char)
  | string (s : String)
  | list (items : List Setting)
  | table (entries : List (String × Setting))
  deriving Inhabited

namespace Setting

def ofEntries (entries : List (String × Setting)) : Setting :=
  table (entries.foldl (fun l e => Dict.place e.1 e.2 l) [])

mutual

/-- A setting over another: tables are merged key by key, anything else replaces what it is put
over. -/
def merge : Setting → Setting → Setting
  | table below, table above => table (mergeEntries below above)
  | _, above => above

def mergeEntries (below : List (String × Setting)) :
    List (String × Setting) → List (String × Setting)
  | [] => below
  | (k, v) :: r =>
    let v := match below.lookup k with
      | some old => merge old v
      | none => v
    mergeEntries (Dict.place k v below) r

end

mutual

def ofJson : Json → Setting
  | .null => empty
  | .bool b => bool b
  | .int n => if n < 0 then signed n else unsigned n.toNat
  | .float x => float x
  | .string s => string s
  | .array items => list (ofJsons items)
  | .object members => ofEntries (ofMembers members)

def ofJsons : List Json → List Setting
  | [] => []
  | j :: js => ofJson j :: ofJsons js

def ofMembers : List (String × Json) → List (String × Setting)
  | [] => []
  | (k, j) :: js => (k, ofJson j) :: ofMembers js

end

def datetimeKey : String := "$__toml_private_datetime"

mutual

/-- A TOML value as a setting. A date or time is a table with its text. -/
def ofToml : Toml → Setting
  | .bool b => bool b
  | .int n => signed n
  | .float x => float x
  | .string s => string s
  | .datetime s => table [(datetimeKey, string s)]
  | .array items => list (ofTomls items)
  | .table entries => ofEntries (ofTomlEntries entries)

def ofTomls : List Toml → List Setting
  | [] => []
  | v :: vs => ofToml v :: ofTomls vs

def ofTomlEntries : List (String × Toml) → List (String × Setting)
  | [] => []
  | (k, v) :: vs => (k, ofToml v) :: ofTomlEntries vs

end

def ofForm : Yaml.Scalar.Form → Setting
  | .null => empty
  | .bool b => bool b
  | .int n minus => if minus then signed n else unsigned n.toNat
  | .wide n => wide n
  | .float x => float x
  | .string s => string s

/-- A setting under a local tag is a table with the tag as its key. -/
def withTag (tag : Option String) (v : Setting) : Setting :=
  match tag.bind Yaml.Scalar.localName? with
  | some name => table [(name, v)]
  | none => v

mutual

/-- A YAML node as a setting. The keys of a mapping are the texts of scalars, of equal ones the last
counts; any other key is refused. -/
def ofYaml? : Yaml.Node → Option Setting
  | .scalar tag text plain =>
    match tag.bind Yaml.Scalar.localName? with
    | some name => (Yaml.Scalar.form? none text plain).map fun f => table [(name, ofForm f)]
    | none => (Yaml.Scalar.form? tag text plain).map ofForm
  | .sequence tag items => (ofYamls? items).map fun vs => withTag tag (list vs)
  | .mapping tag entries => (ofYamlEntries? entries).map fun es => withTag tag (ofEntries es)

def ofYamls? : List Yaml.Node → Option (List Setting)
  | [] => some []
  | n :: ns => do
    let v ← ofYaml? n
    let vs ← ofYamls? ns
    some (v :: vs)

def ofYamlEntries? : List (Yaml.Node × Yaml.Node) → Option (List (String × Setting))
  | [] => some []
  | (.scalar _ k _, n) :: es => do
    let v ← ofYaml? n
    let vs ← ofYamlEntries? es
    some ((k, v) :: vs)
  | _ :: _ => none

end

/-- The table of a YAML document, which must be a mapping; an empty document has an empty table. -/
def ofYamlDocument? : Yaml.Node → Option Setting
  | .mapping _ entries => (ofYamlEntries? entries).map ofEntries
  | .scalar _ "" true => some (table [])
  | _ => none

end Setting

end BlueprintSchema
