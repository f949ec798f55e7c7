import BlueprintSchema.Config
import BlueprintSchema.Config.Setting
import BlueprintSchema.Text.Escaped

/-!
Reading a configuration off a table of settings. The settings are looked at in the order of their
names, and the first that does not fit is reported with the keys that lead to it.
-/

namespace BlueprintSchema

inductive Mismatch
  | unreadable
  | wrongKind (path : List String) (found expected : String)
  | unknownName (path : List String) (found : String) (allowed : List String)

namespace Mismatch

def path : Mismatch → List String
  | .unreadable => []
  | .wrongKind p _ _ => p
  | .unknownName p _ _ => p

/-- The wording of a mismatch; that of a source that could not be read is its reader's. -/
def message? : Mismatch → Option String
  | .unreadable => none
  | .wrongKind _ found expected => some ("invalid type: found " ++ found ++ ", expected " ++ expected)
  | .unknownName _ found allowed =>
    some ("unknown variant: found \x60" ++ found ++ "\x60, expected \x60one of " ++
      ", ".intercalate (allowed.map fun n => "\x60" ++ n ++ "\x60") ++ "\x60")

def under (key : String) : Mismatch → Mismatch
  | .unreadable => .unreadable
  | .wrongKind p f e => .wrongKind (key :: p) f e
  | .unknownName p f a => .unknownName (key :: p) f a

end Mismatch

namespace Setting

def description : Setting → String
  | empty => "unit"
  | bool b => "bool " ++ (if b then "true" else "false")
  | unsigned n => "unsigned int \x60" ++ toString n ++ "\x60"
  | signed n => "signed int \x60" ++ toString n ++ "\x60"
  | wide n => "integer \x60" ++ toString n ++ "\x60 as " ++ (if n < 0 then "i128" else "u128")
  | float x => "float \x60" ++ x.toPlainText ++ "\x60"
  | char c => "string " ++ Text.escaped c.toString
  | string s => "string " ++ Text.escaped s
  | list _ => "sequence"
  | table _ => "map"

def refuse {α : Type} (s : Setting) (expected : String) : Except Mismatch α :=
  .error (.wrongKind [] s.description expected)

def under {α : Type} (key : String) : Except Mismatch α → Except Mismatch α
  | .ok x => .ok x
  | .error e => .error (e.under key)

/-- The text of a string, or of a single character. -/
def asText (s : Setting) (expected : String) : Except Mismatch String :=
  match s with
  | string s => .ok s
  | char c => .ok c.toString
  | _ => s.refuse expected

def asBool : Setting → Except Mismatch Bool
  | bool b => .ok b
  | s => s.refuse "a boolean"

def pathsFrom (index : Nat) : List Setting → Except Mismatch (List String)
  | [] => .ok []
  | s :: ss => do
    let p ← under (toString index) (s.asText "path string")
    let ps ← pathsFrom (index + 1) ss
    .ok (p :: ps)

def asPaths : Setting → Except Mismatch (List String)
  | list items => pathsFrom 0 items
  | s => s.refuse "a sequence"

def textEntries : List (String × Setting) → Except Mismatch (List (String × String))
  | [] => .ok []
  | (k, s) :: es => do
    let v ← under k (s.asText "a string")
    let vs ← textEntries es
    .ok ((k, v) :: vs)

def asTexts : Setting → Except Mismatch (Dict String)
  | table entries => (textEntries entries).map Dict.ofList
  | s => s.refuse "a map"

def severityOf (name : String) : Except Mismatch Severity :=
  match Severity.ofExactName? name with
  | some s => .ok s
  | none => .error (.unknownName [] name (Severity.all.map Severity.name))

/-- A severity: a name, or a table whose first key is one with nothing under it. -/
def asSeverity : Setting → Except Mismatch Severity
  | string name => severityOf name
  | table [] => refuse (table []) "enum"
  | table ((name, value) :: _) => under name do
    let s ← severityOf name
    match value with
    | empty => .ok s
    | v => v.refuse "unit"
  | s => s.refuse "enum Severity"

end Setting

namespace Config

/-- A configuration with one setting read into it; an unknown name changes nothing. -/
def withSetting (c : Config) (key : String) (s : Setting) : Except Mismatch Config :=
  Setting.under key do
    match key with
    | "blueprint_paths" => .ok { c with blueprintPaths := ← s.asPaths }
    | "computed_scan_paths" => .ok { c with scanPaths := ← s.asPaths }
    | "custom_fieldtypes" => .ok { c with customFieldtypes := ← s.asTexts }
    | "report_undefined_fields" => .ok { c with reportsUndefined := ← s.asBool }
    | "undefined_field_severity" => .ok { c with severity := ← s.asSeverity }
    | _ => .ok c

/-- The configuration of a table of settings. What is left out has its default. -/
def ofSetting : Setting → Except Mismatch Config
  | .table entries => entries.foldlM (fun c (k, s) => c.withSetting k s) {}
  | s => s.refuse "struct SchemaConfig"

end Config

end BlueprintSchema
