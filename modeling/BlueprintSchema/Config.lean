import BlueprintSchema.Json
import BlueprintSchema.Path
import BlueprintSchema.Severity
import BlueprintSchema.Text.Blank

/-!
What a project says about its schema: where its blueprints lie, which source is searched for computed
fields, which classes its own fieldtypes stand for, and how undefined fields are reported.
-/

namespace BlueprintSchema

structure Config where
  blueprintPaths : List String := ["resources/blueprints"]
  scanPaths : List String := ["app"]
  customFieldtypes : Dict String := ∅
  severity : Severity := .error
  reportsUndefined : Bool := true

namespace Config

inductive Fault
  | emptyHandle
  | noClass (handle : String)
  deriving DecidableEq

def Fault.message : Fault → String
  | .emptyHandle => "custom fieldtype handle must not be empty"
  | .noClass handle => "custom fieldtype '" ++ handle ++ "' has no class"

/-- What is wrong with the class of a fieldtype: its handle is blank, or nothing is left of the class
without blanks and leading backslashes. -/
def faultOf? (handle class_ : String) : Option Fault :=
  if Text.isAllBlank handle then some .emptyHandle
  else if (Text.dropLeading '\\' (Text.trim class_)).isEmpty then some (.noClass handle)
  else none

def fault? (c : Config) : Option Fault := c.customFieldtypes.toList.findSome? fun (k, v) => faultOf? k v

def anchored (c : Config) (root : String) : Config :=
  { c with
    blueprintPaths := c.blueprintPaths.map (Path.join root)
    scanPaths := c.scanPaths.map (Path.join root) }

def keys : List String :=
  ["blueprint_paths", "computed_scan_paths", "custom_fieldtypes", "undefined_field_severity",
    "report_undefined_fields"]

def toJson (c : Config) : Json :=
  .ofMembers
    [("blueprint_paths", .array (c.blueprintPaths.map .string)),
      ("computed_scan_paths", .array (c.scanPaths.map .string)),
      ("custom_fieldtypes", .ofMembers (c.customFieldtypes.toList.map fun (k, v) => (k, .string v))),
      ("undefined_field_severity", .string c.severity.name),
      ("report_undefined_fields", .bool c.reportsUndefined)]

/-- The severity that a JSON value names: by its name, or as the only key of an object with null. -/
def severityOfJson? : Json → Option Severity
  | .string s => Severity.ofExactName? s
  | .object [(s, .null)] => Severity.ofExactName? s
  | _ => none

/-- A configuration with one of its settings replaced; an unknown name changes nothing. None if the
value does not fit. -/
def withJson? (c : Config) (key : String) (value : Json) : Option Config := do
  match key with
  | "blueprint_paths" =>
    some { c with blueprintPaths := ← (← value.items?).mapM Json.string? }
  | "computed_scan_paths" => some { c with scanPaths := ← (← value.items?).mapM Json.string? }
  | "custom_fieldtypes" =>
    match value with
    | .object members =>
      let entries ← members.mapM fun (k, v) => v.string?.map fun s => (k, s)
      some { c with customFieldtypes := .ofList entries }
    | _ => none
  | "undefined_field_severity" => some { c with severity := ← severityOfJson? value }
  | "report_undefined_fields" =>
    match value with
    | .bool b => some { c with reportsUndefined := b }
    | _ => none
  | _ => some c

/-- The configuration that a JSON value describes: an object, or an array of the first few settings.
What is left out has its default. -/
def ofJson? : Json → Option Config
  | .object members => members.foldlM (fun c (k, v) => c.withJson? k v) {}
  | .array items =>
    if items.length ≤ keys.length then
      (keys.zip items).foldlM (fun c (k, v) => c.withJson? k v) {}
    else none
  | _ => none

end Config

end BlueprintSchema
