import BlueprintSchema.Config.Environment
import BlueprintSchema.Config.Reading
import BlueprintSchema.FileTree
import BlueprintSchema.Json.Reader
import BlueprintSchema.Toml.Document

/-!
Loading the configuration of a project. Its sources are, each over those before: the defaults, the
configuration files in the project's root, one file named on purpose, and environment variables.
-/

namespace BlueprintSchema

namespace Config

inductive Format
  | toml
  | yaml
  | json
  deriving DecidableEq

def Format.name : Format → String
  | .toml => "toml"
  | .yaml => "yaml"
  | .json => "json"

def Format.ofExtension? (extension : String) : Option Format :=
  match Text.lower extension with
  | "toml" => some .toml
  | "yaml" | "yml" => some .yaml
  | "json" => some .json
  | _ => none

def Format.settings? (format : Format) (text : String) : Option Setting :=
  match format with
  | .toml => (Toml.parse? text).map Setting.ofToml
  | .yaml => (Yaml.Node.ofText? text).bind Setting.ofYamlDocument?
  | .json =>
    match Json.parse text with
    | some (.object members) => some (Setting.ofJson (.object members))
    | _ => none

structure File where
  path : String
  format : Format

def File.ofPath? (path : String) : Option File := do
  some ⟨path, ← Format.ofExtension? (← Path.extension? path)⟩

def File.settings (t : FileTree) (f : File) : Except Mismatch Setting :=
  match t.read f.path with
  | .ok text =>
    match f.format.settings? text with
    | some s => .ok s
    | none => .error .unreadable
  | .error _ => .error .unreadable

/-- Names of configuration files in the root of a project, each over those before. -/
def candidates : List String :=
  ["statamic-schema.toml", "statamic-schema.yaml", "statamic-schema.yml", "statamic-schema.json"]

def discover (t : FileTree) (root : String) : List File :=
  if t.isDirectory root then
    ((candidates.map (Path.join root)).filter t.isFile).filterMap File.ofPath?
  else []

inductive Error
  | fileNotFound (path : String)
  | unsupportedFormat (format : String)
  | mismatch (m : Mismatch)
  | invalid (message : String)

def Error.message : Error → String
  | .fileNotFound path => "Configuration file not found: " ++ path
  | .unsupportedFormat format => "Unsupported configuration file format: " ++ format
  | .mismatch m => "Failed to parse configuration: " ++ m.message?.getD ""
  | .invalid message => "Configuration validation failed: " ++ message

def Error.ofSeverity (text : String) : Error := .invalid ("Invalid severity: " ++ text)

/-- The file named on purpose, below the root unless its path is absolute. -/
def namedFile (t : FileTree) (root path : String) : Except Error File :=
  let path := Path.join root path
  if t.isFile path then
    match File.ofPath? path with
    | some f => .ok f
    | none => .error (.unsupportedFormat ((Path.extension? path).getD ""))
  else .error (.fileNotFound path)

def mergeAll (sources : List (Except Mismatch Setting)) : Except Mismatch Setting :=
  sources.foldlM (fun below source => source.map below.merge) (.table [])

def checked (c : Config) (root : String) : Except Error Config :=
  match c.fault? with
  | some fault => .error (.invalid fault.message)
  | none => .ok (c.anchored root)

/-- The configuration of the project at a root, with a file named on purpose or without, and with the
given environment variables. -/
def load (t : FileTree) (env : List (String × String)) (root : String)
    (named : Option String) : Except Error Config := do
  let named ← match named with
    | some path => (namedFile t root path).map fun f => [f]
    | none => .ok []
  let files := (discover t root ++ named).map (File.settings t)
  match (mergeAll (files ++ [.ok (Environment.settings env)])).bind ofSetting with
  | .ok c => c.checked root
  | .error m => .error (.mismatch m)

end Config

end BlueprintSchema
