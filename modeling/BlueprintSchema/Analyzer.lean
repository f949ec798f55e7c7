import BlueprintSchema.Config.Load
import BlueprintSchema.Property
import BlueprintSchema.ReturnType
import BlueprintSchema.UndefinedField

/-!
The analyser of a project: its configuration with the repository, the rule and the custom fieldtypes
that follow from it.
-/

namespace BlueprintSchema

structure Analyzer where
  config : Config
  repository : Repository

namespace Analyzer

/-- The analyser of a configuration, whose paths are taken as they are. Nothing is read yet. -/
def ofConfig (c : Config) : Analyzer where
  config := c
  repository := ⟨c.blueprintPaths, c.scanPaths, none⟩

inductive Error
  | config (cause : Config.Error)

def Error.message : Error → String
  | .config cause => "Failed to load schema configuration: " ++ cause.message

def load (t : FileTree) (env : List (String × String)) (root : String) :
    Except Error Analyzer :=
  match Config.load t env root none with
  | .ok c => .ok (ofConfig c)
  | .error e => .error (.config e)

def rule (a : Analyzer) : UndefinedField := ⟨a.config.severity, a.config.reportsUndefined⟩

def customFieldtypes (a : Analyzer) : Dict String := a.config.customFieldtypes

def typeOf (a : Analyzer) (f : Field) : SemanticType := Fieldtype.typeOf a.customFieldtypes f

def property? (a : Analyzer) (c : ClassInfo) (name : String) : Query (Option Property) :=
  Property.get? a.customFieldtypes c name

def check (a : Analyzer) (fetch : Fetch) : Query (List Diagnostic) := a.rule.check fetch

/-- The answer to a question with the files as they are, and the analyser that remembers what was
read for it. -/
def ask {α : Type} (a : Analyzer) (t : FileTree) (q : Query α) : α × Analyzer :=
  let (answer, r) := (q.run t).run a.repository
  (answer, { a with repository := r })

end Analyzer

end BlueprintSchema
