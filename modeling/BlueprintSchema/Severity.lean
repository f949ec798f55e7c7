import BlueprintSchema.Text.Case

/-!
How loudly a diagnostic speaks.
-/

namespace BlueprintSchema

inductive Severity
  | error
  | warning
  | info
  | hint
  deriving DecidableEq, Repr, Inhabited

namespace Severity

def all : List Severity := [error, warning, info, hint]

def name : Severity → String
  | error => "error"
  | warning => "warning"
  | info => "info"
  | hint => "hint"

def ofExactName? (s : String) : Option Severity := all.find? (fun v => v.name == s)

def ofName? (s : String) : Option Severity := ofExactName? (Text.lower s)

end Severity

end BlueprintSchema
