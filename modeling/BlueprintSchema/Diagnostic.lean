import BlueprintSchema.Severity

/-!
Reported problems and their texts.
-/

namespace BlueprintSchema

structure Diagnostic where
  message : String
  severity : Severity
  line : Option Nat
  deriving DecidableEq, Repr

namespace Diagnostic

def identifier : String := "statamic.undefinedField"

def compact (d : Diagnostic) : String :=
  match d.line with
  | some n => d.severity.name ++ ":" ++ toString n ++ " " ++ identifier
  | none => d.severity.name ++ " " ++ identifier

def text (d : Diagnostic) : String := d.message ++ " [" ++ identifier ++ "]"

end Diagnostic

end BlueprintSchema
