import BlueprintSchema.Diagnostic
import BlueprintSchema.Repository

/-!
The rule against reading a field that no blueprint defines. The first class of the receiver that holds
content decides; names that are only known when the program runs are never reported.
-/

namespace BlueprintSchema

inductive FetchedName
  | known (name : String)
  | dynamic

structure Fetch where
  name : FetchedName
  receivers : List ClassInfo
  line : Option Nat

structure UndefinedField where
  severity : Severity
  isEnabled : Bool := true

namespace UndefinedField

def report (rule : UndefinedField) (name : String) (c : ClassInfo) (line : Option Nat) : Diagnostic where
  message := "Access to field '" ++ name ++ "' on " ++ c.displayName ++
    " that is not defined in any blueprint."
  severity := rule.severity
  line := line

def checkName (rule : UndefinedField) (name : String) (line : Option Nat) :
    List ClassInfo → Query (List Diagnostic)
  | [] => pure []
  | c :: cs =>
    match ContentClass.contentType? c with
    | none => checkName rule name line cs
    | some type => do
      pure (if ← Repository.has type name then [] else [rule.report name c line])

def check (rule : UndefinedField) (fetch : Fetch) : Query (List Diagnostic) :=
  match rule.isEnabled, fetch.name with
  | true, .known name => rule.checkName name fetch.line fetch.receivers
  | _, _ => pure []

end UndefinedField

end BlueprintSchema
