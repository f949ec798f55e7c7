import BlueprintSchema.Text.Basic

/-!
The types that properties have in the eyes of type inference, and their written form.
-/

namespace BlueprintSchema

def carbonClass : String := "Carbon\\Carbon"

def bareClass (s : String) : String := Text.dropLeading '\\' s

inductive SemanticType
  | string
  | bool
  | int
  | float
  | date
  | null
  | mixed
  | object (className : String)
  | union (members : List SemanticType)
  | array (key value : SemanticType)
  | generic (className : String) (args : List SemanticType)
  deriving Inhabited

namespace SemanticType

def instanceOf (className : String) : SemanticType := object (bareClass className)

def nullable (t : SemanticType) : SemanticType := union [t, null]

def listOf (t : SemanticType) : SemanticType := array int t

def mixedArray : SemanticType := array mixed mixed

def genericOf (className : String) (args : List SemanticType) : SemanticType :=
  generic (bareClass className) args

mutual

def isNullable : SemanticType → Bool
  | null => true
  | mixed => true
  | union members => anyNullable members
  | _ => false

def anyNullable : List SemanticType → Bool
  | [] => false
  | t :: r => isNullable t || anyNullable r

end

def className? : SemanticType → Option String
  | object c => some c
  | generic c _ => some c
  | date => some carbonClass
  | _ => none

def isMixed : SemanticType → Bool
  | mixed => true
  | _ => false

mutual

def same : SemanticType → SemanticType → Bool
  | string, string => true
  | bool, bool => true
  | int, int => true
  | float, float => true
  | date, date => true
  | null, null => true
  | mixed, mixed => true
  | object a, object b => a == b
  | union a, union b => sameList a b
  | array k v, array k' v' => same k k' && same v v'
  | generic a as, generic b bs => a == b && sameList as bs
  | _, _ => false

def sameList : List SemanticType → List SemanticType → Bool
  | [], [] => true
  | t :: r, u :: s => same t u && sameList r s
  | _, _ => false

end

mutual

def text : SemanticType → String
  | string => "string"
  | bool => "bool"
  | int => "int"
  | float => "float"
  | date => carbonClass
  | null => "null"
  | mixed => "mixed"
  | object c => c
  | union members => textJoined "|" members
  | array k v =>
    if k.isMixed && v.isMixed then "array" else "array<" ++ text k ++ ", " ++ text v ++ ">"
  | generic c args => c ++ "<" ++ textJoined ", " args ++ ">"

def textJoined (separator : String) : List SemanticType → String
  | [] => ""
  | [t] => text t
  | t :: r => text t ++ separator ++ textJoined separator r

end

end SemanticType

end BlueprintSchema
