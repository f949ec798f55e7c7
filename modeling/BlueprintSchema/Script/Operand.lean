import BlueprintSchema.Script.Rule

/-!
Expressions as the grammar sees them: a tree together with what may be done with it. The grammar keeps
no precedence of operators, because a chain of operators has the same tokens and the same calls
however it is grouped.
-/

namespace BlueprintSchema.Script

structure Shape where
  isValue : Bool := true
  /-- It may be assigned to or taken apart. -/
  isTarget : Bool := false
  /-- It is a single place: it may be stepped, changed in place and referred to. -/
  isPlace : Bool := false
  /-- It may be followed by `->`, `::` or a subscript. -/
  isAccessible : Bool := false
  isCallable : Bool := false

namespace Shape

def closed : Shape := {}

def constant : Shape := { isAccessible := true }

def group : Shape := { isAccessible := true, isCallable := true }

def place : Shape := ⟨true, true, true, true, true⟩

def pattern : Shape := { isValue := false, isTarget := true }

end Shape

structure Operand where
  tree : Tree
  shape : Shape

/-- The rules for what stands one level deeper. An expression is told whether a closing tag ends it,
which holds outside all brackets. -/
structure Inner where
  expression : Bool → Reader Operand
  statement : Rule

namespace Inner

def value (inner : Inner) (atEnd : Bool) : Rule := do
  let e ← inner.expression atEnd
  if e.shape.isValue then pure [e.tree] else failure

def valueOrTarget (inner : Inner) : Rule := do
  let e ← inner.expression false
  if e.shape.isValue || e.shape.isTarget then pure [e.tree] else failure

def place (inner : Inner) : Rule := do
  let e ← inner.expression false
  if e.shape.isPlace then pure [e.tree] else failure

def parenthesized (inner : Inner) : Rule :=
  Rule.asNode .plain (Rule.sign "(" ++ inner.value false ++ Rule.sign ")")

def block (inner : Inner) : Rule :=
  Rule.asNode .plain (Rule.braced (Rule.many inner.statement))

def reservedWords : List String :=
  ["list", "new", "clone", "print", "yield", "include", "include_once", "require", "require_once"]

def argumentName : Rule := do
  if reservedWords.contains (← Rule.nextWord) then failure else Rule.name ++ Rule.sign ":"

/-- A word that stands for a class and is no value: `static` in any case, `self` and `parent` in small
letters only. -/
def classWord : Rule := Rule.lexeme fun s => do
  let (text, r) ← Rule.name? s
  if ["self", "parent"].contains (String.ofList text) ||
      String.ofList (text.map Char.toLower) == "static" then some (text, r) else none

/-- Arguments in parentheses, or `...` in their place. An argument may be named, and its value is
always the last of its parts; a word for a class may stand in its place. -/
def arguments (inner : Inner) : Rule :=
  Rule.asNode .arguments <| Rule.sign "(" ++
    (Rule.sign "..." ++ Rule.sign ")" <|>
      Rule.list (Rule.asNode .argument <| Rule.opt argumentName ++ argument) ++
        Rule.sign ")")
where
  argument : Rule :=
    Rule.asNode .plain (Rule.sign "..." ++ inner.value false) <|>
    Rule.opt (Rule.sign "&") ++ (inner.value false <|> classWord)

end Inner

end BlueprintSchema.Script
