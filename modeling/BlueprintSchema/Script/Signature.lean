import BlueprintSchema.Script.Operand

/-!
Names, types, attributes and parameters.
-/

namespace BlueprintSchema.Script.Signature

open Rule

def qualifiedName : Rule :=
  asNode .plain (opt (sign "\\") ++ name ++ many (sign "\\" ++ name))

def variableName : Rule := asNode .plain (sign "$" ++ name)

/-- A type: a name, perhaps with `?` before it, or an intersection, or a union whose members may be
intersections in parentheses. -/
def type : Rule := asNode .plain <|
  sign "?" ++ qualifiedName <|>
  qualifiedName ++ (some1 (sign "&" ++ qualifiedName) <|> unionEnd) <|>
  group ++ unionEnd
where
  group : Rule := sign "(" ++ qualifiedName ++ many (sign "&" ++ qualifiedName) ++ sign ")"
  unionEnd : Rule := many (sign "|" ++ (qualifiedName <|> group))

def resultType : Rule := opt (sign ":" ++ type)

def attributes (inner : Inner) : Rule :=
  many (sign "#[" ++ list1 (qualifiedName ++ opt inner.arguments) ++ opt (sign ",") ++ sign "]")

def visibility : Rule :=
  wordOf ["public", "protected", "private"] ++ opt (sign "(" ++ word "set" ++ sign ")")

def default (inner : Inner) : Rule := opt (sign "=" ++ inner.value false)

def accessors (inner : Inner) (parameters : Rule) : Rule :=
  braced (many accessor)
where
  accessor : Rule :=
    attributes inner ++ opt (word "final") ++ opt (sign "&") ++ name ++ opt parameters ++
      (sign "=>" ++ inner.value true ++ semicolon <|> inner.block <|> semicolon)

/-- Parameters in parentheses, which may declare properties but give them no accessors. -/
def plainParameters (inner : Inner) : Rule :=
  sign "(" ++ list (asNode .plain <|
    attributes inner ++ many (visibility <|> word "readonly") ++ opt type ++ opt (sign "&") ++
      opt (sign "...") ++ variableName ++ default inner) ++ sign ")"

def parameters (inner : Inner) : Rule :=
  sign "(" ++ list (asNode .plain <|
    attributes inner ++ many (visibility <|> word "readonly") ++ opt type ++ opt (sign "&") ++
      opt (sign "...") ++ variableName ++ default inner ++
      opt (accessors inner (plainParameters inner))) ++ sign ")"

def heading (inner : Inner) (named : Rule) : Rule :=
  word "function" ++ opt (sign "&") ++ named ++ parameters inner ++ resultType

end BlueprintSchema.Script.Signature
