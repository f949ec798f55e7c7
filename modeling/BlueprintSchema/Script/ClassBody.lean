import BlueprintSchema.Script.Signature

/-!
What follows the name of a class, an interface, a trait or an enumeration: the types it is based on and
its members.
-/

namespace BlueprintSchema.Script.ClassBody

open Rule Signature

def constants (inner : Inner) : Rule :=
  list1 (asNode .plain <| name ++ sign "=" ++ inner.value true)

def modifier : Rule := visibility <|> wordOf ["var", "static", "final", "abstract", "readonly"]

def adaptation : Rule :=
  qualifiedName ++ opt (sign "::" ++ name) ++
    (word "insteadof" ++ list1 qualifiedName <|>
      word "as" ++ (visibility ++ opt name <|> name)) ++ semicolon

def traitUse : Rule :=
  word "use" ++ list1 qualifiedName ++ (braced (many adaptation) <|> semicolon)

def property (inner : Inner) : Rule :=
  opt type ++ list1 (asNode .plain <| variableName ++ default inner) ++
    (accessors inner (parameters inner) <|> semicolon)

inductive Owner
  | classLike
  | enumeration
  deriving DecidableEq

/-- A member. Only enumerations have cases and only the others have properties; a property has at least
one word before it. -/
def member (inner : Inner) (owner : Owner) : Rule := do
  if (← nextWord) = "use" then traitUse
  else
    let marks ← attributes inner
    let modifiers ← many modifier
    match ← nextWord with
    | "const" =>
      pure (marks ++ modifiers) ++ word "const" ++
        (constants inner <|> type ++ constants inner) ++ semicolon
    | "function" => pure (marks ++ modifiers) ++ heading inner name ++ (inner.block <|> semicolon)
    | "case" =>
      if owner = .enumeration && modifiers.isEmpty then
        pure marks ++ word "case" ++ name ++ default inner ++ semicolon
      else failure
    | _ =>
      if owner = .classLike && !modifiers.isEmpty then pure (marks ++ modifiers) ++ property inner
      else failure

def members (inner : Inner) (owner : Owner) : Rule :=
  asNode .plain (braced (many (asNode .plain (member inner owner))))

def extending : Rule := opt (word "extends" ++ list1 qualifiedName)

def implementing : Rule := opt (word "implements" ++ list1 qualifiedName)

def classEnd (inner : Inner) : Rule := extending ++ implementing ++ members inner .classLike

end BlueprintSchema.Script.ClassBody
