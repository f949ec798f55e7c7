import BlueprintSchema.Script.Expression

/-!
Statements. The first word decides what a statement is; a word that starts none of them starts an
expression or names a label.
-/

namespace BlueprintSchema.Script.Statement

open Rule Signature Expression

def until_ (inner : Inner) (words : List String) : Rule := many do
  if words.contains (← nextWord) then failure else inner.statement

/-- A body that is one statement, or statements between a colon and the given word. -/
def body (inner : Inner) (last : String) : Rule := do
  if (← nextSign?) = some ":" then sign ":" ++ until_ inner [last] ++ word last ++ semicolon
  else inner.statement

def branch (inner : Inner) : Rule := do
  let start ← word "if" ++ inner.parenthesized
  if (← nextSign?) = some ":" then
    let own := sign ":" ++ until_ inner ["elseif", "else", "endif"]
    pure start ++ own ++ many (word "elseif" ++ inner.parenthesized ++ own) ++
      opt (word "else" ++ own) ++ word "endif" ++ semicolon
  else
    pure start ++ inner.statement ++ many (word "elseif" ++ inner.parenthesized ++ inner.statement) ++
      opt (word "else" ++ inner.statement)

def counted (inner : Inner) : Rule :=
  let values := opt (list1 (inner.value false))
  word "for" ++ sign "(" ++ values ++ sign ";" ++ values ++ sign ";" ++ values ++ sign ")" ++
    body inner "endfor"

def each (inner : Inner) : Rule :=
  word "foreach" ++ sign "(" ++ inner.value false ++ word "as" ++ taken ++ opt (sign "=>" ++ taken) ++
    sign ")" ++ body inner "endforeach"
where
  taken : Rule := byReference inner <|> inner.valueOrTarget

def switch (inner : Inner) : Rule := do
  let start ← word "switch" ++ inner.parenthesized
  if (← nextSign?) = some ":" then
    pure start ++ sign ":" ++ many (case ["case", "default", "endswitch"]) ++ word "endswitch" ++ semicolon
  else pure start ++ braced (many (case ["case", "default"]))
where
  case (words : List String) : Rule :=
    asNode .plain <| (word "case" ++ inner.value false <|> word "default") ++
      (sign ":" <|> sign ";") ++ until_ inner words

def guarded (inner : Inner) : Rule :=
  word "try" ++ inner.block ++ some1 (handler <|> word "finally" ++ inner.block)
where
  handler : Rule :=
    word "catch" ++ sign "(" ++ qualifiedName ++ many (sign "|" ++ qualifiedName) ++ opt variableName ++
      sign ")" ++ inner.block

def literal : Rule :=
  lexeme Number.take? <|> Quoted.single <|> wordOf ["true", "false", "null"]

def setting : Rule := lexeme fun s => do
  let (text, r) ← name? s
  if ["ticks", "encoding", "strict_types"].contains (String.ofList text) then some (text, r) else none

def declaration (inner : Inner) : Rule := do
  let start ← word "declare" ++ sign "(" ++ setting ++ sign "=" ++ literal ++ sign ")"
  if ← atClosingTag then pure start else pure start ++ body inner "enddeclare"

def namespaced (inner : Inner) : Rule :=
  let path := name ++ many (sign "\\" ++ name)
  word "namespace" ++ (path ++ semicolon <|> opt path ++ inner.block)

def imported : Rule := word "use" ++ opt kind ++ (group <|> list1 clause) ++ semicolon
where
  kind : Rule := wordOf ["function", "const"]
  path : Rule := name ++ many (sign "\\" ++ name)
  renamed : Rule := opt (word "as" ++ name)
  clause : Rule := asNode .plain (opt (sign "\\") ++ path ++ renamed)
  group : Rule :=
    opt (sign "\\") ++ path ++ sign "\\" ++ braced (list1 (opt kind ++ path ++ renamed) ++ opt (sign ","))

/-- Whether a named function starts here, and not one that is a value. -/
def startsNamedFunction : Reader Bool := do
  pure ((word "function" ++ opt (sign "&") ++ name) (← get)).isSome

/-- A declaration that may carry attributes, by its first word; none if it is an expression. -/
def declared? (inner : Inner) : Reader (Option Rule) := do
  match ← nextWord with
  | "abstract" | "final" | "readonly" | "class" =>
    pure <| some <| many (wordOf ["abstract", "final", "readonly"]) ++ word "class" ++ name ++
      ClassBody.classEnd inner
  | "interface" =>
    pure <| some <| word "interface" ++ name ++ ClassBody.extending ++ ClassBody.members inner .classLike
  | "trait" => pure <| some <| word "trait" ++ name ++ ClassBody.members inner .classLike
  | "enum" =>
    pure <| some <| word "enum" ++ name ++ opt (sign ":" ++ type) ++ ClassBody.implementing ++
      ClassBody.members inner .enumeration
  | "const" => pure <| some <| word "const" ++ ClassBody.constants inner ++ semicolon
  | "function" =>
    if ← startsNamedFunction then pure <| some <| heading inner name ++ inner.block else pure none
  | _ => pure none

def evaluated (inner : Inner) : Rule := inner.value true ++ semicolon

def optionalValue (inner : Inner) : Rule := do
  if ← atClosingTag then nothing else opt (inner.value true)

def starts (p : Rule) : Reader Bool := do pure (p (← get)).isSome

def worded (inner : Inner) (w : String) : Rule := do
  match w with
  | "if" => branch inner
  | "while" => word "while" ++ inner.parenthesized ++ body inner "endwhile"
  | "do" => word "do" ++ inner.statement ++ word "while" ++ inner.parenthesized ++ semicolon
  | "for" => counted inner
  | "foreach" => each inner
  | "switch" => switch inner
  | "try" => guarded inner
  | "declare" => declaration inner
  | "goto" => word "goto" ++ name ++ semicolon
  | "break" | "continue" | "return" => name ++ optionalValue inner ++ semicolon
  | "echo" => word "echo" ++ list1 (inner.value true) ++ semicolon
  | "exit" =>
    word "exit" ++ opt (sign "(" ++ opt (inner.value false) ++ sign ")") ++ semicolon
  | "unset" => word "unset" ++ sign "(" ++ list1 inner.place ++ opt (sign ",") ++ sign ")" ++ semicolon
  | "global" => word "global" ++ list1 (simpleVariable inner) ++ semicolon
  | "use" => imported
  | "namespace" =>
    if ← starts (word "namespace" ++ sign "\\") then evaluated inner else namespaced inner
  | "static" =>
    if ← starts (word "static" ++ sign "$") then
      word "static" ++ list1 (variableName ++ default inner) ++ semicolon
    else evaluated inner
  | _ => if ← starts (name ++ sign ":") then name ++ sign ":" else evaluated inner

def read (inner : Inner) : Rule := asNode .plain do
  match ← nextSign? with
  | some ";" => sign ";"
  | some "#[" =>
    let s ← get
    let marks ← attributes inner
    match ← declared? inner with
    | some p => pure marks ++ p
    | none =>
      set s
      evaluated inner
  | _ =>
    match ← declared? inner with
    | some p => p
    | none =>
      match ← nextWord with
      | "" => if (← nextSign?) = some openingBrace then inner.block else evaluated inner
      | w => worded inner w

end BlueprintSchema.Script.Statement
