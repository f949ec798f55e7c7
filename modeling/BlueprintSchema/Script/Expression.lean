import BlueprintSchema.Script.ClassBody
import BlueprintSchema.Script.Number
import BlueprintSchema.Script.Quoted

/-!
Expressions: what one starts with, the accesses after it, and the operators that join it to the next.
Only shapes that other constructs depend on are told apart: what can be assigned to, accessed and
called.
-/

namespace BlueprintSchema.Script.Expression

open Rule Signature

def operand (shape : Shape) (p : Rule) : Reader Operand := do
  pure ⟨.node .plain (← p), shape⟩

def whole (shape : Shape) (p : Rule) : Reader Operand := do
  match ← p with
  | [t] => pure ⟨t, shape⟩
  | ts => pure ⟨.node .plain ts, shape⟩

def simpleVariable (inner : Inner) : Rule :=
  some1 (sign "$") ++ (name <|> braced (inner.value false))

def memberName (inner : Inner) : Rule :=
  name <|> simpleVariable inner <|> braced (inner.value false)

def subscript (inner : Inner) : Rule := sign "[" ++ opt (inner.value false) ++ sign "]"

/-! ### Arrays and patterns -/

structure Slot where
  trees : List Tree := []
  isValue : Bool := true
  isTarget : Bool := true

def byReference (inner : Inner) : Rule := asNode .reference (sign "&" ++ inner.place)

def element (inner : Inner) : Reader Slot := do
  match ← nextSign? with
  | some "..." => pure { trees := ← asNode .plain (sign "..." ++ inner.value false), isTarget := false }
  | some "&" => pure { trees := ← byReference inner }
  | _ =>
    let e ← inner.expression false
    if (← nextSign?) = some "=>" && e.shape.isValue then
      let arrow ← sign "=>"
      if (← nextSign?) = some "&" then pure { trees := e.tree :: arrow ++ (← byReference inner) }
      else
        let v ← inner.expression false
        pure ⟨e.tree :: arrow ++ [v.tree], v.shape.isValue, v.shape.isTarget⟩
    else pure ⟨[e.tree], e.shape.isValue, e.shape.isTarget⟩

def valueElement (inner : Inner) : Rule := asNode .element do
  let e ← element inner
  if e.isValue then pure e.trees else failure

/-- Places with commas between, each perhaps empty, and the trees with their commas. The last argument
bounds the number of places. -/
def slots (inner : Inner) : Nat → Reader (List Slot × List Tree)
  | 0 => failure
  | fuel + 1 => do
    let e : Slot ← element inner <|> pure {}
    let own : List Tree := if e.trees.isEmpty then [] else [.node .element e.trees]
    if (← nextSign?) = some "," then
      let comma ← sign ","
      let (es, ts) ← slots inner fuel
      pure (e :: es, own ++ comma ++ ts)
    else pure ([e], own)

/-- Whether places make an array: none is empty but perhaps the last, and each has a value. Two empty
places, a lone comma, are allowed too. -/
def isArray (es : List Slot) : Bool :=
  es.all (·.isValue) &&
    (es.dropLast.all (!·.trees.isEmpty) || (es.length == 2 && es.all (·.trees.isEmpty)))

def bracketed (inner : Inner) : Reader Operand := do
  let start ← sign "["
  let (es, ts) ← slots inner ((← get).length + 1)
  let stop ← sign "]"
  let value := isArray es
  let target := es.all (·.isTarget)
  if value || target then
    pure ⟨.node .array (start ++ ts ++ stop), ⟨value, target, false, value, value⟩⟩
  else failure

def listPattern (inner : Inner) : Reader Operand := do
  let start ← word "list" ++ sign "("
  let (es, ts) ← slots inner ((← get).length + 1)
  let stop ← sign ")"
  if es.all (·.isTarget) then pure ⟨.node .plain (start ++ ts ++ stop), .pattern⟩ else failure

/-! ### Functions, objects and matches -/

def captured : Rule :=
  word "use" ++ sign "(" ++ list (opt (sign "&") ++ variableName) ++ sign ")"

def closure (inner : Inner) (atEnd : Bool) : Rule := do
  let start ← attributes inner ++ opt (word "static")
  if (← nextWord) = "fn" then
    pure start ++ word "fn" ++ opt (sign "&") ++ parameters inner ++ resultType ++ sign "=>" ++
      inner.value atEnd
  else
    pure start ++ word "function" ++ opt (sign "&") ++ parameters inner ++ opt captured ++ resultType ++
      inner.block

def classAccess (inner : Inner) : Rule :=
  subscript inner <|> (sign "->" <|> sign "?->") ++ memberName inner <|> sign "::" ++ simpleVariable inner

def classReference (inner : Inner) : Rule := asNode .plain do
  match ← nextSign? with
  | some "(" => inner.parenthesized
  | some "$" => simpleVariable inner ++ many (classAccess inner)
  | _ => qualifiedName ++ opt (sign "::" ++ simpleVariable inner ++ many (classAccess inner))

/-- A new object. Only after arguments or the body of a class may accesses follow. -/
def object (inner : Inner) : Reader Operand := do
  let start ← word "new"
  if (← nextSign?) = some "#[" || ["class", "readonly"].contains (← nextWord) then
    operand .group (pure start ++ attributes inner ++ opt (word "readonly") ++ word "class" ++
      opt inner.arguments ++ ClassBody.classEnd inner)
  else
    let class_ ← classReference inner
    if (← nextSign?) = some "(" then operand .group (pure (start ++ class_) ++ inner.arguments)
    else pure ⟨.node .plain (start ++ class_), .closed⟩

def choice (inner : Inner) : Rule :=
  word "match" ++ inner.parenthesized ++ braced (list1 (asNode .plain arm) ++ opt (sign ","))
where
  arm : Rule := do
    if (← nextWord) = "default" then word "default" ++ sign "=>" ++ inner.value false
    else list1 (inner.value false) ++ opt (sign ",") ++ sign "=>" ++ inner.value false

/-! ### Operands -/

def scope : Reader Operand := do
  let e ← operand .group Inner.classWord
  match ← nextSign? with
  | some "(" | some "::" => pure e
  | _ => failure

def worded (inner : Inner) (atEnd : Bool) : Reader Operand := do
  match ← nextWord with
  | "array" =>
    whole .group (asNode .array (word "array" ++ sign "(" ++ list (valueElement inner) ++ sign ")"))
  | "list" => listPattern inner
  | "new" => object inner
  | "match" => operand .closed (choice inner)
  | "function" | "fn" => operand .closed (closure inner atEnd)
  | "static" =>
    let s ← get
    let _ ← word "static"
    let next ← nextWord
    set s
    if next = "function" || next = "fn" then operand .closed (closure inner atEnd) else scope
  | "true" | "false" | "null" => operand .closed name
  | "namespace" =>
    operand .group (word "namespace" ++ sign "\\" ++ name ++ some1 (sign "\\" ++ name))
  | w =>
    if ["clone", "print", "yield", "throw", "include", "include_once", "require",
      "require_once"].contains w then failure
    else if (Inner.classWord (← get)).isSome then scope
    else whole .group qualifiedName

def primary (inner : Inner) (atEnd : Bool) : Reader Operand := do
  match (Trivia.before (← get)).2 with
  | '\x27' :: _ | 'b' :: '\x27' :: _ | 'B' :: '\x27' :: _ => whole .group Quoted.single
  | '"' :: _ | 'b' :: '"' :: _ | 'B' :: '"' :: _ => whole .group (Quoted.template inner)
  | '\x60' :: _ => whole .closed (Quoted.command inner)
  | '<' :: '<' :: '<' :: _ => whole .group (Quoted.document inner)
  | '$' :: _ => operand .place (simpleVariable inner)
  | '(' :: _ => whole .group inner.parenthesized
  | '[' :: _ => bracketed inner
  | '#' :: '[' :: _ => operand .closed (closure inner atEnd)
  | '+' :: '+' :: _ => operand .closed (sign "++" ++ inner.place)
  | '-' :: '-' :: _ => operand .closed (sign "--" ++ inner.place)
  | c :: _ => if c.isDigit || c = '.' then operand .closed (lexeme Number.take?) else worded inner atEnd
  | [] => failure

def scopeAccess (inner : Inner) (t : Tree) : Reader Operand := do
  let link ← sign "::"
  let (shape, member) ← match ← nextSign? with
    | some "$" => do pure (Shape.place, ← asNode .method (simpleVariable inner))
    | _ => do
      pure (Shape.constant, ← asNode .method name <|> braced (asNode .method (inner.value false)))
  let parts := .node .scope [t] :: link ++ member
  if (← nextSign?) = some "(" then
    pure ⟨.node .staticCall (parts ++ (← inner.arguments)), .place⟩
  else pure ⟨.node .plain parts, shape⟩

def accesses (inner : Inner) (atEnd : Bool) : Nat → Operand → Reader Operand
  | 0, e => pure e
  | fuel + 1, e => do
    if atEnd && (← atClosingTag) then pure e
    else
      let follow (p : Rule) : Reader Operand := do
        accesses inner atEnd fuel ⟨.node .plain (e.tree :: (← p)), .place⟩
      match ← nextSign? with
      | some "[" => if e.shape.isAccessible then follow (subscript inner) else pure e
      | some "(" => if e.shape.isCallable then follow inner.arguments else pure e
      | some "->" =>
        if e.shape.isAccessible then follow (sign "->" ++ memberName inner) else pure e
      | some "?->" =>
        if e.shape.isAccessible then follow (sign "?->" ++ memberName inner) else pure e
      | some "::" =>
        if e.shape.isAccessible then accesses inner atEnd fuel (← scopeAccess inner e.tree) else pure e
      | some "++" => if e.shape.isPlace then operand .closed (pure [e.tree] ++ sign "++") else pure e
      | some "--" => if e.shape.isPlace then operand .closed (pure [e.tree] ++ sign "--") else pure e
      | some sign =>
        if sign = openingBrace && e.shape.isAccessible then
          follow (braced (inner.value false)) <|> pure e
        else pure e
      | none => pure e

def accessed (inner : Inner) (atEnd : Bool) : Reader Operand := do
  accesses inner atEnd (← get).length (← primary inner atEnd)

/-! ### Operators -/

def changing : List String :=
  ["**=", "<<=", ">>=", "??=", "+=", "-=", "*=", "/=", ".=", "%=", "&=", "|=", "^="]

def joining : List String :=
  ["===", "!==", "<=>", "==", "!=", "<>", "<=", ">=", "&&", "||", "<<", ">>", "**", "??", "+", "-", "*",
    "/", "%", "<", ">", ".", "&", "|", "^"]

def branches (inner : Inner) (atEnd : Bool) : Rule := do
  let start ← sign "?"
  if (← nextSign?) = some ":" then pure start ++ sign ":" ++ inner.value atEnd
  else pure start ++ inner.value false ++ sign ":" ++ inner.value atEnd

def joined (inner : Inner) (atEnd : Bool) (e : Operand) : Reader Operand := do
  let follow (p : Rule) : Reader Operand := operand .closed (pure [e.tree] ++ p)
  if atEnd && (← atClosingTag) then pure e
  else
    match ← nextSign? with
    | some "=" =>
      if e.shape.isTarget then follow (sign "=" ++ opt (sign "&") ++ inner.value atEnd) else pure e
    | some "?" => if e.shape.isValue then follow (branches inner atEnd) else pure e
    | some op =>
      if (changing.contains op && e.shape.isPlace) || (joining.contains op && e.shape.isValue) then
        follow (sign op ++ inner.value atEnd)
      else pure e
    | none =>
      if e.shape.isValue && ["and", "or", "xor"].contains (← nextWord) then
        follow (name ++ inner.value atEnd)
      else pure e

/-- A test of the class of a value, if one follows. Two in a row are refused. -/
def tested (inner : Inner) (e : Operand) : Reader Operand := do
  if e.shape.isValue && (← nextWord) = "instanceof" then
    let t ← operand .closed (pure [e.tree] ++ word "instanceof" ++ classReference inner)
    if (← nextWord) = "instanceof" then failure else pure t
  else pure e

def castTypes : List String :=
  ["array", "binary", "bool", "boolean", "double", "int", "integer", "float", "object", "real", "string",
    "unset"]

def cast : Rule := sign "(" ++ wordOf castTypes ++ sign ")"

def converted (inner : Inner) (atEnd : Bool) : Rule := do
  let start ← cast
  if ["match", "yield", "include", "include_once", "require", "require_once"].contains (← nextWord) then
    failure
  else pure start ++ inner.value atEnd

/-- What a function hands out: nothing, the values of another, or a value perhaps with a key. -/
def yielded (inner : Inner) (atEnd : Bool) : Rule := do
  let start ← word "yield"
  if ← atClosingTag then pure start
  else if (← nextWord) = "from" then pure start ++ word "from" ++ inner.value atEnd
  else pure start ++ opt (given ++ opt (sign "=>" ++ given))
where
  given : Rule := byReference inner <|> inner.value atEnd

def read (inner : Inner) (atEnd : Bool) : Reader Operand := do
  match ← nextSign? with
  | some "!" => operand .closed (sign "!" ++ inner.value atEnd)
  | some "+" => operand .closed (sign "+" ++ inner.value atEnd)
  | some "-" => operand .closed (sign "-" ++ inner.value atEnd)
  | some "~" => operand .closed (sign "~" ++ inner.value atEnd)
  | some "@" => operand .closed (sign "@" ++ inner.value atEnd)
  | _ =>
    if (cast (← get)).isSome then operand .closed (converted inner atEnd)
    else
      match ← nextWord with
      | "print" | "throw" | "include" | "include_once" | "require" | "require_once" =>
        operand .closed (name ++ inner.value atEnd)
      | "yield" => operand .closed (yielded inner atEnd)
      | "clone" =>
        let start ← name
        let e ← accessed inner atEnd
        if e.shape.isValue then joined inner atEnd ⟨.node .plain (start ++ [e.tree]), .closed⟩ else failure
      | _ => joined inner atEnd (← tested inner (← accessed inner atEnd))

end BlueprintSchema.Script.Expression
