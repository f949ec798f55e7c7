import BlueprintSchema.Script.Trivia

/-!
Rules of the script grammar. A rule takes trees off the front of the text, or refuses. Rules are put
one after the other with `++`, and `<|>` tries the second where the first refuses.
-/

namespace BlueprintSchema.Script

abbrev Reader := StateT (List Char) Option

abbrev Rule := Reader (List Tree)

namespace Rule

instance : Append Rule := ⟨fun p q => do
  let ts ← p
  let us ← q
  pure (ts ++ us)⟩

def nothing : Rule := pure []

def opt (p : Rule) : Rule := p <|> nothing

def asNode (kind : Kind) (p : Rule) : Rule := do
  let ts ← p
  pure [.node kind ts]

/-- A rule at most `fuel` times, as long as it takes some text. -/
def upTo (p : Rule) : Nat → Rule
  | 0 => nothing
  | fuel + 1 => do
    let s ← get
    match p s with
    | none => nothing
    | some (ts, r) =>
      if r.length < s.length then
        set r
        let us ← upTo p fuel
        pure (ts ++ us)
      else nothing

def many (p : Rule) : Rule := do upTo p (← get).length

def some1 (p : Rule) : Rule := p ++ many p

/-! ### Tokens -/

def openingBrace : String := "\x7b"

def closingBrace : String := "\x7d"

/-- Signs of the language, the longer ones first. -/
def signs : List String :=
  ["<<<", "===", "!==", "<=>", "**=", "...", "<<=", ">>=", "??=", "?->",
    "==", "!=", "<>", "<=", ">=", "&&", "||", "++", "--", "->", "=>", "::", "+=", "-=", "*=", "/=", ".=",
    "%=", "&=", "|=", "^=", "<<", ">>", "**", "??", "?>", "#[",
    "+", "-", "*", "/", "%", "=", "<", ">", "!", ".", "(", ")", "[", "]", openingBrace, closingBrace,
    ",", ";", ":", "?", "&", "|", "^", "~", "@", "$", "\\", "\x60", "\"", "'"]

def sign? (s : List Char) : Option String := signs.find? fun t => t.toList.isPrefixOf s

def startsName (c : Char) : Bool :=
  c.isAlpha || c == '_' || (c.toNat ≥ 128 && !Trivia.isBlank c)

def inName (c : Char) : Bool := startsName c || c.isDigit

def name? : List Char → Option (List Char × List Char)
  | [] => none
  | c :: r => if startsName c then some (c :: r.takeWhile inName, r.dropWhile inName) else none

def lexeme (take : List Char → Option (List Char × List Char)) : Rule := do
  let (before, s) := Trivia.before (← get)
  let (text, r) ← (take s : Option _)
  set r
  pure [.token before text]

def nextSign? : Reader (Option String) := do pure (sign? (Trivia.before (← get)).2)

/-- The word at the start of the text after the trivia, in small letters; empty if none is there. -/
def nextWord : Reader String := do
  match name? (Trivia.before (← get)).2 with
  | some (text, _) => pure (String.ofList (text.map Char.toLower))
  | none => pure ""

def atClosingTag : Reader Bool := do
  match (Trivia.beforeTag (← get)).2 with
  | '?' :: '>' :: _ => pure true
  | _ => pure false

def sign (t : String) : Rule := lexeme fun s =>
  if sign? s = some t then some (t.toList, s.drop t.length) else none

def name : Rule := lexeme name?

def word (w : String) : Rule := do
  if (← nextWord) = w then name else failure

def wordOf (ws : List String) : Rule := do
  if ws.contains (← nextWord) then name else failure

/-- The end of a statement: a semicolon, or nothing in front of a closing tag. -/
def semicolon : Rule := do
  if ← atClosingTag then nothing else sign ";"

def ending : Rule := lexeme fun
  | [] => some ([], [])
  | _ => none

/-! ### Sequences -/

def braced (p : Rule) : Rule := sign openingBrace ++ p ++ sign closingBrace

def list1 (p : Rule) : Rule := p ++ many (sign "," ++ p)

/-- A rule any number of times, with commas between and perhaps one after the last. -/
def list (p : Rule) : Rule := opt (list1 p) ++ opt (sign ",")

end Rule

end BlueprintSchema.Script
