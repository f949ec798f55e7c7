import BlueprintSchema.Script.Tree
import BlueprintSchema.Text.Basic

/-!
The values of constant string literals.
-/

namespace BlueprintSchema.Script.Literal

/-- The text of a literal between its quotes; a `b` before the first quote is left out. -/
def unquote? (quote : Char) (s : List Char) : Option (List Char) :=
  let s := match s with
    | 'b' :: r | 'B' :: r => r
    | s => s
  match s with
  | c :: r => if c = quote && r.getLast? = some quote then some r.dropLast else none
  | [] => none

/-- The text that a body in single quotes stands for: only a backslash and the quote are escaped. -/
def unescapeSingle : List Char → List Char
  | [] => []
  | '\\' :: c :: r =>
    if c = '\\' || c = '\x27' then c :: unescapeSingle r else '\\' :: unescapeSingle (c :: r)
  | c :: r => c :: unescapeSingle r

/-- The character that an escape stands for after its backslash, if it is one. The quote, where there
is one, may be escaped too. -/
def escaped? (quote : Option Char) (c : Char) : Option Char :=
  match c with
  | 'n' => some '\n'
  | 't' => some '\t'
  | 'r' => some '\r'
  | 'v' => some '\x0b'
  | 'e' => some '\x1b'
  | 'f' => some '\x0c'
  | _ => if c = '\\' || c = '$' || some c = quote then some c else none

/-- The text that a body in double quotes, or lines without quotes, stand for. A backslash that starts
no known escape stands for itself. -/
def unescape (quote : Option Char) : List Char → List Char
  | [] => []
  | '\\' :: c :: r =>
    match escaped? quote c with
    | some d => d :: unescape quote r
    | none => '\\' :: unescape quote (c :: r)
  | c :: r => c :: unescape quote r

/-- A text without the given one at its start; the whole text if it does not start with it. -/
def dropPrefixOf (lead s : List Char) : List Char :=
  if lead.isPrefixOf s then s.drop lead.length else s

def isGap (c : Char) : Bool := c == ' ' || c == '\t'

/-- The lines of a heredoc or nowdoc body without the line break before the first, without the blanks
after the last, and each without the indentation of the closing word. -/
def bodyText (indentation body : List Char) : List Char :=
  let body := match body with
    | '\r' :: '\n' :: r | '\n' :: r => r
    | s => s
  let body := (body.reverse.dropWhile isGap).reverse
  ['\n'].intercalate ((Text.lines body).map (dropPrefixOf indentation))

/-- The blanks at the start of the last line of the white space before a closing word. -/
def indentation (gap : List Char) : List Char :=
  let line := (gap.reverse.takeWhile (· != '\n')).reverse
  line.takeWhile isGap

def isPlain (parts : List Tree) : Bool := !parts.any (Tree.hasKind .interpolation)

/-- The body and the closing word of a heredoc or nowdoc, with the indentation of the word. -/
def document? (parts : List Tree) : Option (Tree × List Char) := do
  let body ← parts.find? (Tree.hasKind .body)
  let indentation := match parts.find? (Tree.hasKind .ending) with
    | some t => indentation (t.leading.flatMap Trivia.text)
    | none => []
  some (body, indentation)

/-- The value of a string literal into which nothing is inserted; none for all other trees. -/
def value? : Tree → Option (List Char)
  | .token _ _ => none
  | .node kind parts =>
    let text := (Tree.node kind parts).text
    match kind with
    | .string => (unquote? '\x27' text).map unescapeSingle
    | .template =>
      if isPlain parts then (unquote? '"' text).map (unescape (some '"')) else none
    | .heredoc => do
      let (body, indentation) ← document? parts
      if isPlain body.parts then some (unescape none (bodyText indentation body.text)) else none
    | .nowdoc => do
      let (body, indentation) ← document? parts
      some (bodyText indentation body.text)
    | _ => none

end BlueprintSchema.Script.Literal
