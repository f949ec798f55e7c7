import BlueprintSchema.Script.Number
import BlueprintSchema.Script.Operand

/-!
Strings: in single quotes, in double quotes or back ticks with variables and expressions inside, and
as lines between a word and its next occurrence at the start of a line.
-/

namespace BlueprintSchema.Script.Quoted

/-- Text up to and including the closing single quote; a backslash takes the next character along. -/
def singleEnd? : List Char → Option (List Char × List Char)
  | [] => none
  | '\x27' :: r => some (['\x27'], r)
  | '\\' :: c :: r => (singleEnd? r).map fun (s, r) => ('\\' :: c :: s, r)
  | c :: r => (singleEnd? r).map fun (s, r) => (c :: s, r)

def single : Rule := Rule.asNode .string <| Rule.lexeme fun
  | '\x27' :: r => (singleEnd? r).map fun (s, r) => ('\x27' :: s, r)
  | 'b' :: '\x27' :: r => (singleEnd? r).map fun (s, r) => ('b' :: '\x27' :: s, r)
  | 'B' :: '\x27' :: r => (singleEnd? r).map fun (s, r) => ('B' :: '\x27' :: s, r)
  | _ => none

/-- Whether the text starts with a variable or an expression to insert. The name of a variable here
starts with a letter of the ASCII alphabet or an underscore. -/
def startsInterpolation : List Char → Bool
  | '$' :: '{' :: _ | '{' :: '$' :: _ => true
  | '$' :: c :: _ => c.isAlpha || c == '_'
  | _ => false

/-- Text up to where `stop` holds or something is inserted. A backslash takes the next character
along, unless `stop` holds of a line break there. -/
def plain (stop : Char → Bool) : List Char → List Char × List Char
  | [] => ([], [])
  | '\\' :: c :: r =>
    if (c = '\n' || c = '\r') && stop c then (['\\'], c :: r)
    else
      let (s, r) := plain stop r
      ('\\' :: c :: s, r)
  | c :: r =>
    if stop c || startsInterpolation (c :: r) then ([], c :: r)
    else
      let (s, r) := plain stop r
      (c :: s, r)

def bare (take : List Char → Option (List Char × List Char)) : Rule := do
  let (text, r) ← (take (← get) : Option _)
  set r
  pure [.token [] text]

def exactly (t : String) : Rule := bare fun s =>
  if t.toList.isPrefixOf s then some (t.toList, s.drop t.length) else none

def integer : Rule := Rule.lexeme fun s =>
  match Number.whole s with
  | 0 => none
  | n => some (s.take n, s.drop n)

def bareName : Rule := bare Rule.name?

def simpleKey : Rule :=
  Rule.opt (Rule.sign "-") ++ integer <|> Rule.name <|> Rule.sign "$" ++ Rule.name

def interpolation (inner : Inner) : Rule := Rule.asNode .interpolation do
  match ← get with
  | '{' :: _ => Rule.braced (inner.value false)
  | '$' :: '{' :: _ => exactly "$" ++ Rule.braced (inner.value false)
  | _ =>
    let v ← exactly "$" ++ bareName
    match ← get with
    | '[' :: _ => pure v ++ exactly "[" ++ simpleKey ++ Rule.sign "]"
    | '-' :: '>' :: c :: _ =>
      if Rule.startsName c then pure v ++ exactly "->" ++ bareName else pure v
    | _ => pure v

/-- The rest of a string up to and including the quote. The last argument bounds the number of
pieces. -/
def templateEnd (inner : Inner) (quote : Char) : Nat → Rule
  | 0 => failure
  | fuel + 1 => do
    let s ← get
    let (text, r) := plain (· == quote) s
    set r
    let before : List Tree := if text.isEmpty then [] else [.token [] text]
    match r with
    | [] => failure
    | c :: _ =>
      if c = quote then pure before ++ exactly quote.toString
      else pure before ++ interpolation inner ++ templateEnd inner quote fuel

def template (inner : Inner) : Rule := Rule.asNode .template do
  let opening ← Rule.lexeme fun
    | '"' :: r => some (['"'], r)
    | 'b' :: '"' :: r => some (['b', '"'], r)
    | 'B' :: '"' :: r => some (['B', '"'], r)
    | _ => none
  pure opening ++ templateEnd inner '"' ((← get).length + 1)

def command (inner : Inner) : Rule := Rule.asNode .plain do
  let opening ← Rule.sign "\x60"
  pure opening ++ templateEnd inner '\x60' ((← get).length + 1)

/-! ### Lines between words -/

def isSpace (c : Char) : Bool := c == ' ' || ('\t' ≤ c && c ≤ '\r')

def breaksLine (c : Char) : Bool := c == '\n' || c == '\r'

def inTag (c : Char) : Bool := c.isAlphanum || c == '_'

def startsWithWord (tag : List Char) (s : List Char) : Bool := s.takeWhile inTag == tag

/-- Whether the raw lines end here: the word is followed by white space or a sign of punctuation, and
after blanks on its line comes a line break or such a sign. -/
def endsRaw (tag : List Char) (s : List Char) : Bool :=
  let isStop := fun c => c == ';' || c == ',' || c == ')'
  if tag.isPrefixOf s then
    let r := s.drop tag.length
    let blanksDropped := r.dropWhile fun c => isSpace c && !breaksLine c
    r.head?.any (fun c => isSpace c || isStop c) &&
      blanksDropped.head?.any (fun c => breaksLine c || isStop c)
  else false

def closing (gap tag : List Char) : Rule := Rule.asNode .ending do
  let s ← get
  set (s.drop (gap.length + tag.length))
  pure [.token [.blank gap] tag]

/-- Lines with variables and expressions inside, up to where the closing word starts a line; the white
space before that word is not part of them. The last argument bounds the number of pieces. -/
def lines (inner : Inner) (tag : List Char) : Nat → Rule
  | 0 => failure
  | fuel + 1 => do
    let s ← get
    let gap := s.takeWhile isSpace
    let r := s.dropWhile isSpace
    if startsWithWord tag r then
      if gap.any breaksLine then nothing else failure
    else
      let (text, r) := plain breaksLine r
      set r
      let before : List Tree := if gap.isEmpty && text.isEmpty then [] else [.token [] (gap ++ text)]
      match r with
      | [] => failure
      | c :: _ =>
        if breaksLine c then pure before ++ lines inner tag fuel
        else pure before ++ interpolation inner ++ lines inner tag fuel
where nothing : Rule := pure []

/-- Raw lines up to where the closing word stands on a line of its own or before punctuation. The last
argument bounds the number of lines. -/
def rawLines (tag : List Char) : Nat → Rule
  | 0 => failure
  | fuel + 1 => do
    let s ← get
    let gap := s.takeWhile isSpace
    let r := s.dropWhile isSpace
    if endsRaw tag r then pure []
    else
      let text := gap ++ r.takeWhile (!breaksLine ·)
      let r := r.dropWhile (!breaksLine ·)
      set r
      if r.isEmpty then failure
      else pure [.token [] text] ++ rawLines tag fuel

/-- The opening of lines: `<<<` and a word, perhaps in quotes. Gives the word and whether it stands in
single quotes. -/
def opening : Reader (Tree × List Char × Bool) := do
  let (before, s) := Trivia.before (← get)
  match s with
  | '<' :: '<' :: '<' :: r =>
    let blanks := r.takeWhile fun c => c == ' ' || c == '\t'
    let r := r.drop blanks.length
    let quote := r.take 1 |>.filter fun c => c == '\x27' || c == '"'
    let tag := (r.drop quote.length).takeWhile inTag
    let r := (r.drop quote.length).dropWhile inTag
    if !tag.isEmpty && quote.isPrefixOf r then
      set (r.drop quote.length)
      pure (.token before (['<', '<', '<'] ++ blanks ++ quote ++ tag ++ quote), tag, quote == ['\x27'])
    else failure
  | _ => failure

def document (inner : Inner) : Rule := do
  let (start, tag, raw) ← opening
  let kind : Kind := if raw then .nowdoc else .heredoc
  let s ← get
  let gap := s.takeWhile isSpace
  if !gap.any breaksLine then failure
  else if startsWithWord tag (s.drop gap.length) then
    let last ← closing gap tag
    pure [.node kind (start :: last)]
  else
    let blanks := s.takeWhile fun c => isSpace c && !breaksLine c
    set (s.drop blanks.length)
    let body ← if raw then rawLines tag (s.length + 1) else lines inner tag (s.length + 1)
    let last ← closing ((← get).takeWhile isSpace) tag
    pure [.node kind (start :: .token [.blank blanks] [] :: .node .body body :: last)]

end BlueprintSchema.Script.Quoted
