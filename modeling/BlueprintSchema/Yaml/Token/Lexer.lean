import BlueprintSchema.Yaml.Token.Tag

/-!
From YAML text to tokens. Indentation opens and closes block collections, and a colon makes a key of
the node before it if that node stands on one line and is not too long.
-/

namespace BlueprintSchema.Yaml.Token

structure KeyCandidate where
  required : Bool
  /-- How many tokens come before it. -/
  position : Nat
  index : Nat
  line : Nat
  column : Nat

structure LexState where
  cursor : Cursor
  tokens : Array Token
  indent : Int
  indents : List Int
  keyAllowed : Bool
  /-- The candidate of the innermost collection. -/
  candidate : Option KeyCandidate
  /-- The candidates around each open flow collection, innermost first. -/
  outer : List (Option KeyCandidate)

namespace LexState

def initial (s : List Char) : LexState := ⟨Cursor.ofList s, #[], -1, [], true, none, []⟩

def inFlow (s : LexState) : Bool := !s.outer.isEmpty

def emit (s : LexState) (t : Token) (k : Cursor) : LexState :=
  { s with tokens := s.tokens.push t, cursor := k }

/-- Step over blanks, comments and line breaks up to the next token. A tab counts as a blank where no
key may start. -/
def skipToToken : Nat → LexState → LexState
  | 0, s => s
  | fuel + 1, s =>
    let k := if s.cursor.column == 0 && s.cursor.isAt 0 '\uFEFF' then s.cursor.skip else s.cursor
    let k := k.skipWhile fun c => c == ' ' || ((s.inFlow || !s.keyAllowed) && c == '\t')
    let k := if k.isAt 0 '#' then k.skipLineText else k
    if (k.peek?).any isBreak then
      skipToToken fuel { s with cursor := k.readBreak.2, keyAllowed := s.keyAllowed || !s.inFlow }
    else { s with cursor := k }

/-- Drop a candidate that ended on an earlier line or lies more than 1024 characters back; a required
one is an error. -/
def dropStale (k : Cursor) : Option KeyCandidate → Option (Option KeyCandidate)
  | none => some none
  | some c =>
    if c.line < k.line || c.index + 1024 < k.index then
      if c.required then none else some none
    else some (some c)

def dropStaleAll (s : LexState) : Option LexState := do
  let candidate ← dropStale s.cursor s.candidate
  let outer ← s.outer.mapM (dropStale s.cursor)
  some { s with candidate := candidate, outer := outer }

def unindent (column : Int) : List Int → LexState → LexState
  | [], s => s
  | outer :: rest, s =>
    if column < s.indent then
      unindent column rest
        { s with tokens := s.tokens.push .blockEnd, indent := outer, indents := rest }
    else s

/-- Close the block collections that stand further right than a column, unless a flow collection is
open. -/
def unindentTo (column : Int) (s : LexState) : LexState :=
  if s.inFlow then s else unindent column s.indents s

/-- Open a block collection at a column further right than the innermost one, with its token put at a
position among the tokens. -/
def indentTo (column position : Nat) (t : Token) (s : LexState) : LexState :=
  if s.inFlow || (column : Int) ≤ s.indent then s
  else
    { s with
      indents := s.indent :: s.indents
      indent := column
      tokens := s.tokens.insertIdxIfInBounds position t }

def removeCandidate (s : LexState) : Option LexState :=
  match s.candidate with
  | some c => if c.required then none else some { s with candidate := none }
  | none => some s

def saveCandidate (s : LexState) : Option LexState :=
  if s.keyAllowed then do
    let k := s.cursor
    let required := !s.inFlow && s.indent == (k.column : Int)
    let s ← s.removeCandidate
    some { s with candidate := some ⟨required, s.tokens.size, k.index, k.line, k.column⟩ }
  else some s

def fetchEnd (s : LexState) : Option LexState := do
  let s ← (s.unindentTo (-1)).removeCandidate
  some { s with tokens := s.tokens.push .streamEnd, keyAllowed := false }

def fetchDirective (s : LexState) : Option LexState := do
  let s ← (s.unindentTo (-1)).removeCandidate
  let (t, k) ← readDirective s.cursor.skip
  some ({ s with keyAllowed := false }.emit t k)

def fetchMarker (t : Token) (s : LexState) : Option LexState := do
  let s ← (s.unindentTo (-1)).removeCandidate
  some ({ s with keyAllowed := false }.emit t (s.cursor.skipMany 3))

def fetchFlowStart (t : Token) (s : LexState) : Option LexState := do
  let s ← s.saveCandidate
  some ({ s with keyAllowed := true, candidate := none, outer := s.candidate :: s.outer }.emit t
    s.cursor.skip)

def fetchFlowEnd (t : Token) (s : LexState) : Option LexState := do
  let s ← s.removeCandidate
  let s := match s.outer with
    | c :: rest => { s with candidate := c, outer := rest }
    | [] => s
  some ({ s with keyAllowed := false }.emit t s.cursor.skip)

def fetchFlowEntry (s : LexState) : Option LexState := do
  let s ← s.removeCandidate
  some ({ s with keyAllowed := true }.emit .flowEntry s.cursor.skip)

def fetchBlockEntry (s : LexState) : Option LexState :=
  if !s.inFlow && !s.keyAllowed then none
  else do
    let s ← (s.indentTo s.cursor.column s.tokens.size .blockSequenceStart).removeCandidate
    some ({ s with keyAllowed := true }.emit .blockEntry s.cursor.skip)

def fetchKey (s : LexState) : Option LexState :=
  if !s.inFlow && !s.keyAllowed then none
  else do
    let s ← (s.indentTo s.cursor.column s.tokens.size .blockMappingStart).removeCandidate
    some ({ s with keyAllowed := !s.inFlow }.emit .key s.cursor.skip)

/-- A colon in front of a value. A candidate becomes a key, and its token goes before it. -/
def fetchValue (s : LexState) : Option LexState :=
  match s.candidate with
  | some c =>
    let s := { s with tokens := s.tokens.insertIdxIfInBounds c.position .key }
    let s := s.indentTo c.column c.position .blockMappingStart
    some ({ s with candidate := none, keyAllowed := false }.emit .value s.cursor.skip)
  | none =>
    if !s.inFlow && !s.keyAllowed then none
    else
      let s := s.indentTo s.cursor.column s.tokens.size .blockMappingStart
      some ({ s with keyAllowed := !s.inFlow }.emit .value s.cursor.skip)

def fetchAnchor (t : String → Token) (s : LexState) : Option LexState := do
  let s ← s.saveCandidate
  let (name, k) ← readAnchorName s.cursor.skip
  some ({ s with keyAllowed := false }.emit (t name) k)

def fetchTag (s : LexState) : Option LexState := do
  let s ← s.saveCandidate
  let (t, k) ← readTag s.inFlow s.cursor
  some ({ s with keyAllowed := false }.emit t k)

def fetchBlockScalar (literal : Bool) (s : LexState) : Option LexState := do
  let s ← s.removeCandidate
  let (text, k) ← readBlock literal s.indent s.cursor.skip
  some ({ s with keyAllowed := true }.emit (.scalar (String.ofList text) false) k)

def fetchQuoted (single : Bool) (s : LexState) : Option LexState := do
  let s ← s.saveCandidate
  let (text, k) ← readQuoted single (s.cursor.rest.length + 1) [] s.cursor.skip
  some ({ s with keyAllowed := false }.emit (.scalar (String.ofList text.reverse) false) k)

/-- A plain scalar. After one that ended with a line, a key may start. -/
def fetchPlain (s : LexState) : Option LexState := do
  let s ← s.saveCandidate
  let (text, broken, k) ←
    readPlain s.inFlow (s.indent + 1) (s.cursor.rest.length + 1) Gap.none [] s.cursor
  some ({ s with keyAllowed := broken }.emit (.scalar (String.ofList text.reverse) true) k)

def startsPlain (inFlow : Bool) (k : Cursor) (c : Char) : Bool :=
  !(['-', '?', ':', ',', '[', ']', '\x7b', '\x7d', '#', '&', '*', '!', '|', '>', '\'', '"', '%',
      '@', '`'].contains c || isBlank c || isBreak c) ||
    (c == '-' && !(k.peekAt? 1).any isBlank) ||
    (!inFlow && (c == '?' || c == ':') && !k.isSpaceAt 1)

def fetch (s : LexState) : Option LexState := do
  let s ← (skipToToken (s.cursor.rest.length + 1) s).dropStaleAll
  let s := s.unindentTo s.cursor.column
  let k := s.cursor
  match k.peek? with
  | none => s.fetchEnd
  | some c =>
    if k.column == 0 && c == '%' then s.fetchDirective
    else if k.isMarker '-' then s.fetchMarker .documentStart
    else if k.isMarker '.' then s.fetchMarker .documentEnd
    else if c == '[' then s.fetchFlowStart .flowSequenceStart
    else if c == '\x7b' then s.fetchFlowStart .flowMappingStart
    else if c == ']' then s.fetchFlowEnd .flowSequenceEnd
    else if c == '\x7d' then s.fetchFlowEnd .flowMappingEnd
    else if c == ',' then s.fetchFlowEntry
    else if c == '-' && k.isSpaceAt 1 then s.fetchBlockEntry
    else if c == '?' && (s.inFlow || k.isSpaceAt 1) then s.fetchKey
    else if c == ':' && (s.inFlow || k.isSpaceAt 1) then s.fetchValue
    else if c == '*' then s.fetchAnchor .alias
    else if c == '&' then s.fetchAnchor .anchor
    else if c == '!' then s.fetchTag
    else if c == '|' && !s.inFlow then s.fetchBlockScalar true
    else if c == '>' && !s.inFlow then s.fetchBlockScalar false
    else if c == '\'' then s.fetchQuoted true
    else if c == '"' then s.fetchQuoted false
    else if startsPlain s.inFlow k c then s.fetchPlain
    else none

def run : Nat → LexState → Option (List Token)
  | 0, _ => none
  | fuel + 1, s =>
    match s.fetch with
    | none => none
    | some s => if s.tokens.back? == some .streamEnd then some s.tokens.toList else run fuel s

end LexState

def ofText? (s : List Char) : Option (List Token) :=
  if s.all isAllowed then (LexState.initial s).run (s.length + 2) else none

end BlueprintSchema.Yaml.Token
