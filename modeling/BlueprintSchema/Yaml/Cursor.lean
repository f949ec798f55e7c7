/-!
A place in YAML text: what is still to be read, and where that is. Line breaks are a carriage return,
a line feed, both together, and the Unicode breaks NEL, LS and PS.
-/

namespace BlueprintSchema.Yaml

structure Cursor where
  rest : List Char
  index : Nat
  line : Nat
  column : Nat

def isBlank (c : Char) : Bool := c == ' ' || c == '\t'

def isBreak (c : Char) : Bool :=
  c == '\n' || c == '\r' || c == '\x85' || c == '\u2028' || c == '\u2029'

/-- Whether a character may stand in names of anchors, directives and tag handles. -/
def isWordChar (c : Char) : Bool :=
  ('0' ≤ c && c ≤ '9') || ('A' ≤ c && c ≤ 'Z') || ('a' ≤ c && c ≤ 'z') || c == '_' || c == '-'

def isAllowed (c : Char) : Bool :=
  let n := c.toNat
  n == 9 || n == 10 || n == 13 || (0x20 ≤ n && n ≤ 0x7E) || n == 0x85 ||
    (0xA0 ≤ n && n ≤ 0xD7FF) || (0xE000 ≤ n && n ≤ 0xFFFD) || (0x10000 ≤ n && n ≤ 0x10FFFF)

namespace Cursor

def ofList (s : List Char) : Cursor := ⟨s, 0, 0, 0⟩

def peek? (k : Cursor) : Option Char := k.rest.head?

def peekAt? (k : Cursor) (n : Nat) : Option Char := k.rest[n]?

def isAt (k : Cursor) (n : Nat) (c : Char) : Bool := k.peekAt? n == some c

def isEnd (k : Cursor) : Bool := k.rest.isEmpty

/-- Whether the character at a place is a blank or a break, or the text has ended there. -/
def isSpaceAt (k : Cursor) (n : Nat) : Bool :=
  match k.peekAt? n with
  | some c => isBlank c || isBreak c
  | none => true

def isLineEnd (k : Cursor) : Bool :=
  match k.peek? with
  | some c => isBreak c
  | none => true

def skip (k : Cursor) : Cursor := ⟨k.rest.tail, k.index + 1, k.line, k.column + 1⟩

def skipMany (k : Cursor) : Nat → Cursor
  | 0 => k
  | n + 1 => k.skip.skipMany n

/-- Step over one line break, if one is next: what it stands for in a value, and the place after
it. -/
def readBreak (k : Cursor) : List Char × Cursor :=
  match k.rest with
  | '\r' :: '\n' :: r => (['\n'], ⟨r, k.index + 2, k.line + 1, 0⟩)
  | c :: r =>
    if c == '\u2028' || c == '\u2029' then ([c], ⟨r, k.index + 1, k.line + 1, 0⟩)
    else if isBreak c then (['\n'], ⟨r, k.index + 1, k.line + 1, 0⟩)
    else ([], k)
  | [] => ([], k)

def skipWhile (p : Char → Bool) (k : Cursor) : Cursor :=
  k.skipMany (k.rest.takeWhile p).length

def skipLineText (k : Cursor) : Cursor := k.skipWhile (fun c => !isBreak c)

/-- Whether the line starts with a document marker: three times the character `c`, then a space, a
break or the end. -/
def isMarker (k : Cursor) (c : Char) : Bool :=
  k.column == 0 && k.isAt 0 c && k.isAt 1 c && k.isAt 2 c && k.isSpaceAt 3

end Cursor

end BlueprintSchema.Yaml
