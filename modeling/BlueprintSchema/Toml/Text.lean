import BlueprintSchema.Json.Reader

/-!
The parts of TOML text below values: blanks, line breaks, comments, strings and keys. Each function
takes what belongs to it off the text and returns it with the rest.
-/

namespace BlueprintSchema.Toml

def isGap (c : Char) : Bool := c == ' ' || c == '\t'

def isPlain (c : Char) : Bool := c == '\t' || (' ' ≤ c && c ≤ '~') || 128 ≤ c.toNat

def skipGap (s : List Char) : List Char := s.dropWhile isGap

def lineBreak? : List Char → Option (List Char)
  | '\n' :: r => some r
  | '\r' :: '\n' :: r => some r
  | _ => none

def skipComment : List Char → List Char
  | '#' :: r => r.dropWhile isPlain
  | s => s

/-- The text after what may follow at the end of a line: blanks, a comment, and the line break, or the
end of the text. -/
def endLine? (s : List Char) : Option (List Char) :=
  match skipComment (skipGap s) with
  | [] => some []
  | s => lineBreak? s

/-- The text after blanks, line breaks and comments that end in a line break. The first argument
bounds the number of lines. -/
def skipLines : Nat → List Char → List Char
  | 0, s => s
  | fuel + 1, s =>
    let s := skipGap s
    match lineBreak? (skipComment s) with
    | some r => skipLines fuel r
    | none => s

/-! ### Strings -/

def hex? : Nat → Nat → List Char → Option (Nat × List Char)
  | 0, n, s => some (n, s)
  | count + 1, n, c :: r => (Json.hexValue? c).bind fun d => hex? count (n * 16 + d) r
  | _ + 1, _, [] => none

/-- The character with a code, unless the code is that of a surrogate or too large. -/
def charOf? (n : Nat) : Option Char :=
  if n < 0xD800 || (0xE000 ≤ n && n < 0x110000) then some (Char.ofNat n) else none

def escape? : List Char → Option (Char × List Char)
  | 'b' :: r => some ('\x08', r)
  | 't' :: r => some ('\t', r)
  | 'n' :: r => some ('\n', r)
  | 'f' :: r => some ('\x0c', r)
  | 'r' :: r => some ('\r', r)
  | '"' :: r => some ('"', r)
  | '\\' :: r => some ('\\', r)
  | 'u' :: r => do
    let (n, r) ← hex? 4 0 r
    some (← charOf? n, r)
  | 'U' :: r => do
    let (n, r) ← hex? 8 0 r
    some (← charOf? n, r)
  | _ => none

/-- The rest of a string on one line after its opening quote. The first argument bounds the number of
steps. -/
def lineString? (quote : Char) : Nat → List Char → Option (List Char × List Char)
  | 0, _ => none
  | _ + 1, [] => none
  | fuel + 1, c :: r =>
    if c = quote then some ([], r)
    else if c = '\\' && quote = '"' then do
      let (d, r) ← escape? r
      (lineString? quote fuel r).map fun (cs, r) => (d :: cs, r)
    else if isPlain c then (lineString? quote fuel r).map fun (cs, r) => (c :: cs, r)
    else none

/-- The text after a backslash that ends a line, up to the next character that is neither a blank nor a
line break. -/
def continued? (s : List Char) : Option (List Char) :=
  match lineBreak? (skipGap s) with
  | some r => some (skipLinesOnly r.length r)
  | none => none
where
  skipLinesOnly : Nat → List Char → List Char
    | 0, s => s
    | fuel + 1, s =>
      match lineBreak? (skipGap s) with
      | some r => skipLinesOnly fuel r
      | none => skipGap s

/-- The rest of a string on several lines after its opening quotes. Up to two quotes may stand before
the closing ones. The first argument bounds the number of steps. -/
def blockString? (quote : Char) : Nat → List Char → Option (List Char × List Char)
  | 0, _ => none
  | _ + 1, [] => none
  | fuel + 1, c :: r =>
    if c = quote then
      let quotes := (c :: r).takeWhile (· == quote)
      let rest := (c :: r).dropWhile (· == quote)
      if quotes.length < 3 then
        (blockString? quote fuel rest).map fun (cs, r) => (quotes ++ cs, r)
      else if quotes.length ≤ 5 then some (quotes.drop 3, rest)
      else none
    else if c = '\\' && quote = '"' then
      match continued? r with
      | some r => blockString? quote fuel r
      | none => do
        let (d, r) ← escape? r
        (blockString? quote fuel r).map fun (cs, r) => (d :: cs, r)
    else
      match lineBreak? (c :: r) with
      | some r => (blockString? quote fuel r).map fun (cs, r) => ('\n' :: cs, r)
      | none =>
        if isPlain c then (blockString? quote fuel r).map fun (cs, r) => (c :: cs, r) else none

/-- A string, on one line or, after three quotes, on several; the first line break of these does not
count. -/
def string? : List Char → Option (List Char × List Char)
  | a :: b :: c :: r =>
    if a = '"' || a = '\x27' then
      if b = a && c = a then blockString? a (r.length + 1) ((lineBreak? r).getD r)
      else lineString? a (r.length + 3) (b :: c :: r)
    else none
  | a :: r => if a = '"' || a = '\x27' then lineString? a (r.length + 1) r else none
  | [] => none

/-! ### Keys -/

def inKey (c : Char) : Bool := c.isAlphanum || c == '_' || c == '-'

def simpleKey? (s : List Char) : Option (String × List Char) :=
  match s with
  | c :: r =>
    if c = '"' || c = '\x27' then
      (lineString? c (r.length + 1) r).map fun (cs, r) => (String.ofList cs, r)
    else
      let cs := s.takeWhile inKey
      if cs.isEmpty then none else some (String.ofList cs, s.dropWhile inKey)
  | [] => none

/-- The parts of a key with points between and blanks around them. The first argument bounds their
number. -/
def keyParts? : Nat → List Char → Option (List String × List Char)
  | 0, _ => none
  | fuel + 1, s => do
    let (k, r) ← simpleKey? (skipGap s)
    match skipGap r with
    | '.' :: r => (keyParts? fuel r).map fun (ks, r) => (k :: ks, r)
    | r => some ([k], r)

def maxDepth : Nat := 79

def key? (s : List Char) : Option (List String × List Char) := keyParts? maxDepth s

end BlueprintSchema.Toml
