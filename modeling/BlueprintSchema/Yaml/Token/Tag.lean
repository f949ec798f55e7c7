import BlueprintSchema.Yaml.Token
import BlueprintSchema.Yaml.Token.Scalar

/-!
Reading tags, anchors, aliases and directives.
-/

namespace BlueprintSchema.Yaml.Token

def escapedByte? : List Char → Option (Nat × List Char)
  | '%' :: a :: b :: r => do
    let a ← hexValue? a
    let b ← hexValue? b
    some (a * 16 + b, r)
  | _ => none

def escapedTail? : Nat → Nat → List Char → Option (Nat × List Char)
  | 0, v, r => some (v, r)
  | n + 1, v, r => do
    let (b, r) ← escapedByte? r
    if b / 64 = 2 then escapedTail? n (v * 64 + b % 64) r else none

def escapedChar? (s : List Char) : Option (Char × List Char) := do
  let (b, r) ← escapedByte? s
  let (v, r) ←
    if b < 0x80 then some (b, r)
    else if b / 32 = 6 then escapedTail? 1 (b % 32) r
    else if b / 16 = 14 then escapedTail? 2 (b % 16) r
    else if b / 8 = 30 then escapedTail? 3 (b % 8) r
    else none
  if v.isValidChar then some (Char.ofNat v, r) else none

/-- Whether a character may stand in a tag; inside angle brackets a few more may. -/
def isUriChar (verbatim : Bool) (c : Char) : Bool :=
  isWordChar c || [';', '/', '?', ':', '@', '&', '=', '+', '$', '.', '%', '!', '~', '*', '\'',
    '(', ')'].contains c || (verbatim && [',', '[', ']'].contains c)

def readUri (verbatim : Bool) : Nat → List Char → Cursor → Option (List Char × Cursor)
  | 0, acc, k => some (acc.reverse, k)
  | fuel + 1, acc, k =>
    match k.peek? with
    | none => some (acc.reverse, k)
    | some c =>
      if !isUriChar verbatim c then some (acc.reverse, k)
      else if c == '%' then
        match escapedChar? k.rest with
        | none => none
        | some (d, r) => readUri verbatim fuel (d :: acc) (k.skipMany (k.rest.length - r.length))
      else readUri verbatim fuel (c :: acc) k.skip

/-- Read an exclamation mark, word characters, and a second exclamation mark if there is one. -/
def readHandle (k : Cursor) : Option (List Char × Cursor) :=
  if !k.isAt 0 '!' then none
  else
    let word := k.rest.tail.takeWhile isWordChar
    let k := k.skipMany (word.length + 1)
    if k.isAt 0 '!' then some ('!' :: word ++ ['!'], k.skip) else some ('!' :: word, k)

/-- Read a tag: in angle brackets, with a handle, or local. -/
def readTag (inFlow : Bool) (k : Cursor) : Option (Token × Cursor) := do
  let (handle, suffix, k) ←
    if k.isAt 1 '<' then do
      let (suffix, k) ← readUri true (k.rest.length + 1) [] (k.skipMany 2)
      if suffix.isEmpty || !k.isAt 0 '>' then none
      else some ([], suffix, k.skip)
    else do
      let (handle, k) ← readHandle k
      if 1 < handle.length && handle.getLast? == some '!' then do
        let (suffix, k) ← readUri false (k.rest.length + 1) [] k
        if suffix.isEmpty then none else some (handle, suffix, k)
      else do
        let (more, k) ← readUri false (k.rest.length + 1) [] k
        let suffix := handle.tail ++ more
        if suffix.isEmpty then some ([], ['!'], k) else some (['!'], suffix, k)
  if k.isSpaceAt 0 || (inFlow && k.isAt 0 ',') then
    some (.tag (String.ofList handle) (String.ofList suffix), k)
  else none

def readAnchorName (k : Cursor) : Option (String × Cursor) :=
  let name := k.rest.takeWhile isWordChar
  let k := k.skipMany name.length
  if name.isEmpty then none
  else if k.isSpaceAt 0 || (k.peek?).any (['?', ':', ',', ']', '\x7d', '%', '@', '`'].contains ·)
  then some (String.ofList name, k)
  else none

def readVersionNumber (k : Cursor) : Option (Nat × Cursor) :=
  let ds := k.rest.takeWhile Char.isDigit
  if ds.isEmpty || 9 < ds.length then none
  else some (ds.foldl (fun n c => n * 10 + (c.toNat - 48)) 0, k.skipMany ds.length)

def readDirective (k : Cursor) : Option (Token × Cursor) := do
  let name := k.rest.takeWhile isWordChar
  let k := k.skipMany name.length
  if name.isEmpty || !k.isSpaceAt 0 then none
  else
    let (token, k) ←
      if name == ['Y', 'A', 'M', 'L'] then do
        let (major, k) ← readVersionNumber (k.skipWhile isBlank)
        if !k.isAt 0 '.' then none
        else do
          let (minor, k) ← readVersionNumber k.skip
          some (Token.versionDirective major minor, k)
      else if name == ['T', 'A', 'G'] then do
        let (handle, k) ← readHandle (k.skipWhile isBlank)
        if handle.getLast? != some '!' || !(k.peek?).any isBlank then none
        else do
          let k := k.skipWhile isBlank
          let (pfx, k) ← readUri true (k.rest.length + 1) [] k
          if pfx.isEmpty || !k.isSpaceAt 0 then none
          else some (Token.tagDirective (String.ofList handle) (String.ofList pfx), k)
      else none
    let k := k.skipWhile isBlank
    let k := if k.isAt 0 '#' then k.skipLineText else k
    if k.isLineEnd then some (token, k.readBreak.2) else none

end BlueprintSchema.Yaml.Token
