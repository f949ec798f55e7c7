import BlueprintSchema.Yaml.Cursor

/-!
Reading the three kinds of scalar: plain, quoted and block. Lines inside a scalar are folded as its
kind demands.
-/

namespace BlueprintSchema.Yaml.Token

/-- Blanks and breaks met between two words of a scalar. Breaks are kept with the first apart from
the others; blanks are kept as long as no break has been met, and passed over afterwards. -/
structure Gap where
  broken : Bool
  blanks : List Char
  first : List Char
  others : List Char

namespace Gap

def none : Gap := ⟨false, [], [], []⟩

/-- What a gap stands for in the value: its blanks; or one space for a single line feed; or its
breaks, without the first if that is a line feed. -/
def fold (g : Gap) : List Char :=
  if g.broken then
    if g.first == ['\n'] then (if g.others.isEmpty then [' '] else g.others)
    else g.first ++ g.others
  else g.blanks

end Gap

/-- Read blanks and breaks. In a plain scalar a tab in the indentation is refused; `indent` is `none`
for a quoted scalar. The number bounds the steps. -/
def readGap (indent : Option Int) : Nat → Gap → Cursor → Option (Gap × Cursor)
  | 0, g, k => some (g, k)
  | fuel + 1, g, k =>
    match k.peek? with
    | some c =>
      if isBlank c then
        if g.broken && c == '\t' && indent.any (fun n => (k.column : Int) < n) then Option.none
        else if g.broken then readGap indent fuel g k.skip
        else readGap indent fuel { g with blanks := g.blanks ++ [c] } k.skip
      else if isBreak c then
        let (b, k) := k.readBreak
        if g.broken then readGap indent fuel { g with others := g.others ++ b } k
        else readGap indent fuel { g with broken := true, blanks := [], first := b } k
      else some (g, k)
    | Option.none => some (g, k)

/-- Whether a character is a bracket, a brace or a comma, which end a plain scalar inside a flow
collection. -/
def isFlowMark (c : Char) : Bool :=
  c == ',' || c == '[' || c == ']' || c == '\x7b' || c == '\x7d'

/-- Read one run of a plain scalar up to a blank, a break or an indicator; characters are collected
in reverse. Inside a flow collection a colon before a flow mark is refused. -/
def readPlainRun (inFlow : Bool) : Nat → List Char → Cursor → Option (List Char × Cursor)
  | 0, acc, k => some (acc, k)
  | fuel + 1, acc, k =>
    match k.peek? with
    | Option.none => some (acc, k)
    | some c =>
      if isBlank c || isBreak c then some (acc, k)
      else if inFlow && c == ':' && (k.peekAt? 1).any (fun d => isFlowMark d || d == '?') then
        Option.none
      else if (c == ':' && k.isSpaceAt 1) || (inFlow && isFlowMark c) then some (acc, k)
      else readPlainRun inFlow fuel (c :: acc) k.skip

/-- Read a plain scalar that continues after the gap `g`; `acc` holds what was read, in reverse. The
answer is the value in reverse, whether it ended after a break, and the place after it. -/
def readPlain (inFlow : Bool) (indent : Int) :
    Nat → Gap → List Char → Cursor → Option (List Char × Bool × Cursor)
  | 0, g, acc, k => some (acc, g.broken, k)
  | fuel + 1, g, acc, k =>
    if k.isMarker '-' || k.isMarker '.' || k.isAt 0 '#' then some (acc, g.broken, k)
    else
      match readPlainRun inFlow (k.rest.length + 1) [] k with
      | Option.none => Option.none
      | some (run, k) =>
        let (acc, g) := if run.isEmpty then (acc, g) else (run ++ g.fold.reverse ++ acc, Gap.none)
        if (k.peek?).any (fun c => isBlank c || isBreak c) then
          match readGap (some indent) (k.rest.length + 1) g k with
          | Option.none => Option.none
          | some (g, k) =>
            if !inFlow && (k.column : Int) < indent then some (acc, g.broken, k)
            else readPlain inFlow indent fuel g acc k
        else some (acc, g.broken, k)

def hexValue? (c : Char) : Option Nat :=
  if '0' ≤ c && c ≤ '9' then some (c.toNat - 48)
  else if 'a' ≤ c && c ≤ 'f' then some (c.toNat - 87)
  else if 'A' ≤ c && c ≤ 'F' then some (c.toNat - 55)
  else Option.none

def hexNumber? (n : Nat) (s : List Char) : Option Nat :=
  let ds := s.take n
  if ds.length < n then Option.none
  else ds.foldlM (fun v c => (hexValue? c).map (v * 16 + ·)) 0

/-- The character of an escape in a double-quoted scalar, from the text after the backslash, with the
number of characters that it takes there. -/
def escape? : List Char → Option (Char × Nat)
  | [] => Option.none
  | c :: r =>
    let code (n : Nat) : Option (Char × Nat) := do
      let v ← hexNumber? n r
      if (0xD800 ≤ v && v ≤ 0xDFFF) || 0x10FFFF < v then Option.none
      else some (Char.ofNat v, n + 1)
    match c with
    | '0' => some ('\x00', 1)
    | 'a' => some ('\x07', 1)
    | 'b' => some ('\x08', 1)
    | 't' => some ('\t', 1)
    | '\t' => some ('\t', 1)
    | 'n' => some ('\n', 1)
    | 'v' => some ('\x0b', 1)
    | 'f' => some ('\x0c', 1)
    | 'r' => some ('\r', 1)
    | 'e' => some ('\x1b', 1)
    | ' ' => some (' ', 1)
    | '"' => some ('"', 1)
    | '/' => some ('/', 1)
    | '\\' => some ('\\', 1)
    | 'N' => some ('\x85', 1)
    | '_' => some ('\xa0', 1)
    | 'L' => some ('\u2028', 1)
    | 'P' => some ('\u2029', 1)
    | 'x' => code 2
    | 'u' => code 4
    | 'U' => code 8
    | _ => Option.none

/-- Read one run of a quoted scalar up to a blank, a break, the closing quote, or an escaped break;
the flag of the answer tells whether it was the last of these, which is then behind. -/
def readQuotedRun (single : Bool) : Nat → List Char → Cursor → Option (List Char × Bool × Cursor)
  | 0, acc, k => some (acc, false, k)
  | fuel + 1, acc, k =>
    match k.peek? with
    | Option.none => some (acc, false, k)
    | some c =>
      if isBlank c || isBreak c then some (acc, false, k)
      else if single && c == '\'' then
        if k.isAt 1 '\'' then readQuotedRun single fuel ('\'' :: acc) (k.skipMany 2)
        else some (acc, false, k)
      else if !single && c == '"' then some (acc, false, k)
      else if !single && c == '\\' then
        if (k.peekAt? 1).any isBreak then some (acc, true, k.skip.readBreak.2)
        else
          match escape? k.rest.tail with
          | Option.none => Option.none
          | some (d, n) => readQuotedRun single fuel (d :: acc) (k.skipMany (n + 1))
      else readQuotedRun single fuel (c :: acc) k.skip

def readQuoted (single : Bool) : Nat → List Char → Cursor → Option (List Char × Cursor)
  | 0, _, _ => Option.none
  | fuel + 1, acc, k =>
    if k.isMarker '-' || k.isMarker '.' || k.isEnd then Option.none
    else
      match readQuotedRun single (k.rest.length + 1) acc k with
      | Option.none => Option.none
      | some (acc, escapedBreak, k) =>
        if k.isAt 0 (if single then '\'' else '"') then some (acc, k.skip)
        else
          let g : Gap := ⟨escapedBreak, [], [], []⟩
          match readGap Option.none (k.rest.length + 1) g k with
          | Option.none => Option.none
          | some (g, k) => readQuoted single fuel (g.fold.reverse ++ acc) k

inductive Chomping
  | strip
  | clip
  | keep
  deriving DecidableEq

/-- Read the indicators after `|` or `>`: chomping and indentation, in either order. -/
def readBlockHeader (k : Cursor) : Option (Chomping × Nat × Cursor) :=
  let chomp? (k : Cursor) : Option Chomping :=
    if k.isAt 0 '+' then some .keep else if k.isAt 0 '-' then some .strip else Option.none
  let digit? (k : Cursor) : Option Nat :=
    (k.peek?).bind fun c => if c.isDigit then some (c.toNat - 48) else Option.none
  match chomp? k with
  | some chomping =>
    match digit? k.skip with
    | some 0 => Option.none
    | some n => some (chomping, n, k.skipMany 2)
    | Option.none => some (chomping, 0, k.skip)
  | Option.none =>
    match digit? k with
    | some 0 => Option.none
    | some n =>
      match chomp? k.skip with
      | some chomping => some (chomping, n, k.skipMany 2)
      | Option.none => some (.clip, n, k.skip)
    | Option.none => some (.clip, 0, k)

/-- Read indentation and empty lines in a block scalar. An `indent` of 0 is not known yet. The answer
holds the breaks in reverse and the greatest column met. A tab in the indentation is refused. -/
def readBlockBreaks (indent : Nat) :
    Nat → Nat → List Char → Cursor → Option (List Char × Nat × Cursor)
  | 0, deepest, acc, k => some (acc, deepest, k)
  | fuel + 1, deepest, acc, k =>
    let spaces := (k.rest.takeWhile (· == ' ')).length
    let k := k.skipMany (if indent = 0 then spaces else min spaces (indent - k.column))
    let deepest := max deepest k.column
    if (indent = 0 || k.column < indent) && k.isAt 0 '\t' then Option.none
    else if (k.peek?).any isBreak then
      let (b, k) := k.readBreak
      readBlockBreaks indent fuel deepest (b.reverse ++ acc) k
    else some (acc, deepest, k)

/-- Read the lines of a block scalar. All texts are in reverse: `acc` is the value so far, `last` the
break that ended the last line, and `breaks` the empty lines after it. -/
def readBlockLines (literal : Bool) (indent : Nat) :
    Nat → Bool → List Char → List Char → List Char → Cursor →
      Option (List Char × List Char × List Char × Cursor)
  | 0, _, acc, last, breaks, k => some (acc, last, breaks, k)
  | fuel + 1, blankBefore, acc, last, breaks, k =>
    if k.column ≠ indent || k.isEnd then some (acc, last, breaks, k)
    else
      let blankNow := (k.peek?).any isBlank
      let acc :=
        if !literal && last == ['\n'] && !blankBefore && !blankNow then
          if breaks.isEmpty then ' ' :: acc else acc
        else last ++ acc
      let acc := breaks ++ acc
      let line := k.rest.takeWhile (fun c => !isBreak c)
      let k := k.skipLineText
      let (b, k) := k.readBreak
      match readBlockBreaks indent (k.rest.length + 1) 0 [] k with
      | Option.none => Option.none
      | some (breaks, _, k) =>
        readBlockLines literal indent fuel blankNow (line.reverse ++ acc) b.reverse breaks k

/-- Read a block scalar after its `|` or `>`: the value, and the place after it. The indentation
around it is `outer`, negative at the top. -/
def readBlock (literal : Bool) (outer : Int) (k : Cursor) : Option (List Char × Cursor) := do
  let (chomping, increment, k) ← readBlockHeader k
  let k := k.skipWhile isBlank
  let k := if k.isAt 0 '#' then k.skipLineText else k
  if !k.isLineEnd then Option.none
  else
    let k := k.readBreak.2
    let given : Nat :=
      if increment = 0 then 0 else if 0 ≤ outer then outer.toNat + increment else increment
    let (breaks, deepest, k) ← readBlockBreaks given (k.rest.length + 1) 0 [] k
    let indent := if given = 0 then max (max deepest (outer + 1).toNat) 1 else given
    let (acc, last, breaks, k) ← readBlockLines literal indent (k.rest.length + 1) false [] [] breaks k
    let acc := if chomping = .strip then acc else last ++ acc
    let acc := if chomping = .keep then breaks ++ acc else acc
    some (acc.reverse, k)

end BlueprintSchema.Yaml.Token
