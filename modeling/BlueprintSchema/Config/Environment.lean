import BlueprintSchema.Config.Setting
import BlueprintSchema.Text.Basic
import BlueprintSchema.Text.Blank
import BlueprintSchema.Text.Case
import BlueprintSchema.Toml.Text

/-!
Settings in environment variables. The name behind the prefix is the key, with `__` or a point between
the parts of a nested one; the value is read as a truth value, a number, a quoted string, a list or a
table where it has that form, and else stands for its own text.
-/

namespace BlueprintSchema.Environment

def namePrefix : String := "STATAMIC_SCHEMA_"

/-! ### Values -/

def isSpace (c : Char) : Bool := c == ' ' || c == '\t' || c == '\n' || c == '\r' || c == '\x0c'

def isBare (c : Char) : Bool := !(c == ',' || c == '{' || c == '}' || c == '[' || c == ']')

def inKey (c : Char) : Bool := c.isAlphanum || c == '_' || c == '-'

/-- The characters up to a double quote that no backslash escapes, and what follows the quote. -/
def quotedBody? : List Char → Option (List Char × List Char)
  | [] => none
  | '"' :: r => some ([], r)
  | '\\' :: c :: r => (quotedBody? r).map fun (cs, r) => ('\\' :: c :: cs, r)
  | c :: r => (quotedBody? r).map fun (cs, r) => (c :: cs, r)

/-- The text that characters between quotes stand for. The first argument bounds the number of
steps. -/
def unescape? : Nat → List Char → Option (List Char)
  | _, [] => some []
  | 0, _ => none
  | fuel + 1, '\\' :: r => do
    let (c, r) ← Toml.escape? r
    (unescape? fuel r).map (c :: ·)
  | fuel + 1, c :: r => if Toml.isPlain c then (unescape? fuel r).map (c :: ·) else none

def quoted? : List Char → Option (String × List Char)
  | '"' :: r => do
    let (body, r) ← quotedBody? r
    some (String.ofList (← unescape? body.length body), r)
  | _ => none

/-- The number of digits that may follow a sign; none if there are no digits or others stand among
them. -/
def nat? (s : List Char) : Option Nat :=
  if s.isEmpty || !s.all Char.isDigit then none else some (Binary64.natOfDigits s)

/-- An integer of 64 bits. A minus sign makes it signed. -/
def integer? : List Char → Option Setting
  | '-' :: r => (nat? r).bind fun n => if n ≤ Binary64.twoTo 63 then some (.signed (-n)) else none
  | s =>
    let r := match s with
      | '+' :: r => r
      | r => r
    (nat? r).bind fun n => if n < Binary64.twoTo 64 then some (.unsigned n) else none

def bare (s : List Char) : Setting :=
  let s := Text.trimChars s
  let float := if s.contains '.' then Binary64.ofText? s else none
  match float with
  | some x => .float x
  | none => (integer? s).getD (.string (String.ofList s))

def after? (word s : List Char) : Option (List Char) :=
  if word.isPrefixOf s then some (s.drop word.length) else none

mutual

/-- A value, and what follows it. The first argument bounds the calls inside one another. -/
def value? : Nat → List Char → Option (Setting × List Char)
  | 0, _ => none
  | fuel + 1, s =>
    let s := s.dropWhile isSpace
    let found : Option (Setting × List Char) :=
      match after? ['t', 'r', 'u', 'e'] s, after? ['f', 'a', 'l', 's', 'e'] s with
      | some r, _ => some (.bool true, r)
      | _, some r => some (.bool false, r)
      | none, none =>
        match s with
        | '{' :: r => (entries? fuel r).map fun (es, r) => (.ofEntries es, r)
        | '[' :: r => (items? fuel r).map fun (vs, r) => (.list vs, r)
        | '"' :: _ => (quoted? s).map fun (text, r) => (.string text, r)
        | '\x27' :: c :: '\x27' :: r => some (.char c, r)
        | '\x27' :: _ => none
        | s => some (bare (s.takeWhile isBare), s.dropWhile isBare)
    found.map fun (v, r) => (v, r.dropWhile isSpace)

def items? : Nat → List Char → Option (List Setting × List Char)
  | 0, _ => none
  | fuel + 1, s =>
    match s with
    | ']' :: r => some ([], r)
    | s =>
      match value? fuel s with
      | some (v, ',' :: r) => (items? fuel r).map fun (vs, r) => (v :: vs, r)
      | some (v, ']' :: r) => some ([v], r)
      | _ => none

def entries? : Nat → List Char → Option (List (String × Setting) × List Char)
  | 0, _ => none
  | fuel + 1, s =>
    match s with
    | '}' :: r => some ([], r)
    | s =>
      match key? (s.dropWhile isSpace) with
      | some (k, '=' :: r) =>
        match value? fuel (r.dropWhile isSpace) with
        | some (v, ',' :: r) => (entries? fuel r).map fun (es, r) => ((k, v) :: es, r)
        | some (v, '}' :: r) => some ([(k, v)], r)
        | _ => none
      | _ => none
where
  key? (s : List Char) : Option (String × List Char) :=
    match s with
    | '"' :: _ => (quoted? s).map fun (k, r) => (k, r.dropWhile isSpace)
    | _ =>
      let k := s.takeWhile inKey
      if k.isEmpty then none
      else some (String.ofList k, (s.dropWhile inKey).dropWhile isSpace)

end

def settingOf (value : String) : Setting :=
  let s := value.toList
  match value? (2 * s.length + 2) s with
  | some (v, []) => v
  | _ => .string value

/-! ### Names -/

/-- The text with `__` replaced by a point, from the left. -/
def withPoints : List Char → List Char
  | [] => []
  | '_' :: '_' :: r => '.' :: withPoints r
  | c :: r => c :: withPoints r

/-- The keys that a variable sets, from the outermost in; none if its name does not start with the
prefix, in any letter case, or a key is empty. -/
def keys? (name : String) : Option (List String) :=
  let cs := Text.trimChars name.toList
  let front := cs.take namePrefix.length
  if front.map Char.toLower = namePrefix.toList.map Char.toLower then
    let rest := Text.lower (String.ofList (cs.drop namePrefix.length))
    let keys := Text.splitAtChar '.' (Text.trimChars (withPoints rest.toList))
    if keys.any List.isEmpty then none else some (keys.map String.ofList)
  else none

def nested (keys : List String) (v : Setting) : Setting :=
  keys.foldr (fun k v => .table [(k, v)]) v

def settings (env : List (String × String)) : Setting :=
  env.foldl (fun t (name, value) =>
    match keys? name with
    | some keys => t.merge (nested keys (settingOf value))
    | none => t) (.table [])

/-- Variables with one set: in the place of the one of that name, or as the last. -/
def set (env : List (String × String)) (name value : String) : List (String × String) :=
  if env.any (·.1 == name) then
    env.map fun v => if v.1 == name then (name, value) else v
  else env ++ [(name, value)]

end BlueprintSchema.Environment
