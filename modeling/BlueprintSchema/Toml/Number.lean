import BlueprintSchema.Binary64.Decimal
import BlueprintSchema.Toml
import BlueprintSchema.Toml.Text

/-!
Numbers, dates and times in TOML.
-/

namespace BlueprintSchema.Toml

def digits? (isDigit : Char → Bool) : List Char → Option (List Char × List Char)
  | [] => none
  | c :: r => if isDigit c then some (go [c] r) else none
where
  go (taken : List Char) : List Char → List Char × List Char
    | [] => (taken.reverse, [])
    | [c] => if isDigit c then ((c :: taken).reverse, []) else (taken.reverse, [c])
    | c :: d :: r =>
      if isDigit c then go (c :: taken) (d :: r)
      else if c = '_' && isDigit d then go (d :: taken) r
      else (taken.reverse, c :: d :: r)

def sign (s : List Char) : List Char × List Char :=
  match s with
  | '+' :: r => (['+'], r)
  | '-' :: r => (['-'], r)
  | _ => ([], s)

/-- The digits of a decimal integer; a zero at the start stands alone. -/
def wholePart? : List Char → Option (List Char × List Char)
  | '0' :: r => some (['0'], r)
  | s => digits? Char.isDigit s

def fraction? : List Char → Option (List Char × List Char)
  | '.' :: r => (digits? Char.isDigit r).map fun (ds, r) => ('.' :: ds, r)
  | _ => none

def exponent? : List Char → Option (List Char × List Char)
  | c :: r =>
    if c = 'e' || c = 'E' then
      let (sg, r) := sign r
      (digits? Char.isDigit r).map fun (ds, r) => ('e' :: sg ++ ds, r)
    else none
  | [] => none

/-- A finite number with a fraction or an exponent. One that is too large is refused, unless it is
negative. -/
def float? (s : List Char) : Option (Toml × List Char) := do
  let (sg, r) := sign s
  let (ws, r) ← wholePart? r
  let (fs, r) ← match fraction? r with
    | some (fs, r) => match exponent? r with
      | some (es, r) => some (fs ++ es, r)
      | none => some (fs, r)
    | none => exponent? r
  let x ← Binary64.ofText? (sg ++ ws ++ fs)
  if x.isFinite || x.isNegative then some (.float x, r) else none

def special? (s : List Char) : Option (Toml × List Char) :=
  let (sg, r) := sign s
  match r with
  | 'i' :: 'n' :: 'f' :: r => some (.float (.infinity (sg == ['-'])), r)
  | 'n' :: 'a' :: 'n' :: r => some (.float .nan, r)
  | _ => none

def ofDigits (radix : Nat) (ds : List Char) : Nat :=
  ds.foldl (fun n c => n * radix + (Json.hexValue? c).getD 0) 0

/-- An integer of 64 bits, in decimal with an optional sign or behind a mark for its radix. -/
def integer? (s : List Char) : Option (Toml × List Char) := do
  let isHex := fun c => (Json.hexValue? c).isSome
  let isOctal := fun c : Char => '0' ≤ c && c ≤ '7'
  let isBinary := fun c : Char => c == '0' || c == '1'
  let (n, r) ← match s with
    | '0' :: 'x' :: r => (digits? isHex r).map fun (ds, r) => ((ofDigits 16 ds : Int), r)
    | '0' :: 'o' :: r => (digits? isOctal r).map fun (ds, r) => ((ofDigits 8 ds : Int), r)
    | '0' :: 'b' :: r => (digits? isBinary r).map fun (ds, r) => ((ofDigits 2 ds : Int), r)
    | _ =>
      let (sg, r) := sign s
      (wholePart? r).map fun (ds, r) =>
        (if sg = ['-'] then -(ofDigits 10 ds : Int) else ofDigits 10 ds, r)
  if Binary64.int64Min ≤ n && n ≤ Binary64.int64Max then some (.int n, r) else none

/-! ### Dates and times -/

/-- The value of exactly so many decimal digits that lies within bounds, their text, and the rest. -/
def field? (count low high : Nat) (s : List Char) : Option (List Char × List Char) :=
  let ds := s.take count
  let n := ofDigits 10 ds
  if ds.length = count && ds.all Char.isDigit && low ≤ n && n ≤ high then some (ds, s.drop count)
  else none

def after? (c : Char) : List Char → Option (List Char)
  | d :: r => if d = c then some r else none
  | [] => none

def daysIn (year month : Nat) : Nat :=
  if month = 2 then
    if year % 4 = 0 && (year % 100 ≠ 0 || year % 400 = 0) then 29 else 28
  else if [4, 6, 9, 11].contains month then 30
  else 31

def date? (s : List Char) : Option (List Char × List Char) := do
  let (year, r) ← field? 4 0 9999 s
  let (month, r) ← field? 2 1 12 (← after? '-' r)
  let (day, r) ← field? 2 1 (daysIn (ofDigits 10 year) (ofDigits 10 month)) (← after? '-' r)
  some (year ++ ['-'] ++ month ++ ['-'] ++ day, r)

/-- A time. Of a fraction of a second nine digits count, and zeros at its end are left out. -/
def time? (s : List Char) : Option (List Char × List Char) := do
  let (hour, r) ← field? 2 0 23 s
  let (minute, r) ← field? 2 0 59 (← after? ':' r)
  let (second, r) ← field? 2 0 60 (← after? ':' r)
  let text := hour ++ [':'] ++ minute ++ [':'] ++ second
  match r with
  | '.' :: c :: r' =>
    if c.isDigit then
      let ds := (c :: r').takeWhile Char.isDigit
      let shown := ((ds.take 9).reverse.dropWhile (· == '0')).reverse
      some (if shown.isEmpty then text else text ++ ['.'] ++ shown, (c :: r').dropWhile Char.isDigit)
    else some (text, r)
  | _ => some (text, r)

def offset? : List Char → Option (List Char × List Char)
  | 'Z' :: r | 'z' :: r => some (['Z'], r)
  | c :: r =>
    if c = '+' || c = '-' then do
      let (hour, r) ← field? 2 0 23 r
      let (minute, r) ← field? 2 0 59 (← after? ':' r)
      some ((if hour ++ minute = ['0', '0', '0', '0'] then '+' else c) :: hour ++ [':'] ++ minute, r)
    else none
  | [] => none

def datetime? (s : List Char) : Option (Toml × List Char) :=
  let made (text r : List Char) : Option (Toml × List Char) :=
    some (.datetime (String.ofList text), r)
  match date? s with
  | none => (time? s).bind fun (text, r) => made text r
  | some (date, r) =>
    match r with
    | c :: r' =>
      if c = 'T' || c = 't' || c = ' ' then
        match time? r' with
        | none => made date r
        | some (time, r) =>
          let text := date ++ ['T'] ++ time
          match offset? r with
          | some (offset, r) => made (text ++ offset) r
          | none => made text r
      else made date r
    | [] => made date r

def number? (s : List Char) : Option (Toml × List Char) :=
  datetime? s <|> float? s <|> special? s <|> integer? s

end BlueprintSchema.Toml
