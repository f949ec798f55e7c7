import BlueprintSchema.Script.Rule

/-!
Numbers in scripts. Underscores may stand between digits, and the longest reading is taken.
-/

namespace BlueprintSchema.Script.Number

/-- How many characters the digits of a class at the start of the text take, underscores between them
included. -/
def run (isDigit : Char → Bool) : List Char → Nat
  | [] => 0
  | [c] => if isDigit c then 1 else 0
  | '_' :: c :: r => if isDigit c then 1 + run isDigit (c :: r) else 0
  | c :: d :: r => if isDigit c then 1 + run isDigit (d :: r) else 0

def digits (isDigit : Char → Bool) (s : List Char) : Nat :=
  if s.head?.any isDigit then run isDigit s else 0

def exponent : List Char → Nat
  | c :: r =>
    if c = 'e' || c = 'E' then
      let signs := if r.head?.any fun c => c == '+' || c == '-' then 1 else 0
      match digits Char.isDigit (r.drop signs) with
      | 0 => 0
      | n => 1 + signs + n
    else 0
  | [] => 0

def fractional (s : List Char) : Nat :=
  let whole := digits Char.isDigit s
  match s.drop whole with
  | '.' :: r =>
    let part := digits Char.isDigit r
    if whole + part = 0 then 0 else whole + 1 + part + exponent (r.drop part)
  | r =>
    match exponent r with
    | 0 => 0
    | n => if whole = 0 then 0 else whole + n

def whole : List Char → Nat
  | '0' :: c :: r =>
    let radix (isDigit : Char → Bool) : Nat := match digits isDigit r with
      | 0 => 1
      | n => n + 2
    let octal := fun d : Char => '0' ≤ d && d ≤ '7'
    if c = 'x' || c = 'X' then
      radix fun d => d.isDigit || ('a' ≤ d && d ≤ 'f') || ('A' ≤ d && d ≤ 'F')
    else if c = 'b' || c = 'B' then radix fun d => d == '0' || d == '1'
    else if c = 'o' || c = 'O' then max (radix octal) 2
    else 1 + run octal (c :: r)
  | s => digits Char.isDigit s

def take? (s : List Char) : Option (List Char × List Char) :=
  match max (fractional s) (whole s) with
  | 0 => none
  | n => some (s.take n, s.drop n)

end BlueprintSchema.Script.Number
