import BlueprintSchema.Script.Tree

/-!
Reading the trivia in front of a token. Each function takes what belongs to it off the text and
returns it with the rest.
-/

namespace BlueprintSchema.Script.Trivia

def isBlank (c : Char) : Bool :=
  c == ' ' || ('\t' ≤ c && c ≤ '\r') || c == '\u00a0' || c == '\u200b' || c == '\u2060' || c == '\ufeff'

def blockEnd? : List Char → Option (List Char × List Char)
  | [] => none
  | '*' :: '/' :: r => some (['*', '/'], r)
  | c :: r => (blockEnd? r).map fun (s, r) => (c :: s, r)

/-- The rest of a line comment. It ends before the line break or before `?>`; a question mark takes
the character after it along, so that the last two of `??>` are part of the comment. -/
def lineEnd : List Char → List Char × List Char
  | [] => ([], [])
  | '?' :: '\n' :: r => (['?', '\n'], r)
  | '?' :: '\r' :: '\n' :: r => (['?', '\r', '\n'], r)
  | '?' :: c :: r =>
    if c = '>' || c = '\r' then ([], '?' :: c :: r)
    else
      let (s, r) := lineEnd r
      ('?' :: c :: s, r)
  | c :: r =>
    if c = '\n' || c = '\r' || c = '?' then ([], c :: r)
    else
      let (s, r) := lineEnd r
      (c :: s, r)

/-- A comment at the start of the text. `#[` opens an attribute and is none. -/
def comment? : List Char → Option (List Char × List Char)
  | '/' :: '*' :: r => (blockEnd? r).map fun (s, r) => ('/' :: '*' :: s, r)
  | '/' :: '/' :: r =>
    let (s, r) := lineEnd r
    some ('/' :: '/' :: s, r)
  | '#' :: '[' :: _ => none
  | '#' :: '?' :: r => some (['#'], '?' :: r)
  | '#' :: r =>
    let (s, r) := lineEnd r
    some ('#' :: s, r)
  | _ => none

/-- An opening tag at the start of the text: `<?`, `<?=`, or `<?php` in any case. -/
def openingTag? : List Char → Option (List Char × List Char)
  | '<' :: '?' :: '=' :: r => some (['<', '?', '='], r)
  | '<' :: '?' :: p :: h :: q :: r =>
    if [p, h, q].map Char.toLower = ['p', 'h', 'p'] then some (['<', '?', p, h, q], r)
    else some (['<', '?'], p :: h :: q :: r)
  | '<' :: '?' :: r => some (['<', '?'], r)
  | _ => none

/-- The text up to and including the next opening tag; all of it if there is none. -/
def markupEnd : List Char → List Char × List Char
  | [] => ([], [])
  | c :: r =>
    match openingTag? (c :: r) with
    | some tagged => tagged
    | none =>
      let (s, r) := markupEnd r
      (c :: s, r)

/-- Trivia before the next token, and the rest. Markup between a closing and an opening tag is
trivia where `tags` says so. The first argument bounds the number of pieces. -/
def read (tags : Bool) : Nat → List Char → List Trivia × List Char
  | 0, s => ([], s)
  | fuel + 1, s =>
    let blanks := s.takeWhile isBlank
    if blanks.isEmpty then
      match comment? s with
      | some (text, r) =>
        let (ts, r) := read tags fuel r
        (.comment text :: ts, r)
      | none =>
        match s with
        | '?' :: '>' :: r =>
          if tags then
            let (text, r) := markupEnd r
            let (ts, r) := read tags fuel r
            (.markup ('?' :: '>' :: text) :: ts, r)
          else ([], s)
        | _ => ([], s)
    else
      let (ts, r) := read tags fuel (s.dropWhile isBlank)
      (.blank blanks :: ts, r)

def before (s : List Char) : List Trivia × List Char := read true s.length s

def beforeTag (s : List Char) : List Trivia × List Char := read false s.length s

end BlueprintSchema.Script.Trivia
