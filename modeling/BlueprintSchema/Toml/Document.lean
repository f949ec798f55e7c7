import BlueprintSchema.Toml.Number
import BlueprintSchema.Toml.Table

/-!
TOML documents.
-/

namespace BlueprintSchema.Toml

mutual

/-- A value. The numbers bound the calls inside one another and the nesting of collections. -/
def value? : Nat → Nat → List Char → Option (Toml × List Char)
  | 0, _, _ => none
  | fuel + 1, depth, s =>
    match s with
    | '"' :: _ | '\x27' :: _ => (string? s).map fun (cs, r) => (.string (String.ofList cs), r)
    | '[' :: r =>
      if depth = 0 then none
      else (items? fuel (depth - 1) r).map fun (vs, r) => (.array vs, r)
    | '{' :: r =>
      if depth = 0 then none
      else
        match skipGap r with
        | '}' :: r => some (.table [], r)
        | r => (members? fuel (depth - 1) .blank r).map fun (t, r) => (t.toToml, r)
    | 't' :: 'r' :: 'u' :: 'e' :: r => some (.bool true, r)
    | 'f' :: 'a' :: 'l' :: 's' :: 'e' :: r => some (.bool false, r)
    | _ => number? s

def items? : Nat → Nat → List Char → Option (List Toml × List Char)
  | 0, _, _ => none
  | fuel + 1, depth, s =>
    match skipLines s.length s with
    | ']' :: r => some ([], r)
    | s =>
      match value? fuel depth s with
      | none => none
      | some (v, r) =>
        match skipLines r.length r with
        | ',' :: r => (items? fuel depth r).map fun (vs, r) => (v :: vs, r)
        | ']' :: r => some ([v], r)
        | _ => none

def members? : Nat → Nat → Item → List Char → Option (Item × List Char)
  | 0, _, _, _ => none
  | fuel + 1, depth, t, s =>
    match key? s with
    | some (path, '=' :: r) =>
      match value? fuel depth (skipGap r) with
      | none => none
      | some (v, r) =>
        match t.assign path v with
        | none => none
        | some t =>
          match skipGap r with
          | ',' :: r => members? fuel depth t r
          | '}' :: r => some (t, r)
          | _ => none
    | _ => none

end

/-- The document with its next line read, the header that holds from then on, and the rest. -/
def line? (t : Item) (header : List String) (s : List Char) :
    Option (Item × List String × List Char) := do
  match skipGap s with
  | '[' :: '[' :: r =>
    let (path, r) ← key? r
    match r with
    | ']' :: ']' :: r => some (← t.beginRow path, path, ← endLine? r)
    | _ => none
  | '[' :: r =>
    let (path, r) ← key? r
    match r with
    | ']' :: r => some (← t.beginTable path, path, ← endLine? r)
    | _ => none
  | s =>
    match endLine? s with
    | some r => some (t, header, r)
    | none =>
      let (path, r) ← key? s
      match r with
      | '=' :: r =>
        let (v, r) ← value? (s.length + 1) maxDepth (skipGap r)
        some (← t.assignAt header path v, header, ← endLine? r)
      | _ => none

def lines? : Nat → Item → List String → List Char → Option Item
  | _, t, _, [] => some t
  | 0, _, _, _ => none
  | fuel + 1, t, header, s => do
    let (t, header, r) ← line? t header s
    lines? fuel t header r

def parse? (s : String) : Option Toml :=
  let cs := match s.toList with
    | '\ufeff' :: r => r
    | cs => cs
  (lines? (cs.length + 1) .blank [] cs).map Item.toToml

end BlueprintSchema.Toml
