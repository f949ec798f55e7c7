import BlueprintSchema.Yaml.Event

/-!
The nodes of a YAML document. Aliases are replaced by the nodes that they name, within bounds on
nesting and on the number of replacements; what a scalar denotes is left open.
-/

namespace BlueprintSchema.Yaml

inductive Node
  | scalar (tag : Option String) (text : String) (plain : Bool)
  | sequence (tag : Option String) (items : List Node)
  | mapping (tag : Option String) (entries : List (Node × Node))
  deriving Inhabited

namespace Node

structure Anchors where
  numbers : List (String × Nat)
  /-- Nodes by number, the last one given a number first. -/
  nodes : List (Nat × List Event)

namespace Anchors

/-- Give the node that starts here a number: as many as there are names so far. -/
def define (a : Anchors) (name : String) (here : List Event) : Anchors :=
  let number := a.numbers.length
  ⟨(name, number) :: a.numbers.filter (fun e => e.1 != name), (number, here) :: a.nodes⟩

end Anchors

def anchorOf : Event → Option String
  | .scalar p _ _ => p.anchor
  | .sequenceStart p => p.anchor
  | .mappingStart p => p.anchor
  | _ => none

/-- Number the anchors, and list for each alias, in document order, the number that its name has where
it stands. An alias without an anchor before it is refused. -/
def numberAnchors : Anchors → List Event → Option (List Nat × Anchors)
  | a, [] => some ([], a)
  | a, .alias name :: r => do
    let n ← a.numbers.lookup name
    let (ns, a) ← numberAnchors a r
    some (n :: ns, a)
  | a, e :: r =>
    match anchorOf e with
    | some name => numberAnchors (a.define name (e :: r)) r
    | none => numberAnchors a r

inductive Step
  | alias (number : Nat)
  | scalar (tag : Option String) (text : String) (plain : Bool)
  | sequenceStart (tag : Option String)
  | sequenceEnd
  | mappingStart (tag : Option String)
  | mappingEnd

def steps : List Nat → List Event → List Step
  | _, [] => []
  | n :: ns, .alias _ :: r => .alias n :: steps ns r
  | [], .alias _ :: r => steps [] r
  | ns, .scalar p t b :: r => .scalar p.tag t b :: steps ns r
  | ns, .sequenceStart p :: r => .sequenceStart p.tag :: steps ns r
  | ns, .sequenceEnd :: r => .sequenceEnd :: steps ns r
  | ns, .mappingStart p :: r => .mappingStart p.tag :: steps ns r
  | ns, .mappingEnd :: r => .mappingEnd :: steps ns r

def maxDepth : Nat := 128

abbrev Read (α : Type) := Option (α × List Step × Nat)

mutual

/-- The node at the start of the steps. The numbers bound the calls inside one another, the nesting,
and the aliases. -/
def readNode (nodes : Nat → Option (List Step)) : Nat → Nat → Nat → List Step → Read Node
  | 0, _, _, _ => none
  | _ + 1, _, _, [] => none
  | fuel + 1, depth, jumps, .alias n :: r =>
    if jumps = 0 then none
    else
      match nodes n with
      | none => none
      | some node =>
        (readNode nodes fuel depth (jumps - 1) node).map fun (v, _, jumps) => (v, r, jumps)
  | _ + 1, _, jumps, .scalar tag text plain :: r => some (.scalar tag text plain, r, jumps)
  | fuel + 1, depth, jumps, .sequenceStart tag :: r =>
    if depth = 0 then none
    else (readItems nodes fuel (depth - 1) jumps r).map fun (vs, r) => (.sequence tag vs, r)
  | fuel + 1, depth, jumps, .mappingStart tag :: r =>
    if depth = 0 then none
    else (readEntries nodes fuel (depth - 1) jumps r).map fun (es, r) => (.mapping tag es, r)
  | _ + 1, _, _, .sequenceEnd :: _ => none
  | _ + 1, _, _, .mappingEnd :: _ => none

def readItems (nodes : Nat → Option (List Step)) : Nat → Nat → Nat → List Step → Read (List Node)
  | 0, _, _, _ => none
  | _ + 1, _, jumps, .sequenceEnd :: r => some ([], r, jumps)
  | fuel + 1, depth, jumps, r =>
    match readNode nodes fuel depth jumps r with
    | none => none
    | some (v, r, jumps) =>
      (readItems nodes fuel depth jumps r).map fun (vs, r) => (v :: vs, r)

def readEntries (nodes : Nat → Option (List Step)) :
    Nat → Nat → Nat → List Step → Read (List (Node × Node))
  | 0, _, _, _ => none
  | _ + 1, _, jumps, .mappingEnd :: r => some ([], r, jumps)
  | fuel + 1, depth, jumps, r =>
    match readNode nodes fuel depth jumps r with
    | none => none
    | some (k, r, jumps) =>
      match readNode nodes fuel depth jumps r with
      | none => none
      | some (v, r, jumps) =>
        (readEntries nodes fuel depth jumps r).map fun (es, r) => ((k, v) :: es, r)

end

/-- The node of a document given by its events; no events stand for an empty plain scalar. -/
def ofEvents? (es : List Event) : Option Node :=
  if es.isEmpty then some (.scalar none "" true)
  else do
    let (numbers, anchors) ← numberAnchors ⟨[], []⟩ es
    let all := steps numbers es
    let node (n : Nat) : Option (List Step) :=
      (anchors.nodes.lookup n).map fun from_ => all.drop (es.length - from_.length)
    let fuel := (maxDepth + 2) * (es.length + 2)
    (readNode node fuel maxDepth (100 * es.length) all).map (·.1)

def ofText? (s : String) : Option Node := do
  let tokens ← Token.ofText? s.toList
  let events ← Event.ofTokens? tokens
  ofEvents? events

end Node

end BlueprintSchema.Yaml
