import BlueprintSchema.Yaml.Token.Lexer

/-!
The events of a YAML document: its nodes in document order, with the ends of its collections. Tags
are given in full.
-/

namespace BlueprintSchema.Yaml

structure Properties where
  anchor : Option String
  tag : Option String
  deriving DecidableEq, Repr, Inhabited

inductive Event
  | alias (name : String)
  | scalar (properties : Properties) (text : String) (plain : Bool)
  | sequenceStart (properties : Properties)
  | sequenceEnd
  | mappingStart (properties : Properties)
  | mappingEnd
  deriving DecidableEq, Repr, Inhabited

namespace Event

/-- An absent node, which stands for an empty plain scalar. -/
def empty : Event := scalar ⟨none, none⟩ "" true

abbrev Handles := List (String × String)

/-- The handles that every document has, unless its directives give them another meaning. -/
def standardHandles : Handles := [("!", "!"), ("!!", "tag:yaml.org,2002:")]

def fullTag? (handles : Handles) (handle suffix : String) : Option String :=
  if handle.isEmpty then some suffix else (handles.lookup handle).map (· ++ suffix)

/-- The anchor and the tag in front of a node, in either order, and the tokens after them. -/
def readProperties (handles : Handles) : List Token → Option (Properties × List Token)
  | .anchor a :: .tag h s :: r => (fullTag? handles h s).map fun t => (⟨some a, some t⟩, r)
  | .anchor a :: r => some (⟨some a, none⟩, r)
  | .tag h s :: .anchor a :: r => (fullTag? handles h s).map fun t => (⟨some a, some t⟩, r)
  | .tag h s :: r => (fullTag? handles h s).map fun t => (⟨none, some t⟩, r)
  | r => some (⟨none, none⟩, r)

inductive Place
  | flow
  | block
  /-- In a block mapping, where a sequence may stand without indentation. -/
  | blockMapping
  deriving DecidableEq

abbrev Read := Option (List Event × List Token)

mutual

/-- Read a node. A tag of the lone mark stays on it, on a scalar as on a collection. The number bounds
the steps, here and below. -/
def readNode (handles : Handles) : Nat → Place → List Token → Read
  | 0, _, _ => none
  | _ + 1, _, .alias name :: r => some ([.alias name], r)
  | fuel + 1, place, ts =>
    match readProperties handles ts with
    | none => none
    | some (p, ts) =>
      match ts with
      | .scalar text plain :: r => some ([.scalar p text plain], r)
      | .flowSequenceStart :: r =>
        (readFlowItems handles fuel true r).map fun (es, r) => (.sequenceStart p :: es, r)
      | .flowMappingStart :: r =>
        (readFlowEntries handles fuel true r).map fun (es, r) => (.mappingStart p :: es, r)
      | .blockEntry :: _ =>
        if place = .blockMapping then
          (readPlainItems handles fuel ts).map fun (es, r) => (.sequenceStart p :: es, r)
        else if p.anchor.isSome || p.tag.isSome then some ([.scalar p "" true], ts)
        else none
      | .blockSequenceStart :: r =>
        if place ≠ .flow then
          (readBlockItems handles fuel r).map fun (es, r) => (.sequenceStart p :: es, r)
        else if p.anchor.isSome || p.tag.isSome then some ([.scalar p "" true], ts)
        else none
      | .blockMappingStart :: r =>
        if place ≠ .flow then
          (readBlockKeys handles fuel r).map fun (es, r) => (.mappingStart p :: es, r)
        else if p.anchor.isSome || p.tag.isSome then some ([.scalar p "" true], ts)
        else none
      | _ => if p.anchor.isSome || p.tag.isSome then some ([.scalar p "" true], ts) else none

def readBlockItems (handles : Handles) : Nat → List Token → Read
  | 0, _ => none
  | fuel + 1, .blockEntry :: r =>
    let item := match r with
      | .blockEntry :: _ => some ([Event.empty], r)
      | .blockEnd :: _ => some ([Event.empty], r)
      | _ => readNode handles fuel .block r
    match item with
    | none => none
    | some (es, r) => (readBlockItems handles fuel r).map fun (more, r) => (es ++ more, r)
  | _ + 1, .blockEnd :: r => some ([.sequenceEnd], r)
  | _ + 1, _ => none

/-- Read the items of a block sequence that stands without indentation in a mapping. -/
def readPlainItems (handles : Handles) : Nat → List Token → Read
  | 0, _ => none
  | fuel + 1, .blockEntry :: r =>
    let item := match r with
      | .blockEntry :: _ => some ([Event.empty], r)
      | .key :: _ => some ([Event.empty], r)
      | .value :: _ => some ([Event.empty], r)
      | .blockEnd :: _ => some ([Event.empty], r)
      | _ => readNode handles fuel .block r
    match item with
    | none => none
    | some (es, r) => (readPlainItems handles fuel r).map fun (more, r) => (es ++ more, r)
  | _ + 1, r => some ([.sequenceEnd], r)

def readBlockPart (handles : Handles) : Nat → List Token → Read
  | 0, _ => none
  | fuel + 1, r =>
    match r with
    | .key :: _ => some ([Event.empty], r)
    | .value :: _ => some ([Event.empty], r)
    | .blockEnd :: _ => some ([Event.empty], r)
    | _ => readNode handles fuel .blockMapping r

def readBlockKeys (handles : Handles) : Nat → List Token → Read
  | 0, _ => none
  | fuel + 1, .key :: r =>
    match readBlockPart handles fuel r with
    | none => none
    | some (k, r) => (readBlockValue handles fuel r).map fun (more, r) => (k ++ more, r)
  | _ + 1, .blockEnd :: r => some ([.mappingEnd], r)
  | _ + 1, _ => none

def readBlockValue (handles : Handles) : Nat → List Token → Read
  | 0, _ => none
  | fuel + 1, .value :: r =>
    match readBlockPart handles fuel r with
    | none => none
    | some (v, r) => (readBlockKeys handles fuel r).map fun (more, r) => (v ++ more, r)
  | fuel + 1, r => (readBlockKeys handles fuel r).map fun (more, r) => (Event.empty :: more, r)

/-- Read the items of a flow sequence and its end. An item with a key is a mapping of one entry. -/
def readFlowItems (handles : Handles) : Nat → Bool → List Token → Read
  | 0, _, _ => none
  | _ + 1, _, .flowSequenceEnd :: r => some ([.sequenceEnd], r)
  | fuel + 1, isFirst, ts =>
    let next := match isFirst, ts with
      | true, ts => some ts
      | false, .flowEntry :: r => some r
      | false, _ => none
    match next with
    | none => none
    | some ts =>
      match ts with
      | .flowSequenceEnd :: r => some ([.sequenceEnd], r)
      | .key :: r =>
        match readPairKey handles fuel r with
        | none => none
        | some (es, r) =>
          (readFlowItems handles fuel false r).map fun (more, r) =>
            (.mappingStart ⟨none, none⟩ :: es ++ .mappingEnd :: more, r)
      | _ =>
        match readNode handles fuel .flow ts with
        | none => none
        | some (es, r) => (readFlowItems handles fuel false r).map fun (more, r) => (es ++ more, r)

/-- Read the key and the value of an entry that is an item of a flow sequence. A mark that stands in
place of the key is passed over. -/
def readPairKey (handles : Handles) : Nat → List Token → Read
  | 0, _ => none
  | fuel + 1, ts =>
    let k := match ts with
      | .value :: r => some ([Event.empty], r)
      | .flowEntry :: r => some ([Event.empty], r)
      | .flowSequenceEnd :: r => some ([Event.empty], r)
      | _ => readNode handles fuel .flow ts
    match k with
    | none => none
    | some (k, r) =>
      let v := match r with
        | .value :: r =>
          match r with
          | .flowEntry :: _ => some ([Event.empty], r)
          | .flowSequenceEnd :: _ => some ([Event.empty], r)
          | _ => readNode handles fuel .flow r
        | _ => some ([Event.empty], r)
      v.map fun (v, r) => (k ++ v, r)

def readFlowEntries (handles : Handles) : Nat → Bool → List Token → Read
  | 0, _, _ => none
  | _ + 1, _, .flowMappingEnd :: r => some ([.mappingEnd], r)
  | fuel + 1, isFirst, ts =>
    let next := match isFirst, ts with
      | true, ts => some ts
      | false, .flowEntry :: r => some r
      | false, _ => none
    match next with
    | none => none
    | some ts =>
      let entry : Read := match ts with
        | .key :: r =>
          let k := match r with
            | .value :: _ => some ([Event.empty], r)
            | .flowEntry :: _ => some ([Event.empty], r)
            | .flowMappingEnd :: _ => some ([Event.empty], r)
            | _ => readNode handles fuel .flow r
          match k with
          | none => none
          | some (k, r) =>
            let v := match r with
              | .value :: r =>
                match r with
                | .flowEntry :: _ => some ([Event.empty], r)
                | .flowMappingEnd :: _ => some ([Event.empty], r)
                | _ => readNode handles fuel .flow r
              | _ => some ([Event.empty], r)
            v.map fun (v, r) => (k ++ v, r)
        | _ => (readNode handles fuel .flow ts).map fun (k, r) => (k ++ [Event.empty], r)
      match ts, entry with
      | .flowMappingEnd :: r, _ => some ([.mappingEnd], r)
      | _, none => none
      | _, some (es, r) =>
        (readFlowEntries handles fuel false r).map fun (more, r) => (es ++ more, r)

end

/-- The directives in front of a document: whether a version has been given, and the handles. -/
def readDirectives : Bool → Handles → List Token → Option (Handles × List Token)
  | versioned, handles, .versionDirective major minor :: r =>
    if versioned || major ≠ 1 || (minor ≠ 1 && minor ≠ 2) then none
    else readDirectives true handles r
  | versioned, handles, .tagDirective handle pfx :: r =>
    if (handles.lookup handle).isSome then none
    else readDirectives versioned (handles ++ [(handle, pfx)]) r
  | _, handles, r => some (handles ++ standardHandles, r)

def dropDocumentEnds : List Token → List Token
  | .documentEnd :: r => dropDocumentEnds r
  | r => r

def readContent (handles : Handles) (fuel : Nat) (ts : List Token) : Read :=
  match ts with
  | .versionDirective _ _ :: _ => some ([.empty], ts)
  | .tagDirective _ _ :: _ => some ([.empty], ts)
  | .documentStart :: _ => some ([.empty], ts)
  | .documentEnd :: _ => some ([.empty], ts)
  | .streamEnd :: _ => some ([.empty], ts)
  | _ => readNode handles fuel .block ts

/-- The events of a stream of at most one document: none for an empty stream. A second document is an
error. -/
def ofTokens? (ts : List Token) : Option (List Event) :=
  let fuel := 4 * ts.length + 4
  let document : Read := match ts with
    | .versionDirective _ _ :: _ | .tagDirective _ _ :: _ | .documentStart :: _ =>
      match readDirectives false [] ts with
      | some (handles, .documentStart :: r) => readContent handles fuel r
      | _ => none
    | .streamEnd :: _ => some ([], ts)
    | _ => readNode standardHandles fuel .block ts
  match document with
  | none => none
  | some (es, r) => if dropDocumentEnds r == [.streamEnd] then some es else none

end Event

end BlueprintSchema.Yaml
