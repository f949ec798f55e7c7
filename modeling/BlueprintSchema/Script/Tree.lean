/-!
Concrete trees of PHP scripts. A token owns the blanks and comments in front of it, so the spelling of
a tree is exactly the piece of script that it was read from.
-/

namespace BlueprintSchema.Script

/-- What may stand between two tokens: blanks, a comment, or markup outside the script tags together
with those tags. -/
inductive Trivia
  | blank (text : List Char)
  | comment (text : List Char)
  | markup (text : List Char)
  deriving Inhabited, DecidableEq

def Trivia.text : Trivia → List Char
  | .blank s | .comment s | .markup s => s

/-- The constructs that the search for computed fields tells apart. All others are `plain`. -/
inductive Kind
  | plain
  /-- A call through `::`, with a `scope`, a `method` and its `arguments`. -/
  | staticCall
  | scope
  | method
  | arguments
  | argument
  | array
  | element
  | reference
  | string
  | template
  | heredoc
  | nowdoc
  | body
  | ending
  | interpolation
  deriving DecidableEq, Inhabited

inductive Tree
  | token (before : List Trivia) (text : List Char)
  | node (kind : Kind) (parts : List Tree)
  deriving Inhabited

namespace Tree

mutual

def spelling : Tree → List Char
  | .token before text => before.flatMap Trivia.text ++ text
  | .node _ parts => spellings parts

def spellings : List Tree → List Char
  | [] => []
  | t :: ts => t.spelling ++ spellings ts

end

mutual

/-- The trivia before a tree: that of its first token, if it has one. -/
def leading? : Tree → Option (List Trivia)
  | .token before _ => some before
  | .node _ parts => leadings? parts

def leadings? : List Tree → Option (List Trivia)
  | [] => none
  | t :: ts => match t.leading? with
    | some before => some before
    | none => leadings? ts

end

def leading (t : Tree) : List Trivia := t.leading?.getD []

def text (t : Tree) : List Char := t.spelling.drop (t.leading.flatMap Trivia.text).length

mutual

/-- All nodes of a tree in document order, an outer one before those in it. -/
def nodes : Tree → List (Kind × List Tree)
  | .token _ _ => []
  | .node kind parts => (kind, parts) :: nodesOf parts

def nodesOf : List Tree → List (Kind × List Tree)
  | [] => []
  | t :: ts => t.nodes ++ nodesOf ts

end

def hasKind (kind : Kind) : Tree → Bool
  | .token _ _ => false
  | .node k _ => k == kind

def parts : Tree → List Tree
  | .token _ _ => []
  | .node _ ts => ts

theorem spellings_append (ts us : List Tree) :
    spellings (ts ++ us) = spellings ts ++ spellings us := by
  induction ts with
  | nil => simp [spellings]
  | cons t ts ih => simp [spellings, ih]

end Tree

end BlueprintSchema.Script
