/-!
Operations on text as a list of characters: cutting it at a character, its lines, and whether one
text occurs in another.
-/

namespace BlueprintSchema.Text

def dropLeading (c : Char) (s : String) : String := String.ofList (s.toList.dropWhile (· == c))

def occursIn (needle : List Char) : List Char → Bool
  | [] => needle.isEmpty
  | c :: r => needle.isPrefixOf (c :: r) || occursIn needle r

/-- Cut text at every occurrence of a character: one piece more than occurrences. -/
def splitAtChar (c : Char) : List Char → List (List Char)
  | [] => [[]]
  | d :: r =>
    if d = c then [] :: splitAtChar c r
    else match splitAtChar c r with
      | [] => [[d]]
      | p :: ps => (d :: p) :: ps

/-- Lines of text: ended by a line feed, which may follow a carriage return; a line feed at the very
end starts no further line. -/
def lines (s : List Char) : List (List Char) :=
  let pieces := splitAtChar '\n' s
  let pieces := if pieces.getLast? = some [] then pieces.dropLast else pieces
  let ended := if s.getLast? = some '\n' then pieces.length else pieces.length - 1
  pieces.mapIdx fun i p =>
    if i < ended && p.getLast? = some '\r' then p.dropLast else p

end BlueprintSchema.Text
