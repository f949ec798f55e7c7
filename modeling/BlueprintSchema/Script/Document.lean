import BlueprintSchema.Script.Statement

/-!
Whole scripts. A script is markup up to the first opening tag, and statements after it. It is accepted
or refused as a whole; the tree of an accepted one spells exactly the script.
-/

namespace BlueprintSchema.Script

def inner : Nat → Inner
  | 0 => ⟨fun _ => failure, failure⟩
  | depth + 1 =>
    ⟨fun atEnd s => Expression.read (inner depth) atEnd s, fun s => Statement.read (inner depth) s⟩

/-- Markup before the first opening tag with that tag, and the statements after it. Where the text
has no tag it is markup as a whole. Every two levels of nesting take a character at least, which
bounds the depth. -/
def script : Rule := do
  let s ← get
  let (markup, r) := Trivia.markupEnd s
  set r
  pure [.token [] markup] ++ Rule.many (inner (4 * s.length + 8)).statement ++ Rule.ending

def parse? (source : String) : Option Tree := do
  let (ts, _) ← script source.toList
  let t := Tree.node .plain ts
  if t.spelling = source.toList then some t else none

theorem spelling_of_parse? {source : String} {t : Tree} (h : parse? source = some t) :
    t.spelling = source.toList := by
  simp only [parse?, Option.bind_eq_bind, Option.bind_eq_some_iff] at h
  obtain ⟨⟨ts, r⟩, -, h⟩ := h
  split at h
  · next e => simpa using (Option.some.inj h) ▸ e
  · simp at h

end BlueprintSchema.Script
