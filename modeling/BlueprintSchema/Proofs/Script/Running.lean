import BlueprintSchema.Script.Literal
import BlueprintSchema.Script.Quoted

/-! What rules take off text of a known form, and what they leave. A string in double quotes into which
nothing is inserted is read as one tree, up to its closing quote and whatever follows it, and the text of
the tree is the string as written. Main statement: `Quoted.template_reads`. -/

namespace BlueprintSchema.Script

namespace Trivia

theorem before_cons {c : Char} {r : List Char} (solid : isBlank c = false)
    (opens : c ≠ '/' ∧ c ≠ '#' ∧ c ≠ '?') : before (c :: r) = ([], c :: r) := by
  obtain ⟨slash, hash, question⟩ := opens
  have noComment : comment? (c :: r) = none := by
    unfold comment?
    split <;> simp_all
  rw [before, List.length_cons, read, List.takeWhile_cons_of_neg (by simp [solid]), noComment]
  · simp
  · simp [question]

end Trivia

theorem Reader.bind_reads {α β : Type} {p : Reader α} {f : α → Reader β} {s r rest : List Char} {a : α}
    {b : β} (first : p s = some (a, r)) (next : f a r = some (b, rest)) :
    (p >>= f) s = some (b, rest) := by
  change (p s).bind (fun ar => f ar.1 ar.2) = _
  rw [first, Option.bind_some, next]

theorem Reader.lift_reads {α : Type} {x : Option α} {a : α} (s : List Char) (h : x = some a) :
    (liftM x : Reader α) s = some (a, s) := by
  rw [h]
  rfl

namespace Rule

variable {p q : Rule} {take : List Char → Option (List Char × List Char)} {kind : Kind}
  {s r rest text : List Char} {ts us : List Tree}

theorem append_reads (first : p s = some (ts, r)) (second : q r = some (us, rest)) :
    (p ++ q) s = some (ts ++ us, rest) :=
  Reader.bind_reads first (Reader.bind_reads second rfl)

theorem asNode_reads (h : p s = some (ts, r)) : asNode kind p s = some ([.node kind ts], r) :=
  Reader.bind_reads h rfl

theorem lexeme_reads (bare : Trivia.before s = ([], s)) (taken : take s = some (text, r)) :
    lexeme take s = some ([.token [] text], r) := by
  refine Reader.bind_reads rfl ?_
  rw [bare]
  exact Reader.bind_reads (Reader.lift_reads s taken) rfl

end Rule

namespace Quoted

def binaryMarks : List (List Char) := [[], ['b'], ['B']]

theorem eq_of_mem_binaryMarks {mark : List Char} (marked : mark ∈ binaryMarks) :
    mark = [] ∨ mark = ['b'] ∨ mark = ['B'] := by
  simpa [binaryMarks] using marked

/-- Whether a text may stand between double quotes and have nothing inserted: it holds no quote that is
not escaped, no backslash in front of the closing quote, and no variable or expression. -/
def isConstant : List Char → Bool
  | [] => true
  | '\\' :: _ :: r => isConstant r
  | c :: r => c != '\\' && c != '"' && !startsInterpolation (c :: r) && isConstant r

theorem startsInterpolation_eq_false {c : Char} {r : List Char} (dollar : c ≠ '$')
    (follows : r.head? ≠ some '$') : startsInterpolation (c :: r) = false := by
  unfold startsInterpolation
  split <;> simp_all

theorem startsInterpolation_append (c : Char) (r rest : List Char) :
    startsInterpolation (c :: r ++ '"' :: rest) = startsInterpolation (c :: r) := by
  cases r with
  | nil =>
    by_cases dollar : c = '$'
    · subst dollar
      rfl
    · by_cases brace : c = '\x7b'
      · subst brace
        rfl
      · simp [startsInterpolation, dollar, brace]
  | cons d r =>
    unfold startsInterpolation
    grind

theorem plain_constant {body : List Char} (constant : isConstant body = true) (rest : List Char) :
    plain (· == '"') (body ++ '"' :: rest) = (body, '"' :: rest) := by
  fun_induction isConstant body with
  | case1 => simp [plain]
  | case2 c r ih =>
    have goesOn : ((c = '\n' || c = '\r') && c == '"') = false := by
      by_cases quote : c = '"' <;> simp [quote]
    rw [List.cons_append, List.cons_append, plain, goesOn]
    simp [ih constant]
  | case3 c r _ ih =>
    simp only [Bool.and_eq_true, bne_iff_ne, Bool.not_eq_true'] at constant
    obtain ⟨⟨⟨slash, quote⟩, inserts⟩, constant⟩ := constant
    have goesOn : (c == '"' || startsInterpolation (c :: (r ++ '"' :: rest))) = false := by
      rw [← List.cons_append, startsInterpolation_append, inserts]
      simpa using quote
    rw [List.cons_append, plain, goesOn]
    · simp [ih constant]
    · simp [slash]

/-- The parts of a string in double quotes: the quote that opens it, what it holds, and the quote that
closes it. -/
def templateParts (mark body : List Char) : List Tree :=
  .token [] (mark ++ ['"']) :: ((if body.isEmpty then [] else [.token [] body]) ++ [.token [] ['"']])

theorem text_templateParts (mark body : List Char) :
    (Tree.node .template (templateParts mark body)).text = mark ++ '"' :: (body ++ ['"']) := by
  cases body <;>
    simp [templateParts, Tree.text, Tree.leading, Tree.leading?, Tree.leadings?, Tree.spelling,
      Tree.spellings]

theorem isPlain_templateParts (mark body : List Char) :
    Literal.isPlain (templateParts mark body) = true := by
  cases body <;> rfl

theorem templateEnd_reads (inner : Inner) {body : List Char} (constant : isConstant body = true)
    (rest : List Char) (fuel : Nat) :
    templateEnd inner '"' (fuel + 1) (body ++ '"' :: rest) =
      some ((if body.isEmpty then [] else [.token [] body]) ++ [.token [] ['"']], rest) := by
  have closed : exactly '"'.toString ('"' :: rest) = some ([.token [] ['"']], rest) := rfl
  refine Reader.bind_reads rfl ?_
  dsimp only
  rw [plain_constant constant]
  refine Reader.bind_reads rfl ?_
  dsimp only
  rw [if_pos rfl]
  exact Rule.append_reads rfl closed

theorem template_reads (inner : Inner) {mark body : List Char} (marked : mark ∈ binaryMarks)
    (constant : isConstant body = true) (rest : List Char) :
    template inner (mark ++ '"' :: (body ++ '"' :: rest)) =
      some ([.node .template (templateParts mark body)], rest) := by
  have ends := templateEnd_reads inner constant rest (body ++ '"' :: rest).length
  have opened : (pure [.token [] (mark ++ ['"'])] : Rule) (body ++ '"' :: rest) =
      some ([.token [] (mark ++ ['"'])], body ++ '"' :: rest) := rfl
  refine Rule.asNode_reads (Reader.bind_reads ?_ (Reader.bind_reads rfl (Rule.append_reads opened ends)))
  obtain rfl | rfl | rfl := eq_of_mem_binaryMarks marked <;>
    exact Rule.lexeme_reads (Trivia.before_cons rfl (by decide)) rfl

end Quoted

end BlueprintSchema.Script
