import BlueprintSchema.Proofs.Script.Running

/-! Ways to write a text as a literal. Between single quotes backslashes and quotes are escaped; between
double quotes, and in lines between words, also dollar signs, and some characters may be written as a
letter. However a text is written, its literal has the text as its value, so the style of the quotes does
not change a handle. Main statement: `Literal.every_style_keeps_text`. -/

namespace BlueprintSchema.Script.Literal

/-! ### Single quotes -/

def singleQuoted (s : List Char) : List Char :=
  s.flatMap fun c => if c = '\\' ∨ c = '\x27' then ['\\', c] else [c]

theorem unescapeSingle_cons {c : Char} (other : c ≠ '\\') (r : List Char) :
    unescapeSingle (c :: r) = c :: unescapeSingle r := by
  rw [unescapeSingle]
  simp [other]

theorem unescapeSingle_singleQuoted (s : List Char) : unescapeSingle (singleQuoted s) = s := by
  induction s with
  | nil => rfl
  | cons c s ih =>
    rw [singleQuoted, List.flatMap_cons, ← singleQuoted]
    split
    · next escaped =>
      rw [List.cons_append, List.singleton_append, unescapeSingle, if_pos (by simpa using escaped), ih]
    · next plain =>
      rw [List.singleton_append, unescapeSingle_cons (not_or.1 plain).1, ih]

theorem singleEnd?_singleQuoted (s rest : List Char) :
    Quoted.singleEnd? (singleQuoted s ++ '\x27' :: rest) = some (singleQuoted s ++ ['\x27'], rest) := by
  induction s with
  | nil => rfl
  | cons c s ih =>
    rw [singleQuoted, List.flatMap_cons, ← singleQuoted]
    split
    · simp [Quoted.singleEnd?, ih]
    · next plain =>
      obtain ⟨slash, quote⟩ := not_or.1 plain
      rw [List.singleton_append, List.cons_append, Quoted.singleEnd?, ih, Option.map_some]
      · rfl
      · exact quote
      · simp [slash]

/-! ### Double quotes and lines between words -/

def letter? : Char → Option Char
  | '\n' => some 'n'
  | '\t' => some 't'
  | '\r' => some 'r'
  | '\x0b' => some 'v'
  | '\x1b' => some 'e'
  | '\x0c' => some 'f'
  | _ => none

/-- A character as it stands in a literal: escaped if it would mean something else there; else as its
letter if it has one and `lettered` asks for it; else as it is. -/
def spelled (quote : Option Char) (c : Char) (lettered : Bool) : List Char :=
  if c = '\\' ∨ c = '$' ∨ some c = quote then ['\\', c]
  else match letter? c, lettered with
    | some l, true => ['\\', l]
    | _, _ => [c]

/-- A text as it stands between double quotes, or in lines between words where there is no quote. With
each character goes whether to write it as its letter. -/
def interpolated (quote : Option Char) (s : List (Char × Bool)) : List Char :=
  s.flatMap fun (c, lettered) => spelled quote c lettered

theorem interpolated_cons (quote : Option Char) (c : Char) (lettered : Bool) (s : List (Char × Bool)) :
    interpolated quote ((c, lettered) :: s) = spelled quote c lettered ++ interpolated quote s :=
  rfl

theorem unescape_cons {c : Char} (other : c ≠ '\\') (quote : Option Char) (r : List Char) :
    unescape quote (c :: r) = c :: unescape quote r := by
  rw [unescape]
  simp [other]

theorem unescape_append {w : List Char} (plain : '\\' ∉ w) (quote : Option Char) (r : List Char) :
    unescape quote (w ++ r) = w ++ unescape quote r := by
  induction w with
  | nil => rfl
  | cons c w ih =>
    obtain ⟨other, plain⟩ := List.ne_and_not_mem_of_not_mem_cons plain
    rw [List.cons_append, unescape_cons other.symm, ih plain, List.cons_append]

theorem unescape_escape {quote : Option Char} {c d : Char} (h : escaped? quote c = some d)
    (r : List Char) : unescape quote ('\\' :: c :: r) = d :: unescape quote r := by
  rw [unescape, h]

theorem escaped?_letter {quote : Option Char} {c l : Char} (h : letter? c = some l) :
    escaped? quote l = some c := by
  unfold letter? at h
  split at h <;> cases h <;> rfl

theorem escaped?_self {quote : Option Char} {c : Char} (quoted : quote = none ∨ quote = some '"')
    (h : c = '\\' ∨ c = '$' ∨ some c = quote) : escaped? quote c = some c := by
  obtain rfl | rfl := quoted
  · obtain rfl | rfl | no := h
    · rfl
    · rfl
    · nomatch no
  · obtain rfl | rfl | same := h
    · rfl
    · rfl
    · cases same
      rfl

section Interpolated

variable {quote : Option Char} (quoted : quote = none ∨ quote = some '"')
include quoted

theorem unescape_spelled (c : Char) (lettered : Bool) (r : List Char) :
    unescape quote (spelled quote c lettered ++ r) = c :: unescape quote r := by
  unfold spelled
  split
  · next escaped => exact unescape_escape (escaped?_self quoted escaped) r
  · next plain =>
    split
    · next letter => exact unescape_escape (escaped?_letter letter) r
    · exact unescape_cons (not_or.1 plain).1 quote r

theorem unescape_interpolated (s : List (Char × Bool)) :
    unescape quote (interpolated quote s) = s.map Prod.fst := by
  induction s with
  | nil => rfl
  | cons e s ih =>
    obtain ⟨c, lettered⟩ := e
    rw [interpolated_cons, unescape_spelled quoted, ih, List.map_cons]

end Interpolated

/-- A text between double quotes never starts with a dollar sign, so a brace in front of it opens no
expression. -/
theorem head?_interpolated (s : List (Char × Bool)) :
    (interpolated (some '"') s).head? ≠ some '$' := by
  cases s with
  | nil => nofun
  | cons e s =>
    obtain ⟨c, lettered⟩ := e
    rw [interpolated_cons]
    unfold spelled
    split
    · simp
    · next plain =>
      split
      · simp
      · simpa using (not_or.1 (not_or.1 plain).2).1

theorem isConstant_cons {c : Char} {r : List Char} (plain : c ≠ '\\' ∧ c ≠ '$' ∧ c ≠ '"')
    (follows : r.head? ≠ some '$') (constant : Quoted.isConstant r = true) :
    Quoted.isConstant (c :: r) = true := by
  obtain ⟨slash, dollar, quote⟩ := plain
  have inserts := Quoted.startsInterpolation_eq_false dollar follows
  rw [Quoted.isConstant]
  · simp [slash, quote, inserts, constant]
  · simp [slash]

theorem isConstant_interpolated (s : List (Char × Bool)) :
    Quoted.isConstant (interpolated (some '"') s) = true := by
  induction s with
  | nil => rfl
  | cons e s ih =>
    obtain ⟨c, lettered⟩ := e
    rw [interpolated_cons]
    unfold spelled
    split
    · exact ih
    · next plain =>
      split
      · exact ih
      · refine isConstant_cons ?_ (head?_interpolated s) ih
        simpa [not_or] using plain

/-! ### Values -/

theorem unquote?_quoted {quote : Char} (other : quote ≠ 'b' ∧ quote ≠ 'B') {mark : List Char}
    (marked : mark ∈ Quoted.binaryMarks) (body : List Char) :
    unquote? quote (mark ++ quote :: (body ++ [quote])) = some body := by
  obtain rfl | rfl | rfl := Quoted.eq_of_mem_binaryMarks marked <;> simp [unquote?, other]

theorem single_reads {mark : List Char} (marked : mark ∈ Quoted.binaryMarks) (s rest : List Char) :
    Quoted.single (mark ++ '\x27' :: (singleQuoted s ++ '\x27' :: rest)) =
      some ([.node .string [.token [] (mark ++ '\x27' :: (singleQuoted s ++ ['\x27']))]], rest) := by
  have closed := singleEnd?_singleQuoted s rest
  refine Rule.asNode_reads ?_
  obtain rfl | rfl | rfl := Quoted.eq_of_mem_binaryMarks marked <;>
    exact Rule.lexeme_reads (Trivia.before_cons rfl (by decide)) (by simp [closed])

theorem value?_single {mark : List Char} (marked : mark ∈ Quoted.binaryMarks) (s : List Char) :
    value? (.node .string [.token [] (mark ++ '\x27' :: (singleQuoted s ++ ['\x27']))]) = some s := by
  have text : (Tree.node .string [.token [] (mark ++ '\x27' :: (singleQuoted s ++ ['\x27']))]).text =
      mark ++ '\x27' :: (singleQuoted s ++ ['\x27']) := by
    simp [Tree.text, Tree.leading, Tree.leading?, Tree.leadings?, Tree.spelling, Tree.spellings]
  rw [value?, text, unquote?_quoted (by decide) marked, Option.map_some, unescapeSingle_singleQuoted]

theorem value?_template {mark : List Char} (marked : mark ∈ Quoted.binaryMarks) (body : List Char) :
    value? (.node .template (Quoted.templateParts mark body)) = some (unescape (some '"') body) := by
  rw [value?, Quoted.text_templateParts, if_pos (Quoted.isPlain_templateParts mark body),
    unquote?_quoted (by decide) marked, Option.map_some]

/-- However a text is written as a literal, what it stands for is the text: in single quotes, with or
without a letter before them, in double quotes with each character as it is or as its letter, and in
lines between words. The literals in quotes are each read as one tree, whatever follows them, and these
have the text as their value. -/
theorem every_style_keeps_text (s : List (Char × Bool)) {mark : List Char}
    (marked : mark ∈ Quoted.binaryMarks) :
    let text := s.map Prod.fst
    let single := mark ++ '\x27' :: (singleQuoted text ++ ['\x27'])
    let double := mark ++ '"' :: (interpolated (some '"') s ++ ['"'])
    (unquote? '\x27' single).map unescapeSingle = some text ∧
    (unquote? '"' double).map (unescape (some '"')) = some text ∧
    unescape none (interpolated none s) = text ∧
    ∀ (inner : Inner) (rest : List Char), ∃ t u,
      Quoted.single (single ++ rest) = some ([t], rest) ∧
      Quoted.template inner (double ++ rest) = some ([u], rest) ∧
      value? t = some text ∧ value? u = some text := by
  dsimp only
  refine ⟨?_, ?_, unescape_interpolated (.inl rfl) s, fun inner rest => ?_⟩
  · rw [unquote?_quoted (by decide) marked, Option.map_some, unescapeSingle_singleQuoted]
  · rw [unquote?_quoted (by decide) marked, Option.map_some, unescape_interpolated (.inr rfl)]
  · have constant := isConstant_interpolated s
    have read := Quoted.template_reads inner marked constant rest
    refine ⟨_, .node .template (Quoted.templateParts mark (interpolated (some '"') s)), ?_, ?_,
      value?_single marked _, ?_⟩
    · simpa using single_reads marked (s.map Prod.fst) rest
    · simpa using read
    · rw [value?_template marked, unescape_interpolated (.inr rfl)]

/-- A backslash, both quotes, a dollar sign, a line break to be written as its letter and a tab to be
written as it is, and a backslash in front of the closing quote. -/
def awkward : List (Char × Bool) :=
  [('\\', false), ('\x27', false), ('"', false), ('$', false), ('\n', true), ('\t', false), ('\\', false)]

theorem awkward_read_in_both_styles :
    ['b'] ∈ Quoted.binaryMarks ∧ ∃ t u,
      Quoted.single "b'\\\\\\'\"$\n\t\\\\');".toList = some ([t], [')', ';']) ∧
      Quoted.template ⟨fun _ => failure, failure⟩ "b\"\\\\'\\\"\\$\\n\t\\\\\");".toList =
        some ([u], [')', ';']) ∧
      value? t = some (awkward.map Prod.fst) ∧ value? u = some (awkward.map Prod.fst) := by
  have marked : ['b'] ∈ Quoted.binaryMarks := by decide
  exact ⟨marked, (every_style_keeps_text awkward marked).2.2.2 _ [')', ';']⟩

end BlueprintSchema.Script.Literal
