import BlueprintSchema.Proofs.Script.Reading
import BlueprintSchema.Proofs.Script.Running
import Mathlib.Data.List.DropRight

/-! How lines between two words are read. A word closes the lines where it is the first thing on a line,
so white space in front of it does not belong to the body: neither its own indentation nor the blank
lines above it. The body is what the lines up to the last one with text spell, each behind a line break.
Raw lines and lines with insertions are read by one argument (`LineReader`). Main statements:
`Quoted.document_reads_body` and `Quoted.document_reads_blank`. -/

namespace BlueprintSchema.Script

theorem takeWhile_exact {p : Char → Bool} {front rest : List Char} (inside : ∀ c ∈ front, p c = true)
    (stops : ∀ c ∈ rest.head?, p c = false) : (front ++ rest).takeWhile p = front := by
  rw [List.takeWhile_append_of_pos inside]
  cases rest with
  | nil => simp
  | cons c rest => simp [stops c rfl]

theorem dropWhile_exact {p : Char → Bool} {front rest : List Char} (inside : ∀ c ∈ front, p c = true)
    (stops : ∀ c ∈ rest.head?, p c = false) : (front ++ rest).dropWhile p = rest := by
  rw [List.dropWhile_append_of_pos inside]
  cases rest with
  | nil => rfl
  | cons c rest => simp [stops c rfl]

namespace Tree

def IsBare (t : Tree) : Prop := ∃ text, t = .token [] text

theorem text_of_bare {kind : Kind} {ts : List Tree} (bare : Each IsBare ts) :
    (Tree.node kind ts).text = spellings ts := by
  have nothing : (Tree.node kind ts).leading = [] := by
    cases ts with
    | nil => rfl
    | cons t ts =>
      obtain ⟨text, rfl⟩ := bare t List.mem_cons_self
      rfl
  rw [text, nothing]
  rfl

end Tree

namespace Quoted

def isBlank (line : List Char) : Bool := line.all isSpace

def broken (lines : List (List Char)) : List Char := lines.flatMap ('\n' :: ·)

/-- What stands where lines are read: lines, and on a line of its own the closing word with what follows
it. -/
def upTo (lines : List (List Char)) (indentation tail : List Char) : List Char :=
  broken lines ++ '\n' :: (indentation ++ tail)

/-- A rule that reads lines, given a bound on how many there are. It stops before the closing word that
`tail` starts with, and takes a line with white space in front of it as one token if the line is of the
kind that `Goes` tells. -/
structure LineReader (p : Nat → Rule) (Goes : List Char → Prop) (tail : List Char) : Prop where
  stop {fuel : Nat} {gap : List Char} : (∀ c ∈ gap, isSpace c = true) → gap.any breaksLine = true →
    p (fuel + 1) (gap ++ tail) = some ([], gap ++ tail)
  line {fuel : Nat} {gap text r rest : List Char} {ts : List Tree} : (∀ c ∈ gap, isSpace c = true) →
    Goes text → p fuel ('\n' :: r) = some (ts, rest) →
      p (fuel + 1) (gap ++ (text ++ '\n' :: r)) = some (.token [] (gap ++ text) :: ts, rest)

section Reader

variable {p : Nat → Rule} {Goes : List Char → Prop} {indentation tail gap : List Char}
  {lines : List (List Char)} {fuel : Nat}

theorem broken_cons (line : List Char) (lines : List (List Char)) :
    broken (line :: lines) = '\n' :: (line ++ broken lines) :=
  rfl

theorem upTo_cons (line : List Char) (lines : List (List Char)) :
    upTo (line :: lines) indentation tail = '\n' :: (line ++ upTo lines indentation tail) := by
  simp [upTo, broken_cons]

theorem upTo_eq_cons (lines : List (List Char)) (indentation tail : List Char) :
    ∃ r, upTo lines indentation tail = '\n' :: r := by
  cases lines with
  | nil => exact ⟨_, rfl⟩
  | cons line lines => exact ⟨_, upTo_cons line lines⟩

/-- The white space in front of the closing word, if only blank lines are above it. -/
def gapOf (lines : List (List Char)) (indentation : List Char) : List Char :=
  broken lines ++ '\n' :: indentation

theorem upTo_eq_gap (lines : List (List Char)) (indentation tail : List Char) :
    upTo lines indentation tail = gapOf lines indentation ++ tail := by
  simp [upTo, gapOf]

theorem isSpace_gapOf (blank : ∀ line ∈ lines, isBlank line = true)
    (indented : ∀ c ∈ indentation, isSpace c = true) :
    ∀ c ∈ gapOf lines indentation, isSpace c = true := by
  intro c member
  rcases List.mem_append.1 member with above | own
  · obtain ⟨line, inside, member⟩ := List.mem_flatMap.1 above
    rcases List.mem_cons.1 member with rfl | member
    · rfl
    · exact List.all_eq_true.1 (blank line inside) c member
  · rcases List.mem_cons.1 own with rfl | member
    · rfl
    · exact indented c member

theorem any_gapOf (lines : List (List Char)) (indentation : List Char) :
    (gapOf lines indentation).any breaksLine = true := by
  simp [gapOf, breaksLine]

variable (reader : LineReader p Goes tail)
include reader

theorem LineReader.step {line rest : List Char} {ts : List Tree} (goes : Goes (line.dropWhile isSpace))
    (space : ∀ c ∈ gap, isSpace c = true) (next : p fuel (upTo lines indentation tail) = some (ts, rest)) :
    p (fuel + 1) (gap ++ upTo (line :: lines) indentation tail) =
      some (.token [] (gap ++ '\n' :: line) :: ts, rest) := by
  obtain ⟨r, starts⟩ := upTo_eq_cons lines indentation tail
  have cut := List.takeWhile_append_dropWhile (p := isSpace) (l := line)
  have space' : ∀ c ∈ gap ++ '\n' :: line.takeWhile isSpace, isSpace c = true := by
    intro c member
    rcases List.mem_append.1 member with member | member
    · exact space c member
    · rcases List.mem_cons.1 member with rfl | member
      · rfl
      · exact List.all_eq_true.1 List.all_takeWhile c member
  have taken := reader.line space' goes (starts ▸ next)
  rw [List.append_assoc, List.cons_append, ← List.append_assoc (line.takeWhile isSpace), cut, ← starts,
    ← upTo_cons, List.append_assoc, List.cons_append, cut] at taken
  exact taken

variable (indented : ∀ c ∈ indentation, isSpace c = true)
include indented

/-- The lines down to the last one with text make the body; blank lines among them go with the text
below them, and the blank lines at the end are left with the closing word. -/
theorem LineReader.reads {front below : List (List Char)} {last : List Char}
    (goes : ∀ line ∈ front ++ [last], isBlank line = false → Goes (line.dropWhile isSpace))
    (text : isBlank last = false) (blank : ∀ line ∈ below, isBlank line = true)
    (space : ∀ c ∈ gap, isSpace c = true) (enough : front.length + 1 < fuel) :
    ∃ ts, p fuel (gap ++ upTo (front ++ last :: below) indentation tail) =
        some (ts, upTo below indentation tail) ∧
      Each Tree.IsBare ts ∧ Tree.spellings ts = gap ++ broken (front ++ [last]) := by
  -- A blank line only adds to the white space in front of the next line with text, so the statement is
  -- for any such white space.
  induction front generalizing gap fuel with
  | nil =>
    obtain ⟨k, rfl⟩ : ∃ k, fuel = k + 2 := Nat.exists_eq_add_of_le' enough
    have stopped : p (k + 1) (upTo below indentation tail) = some ([], upTo below indentation tail) := by
      rw [upTo_eq_gap]
      exact reader.stop (isSpace_gapOf blank indented) (any_gapOf below indentation)
    refine ⟨_, reader.step (goes last (by simp) text) space stopped, ?_, ?_⟩
    · exact fun t member => ⟨_, List.mem_singleton.1 member⟩
    · simp [Tree.spellings, Tree.spelling, broken]
  | cons line front ih =>
    have goes' : ∀ line ∈ front ++ [last], isBlank line = false → Goes (line.dropWhile isSpace) :=
      fun line member => goes line (List.mem_cons_of_mem _ member)
    cases isText : isBlank line with
    | true =>
      have space' : ∀ c ∈ gap ++ '\n' :: line, isSpace c = true := by
        intro c member
        rcases List.mem_append.1 member with member | member
        · exact space c member
        · rcases List.mem_cons.1 member with rfl | member
          · rfl
          · exact List.all_eq_true.1 isText c member
      obtain ⟨ts, read, bare, spelled⟩ := ih goes' space' (Nat.lt_of_succ_lt enough)
      rw [List.append_assoc, List.cons_append, ← upTo_cons] at read
      refine ⟨ts, read, bare, ?_⟩
      rw [spelled, List.append_assoc]
      rfl
    | false =>
      obtain ⟨k, rfl⟩ : ∃ k, fuel = k + 1 := Nat.exists_eq_add_of_le' (Nat.one_le_of_lt enough)
      have nothing : ∀ c ∈ [], isSpace c = true := List.forall_mem_nil _
      obtain ⟨ts, read, bare, spelled⟩ := ih goes' nothing (Nat.lt_of_succ_lt_succ enough)
      refine ⟨_, reader.step (goes line (by simp) isText) space read, ?_, ?_⟩
      · exact List.forall_mem_cons.2 ⟨⟨_, rfl⟩, bare⟩
      · rw [Tree.spellings, spelled]
        simp [Tree.spelling, broken]

end Reader

/-! ### Raw lines and lines with insertions -/

theorem isSpace_of_inTag {c : Char} (h : inTag c = true) : isSpace c = false := by
  have small : ∀ n < 14, inTag (Char.ofNat n) = false := by decide
  rw [← Bool.not_eq_true]
  intro space
  rcases (Bool.or_eq_true _ _).mp space with blank | range
  · obtain rfl := beq_iff_eq.1 blank
    exact absurd h (by decide)
  · obtain ⟨-, high⟩ := (Bool.and_eq_true _ _).mp range
    have bound : c.toNat ≤ 13 := Char.le_def.1 (of_decide_eq_true high)
    have other := small c.toNat (by omega)
    rw [Char.ofNat_toNat, h] at other
    exact Bool.false_ne_true other.symm

theorem ne_of_inTag {c d : Char} (h : inTag c = true) (other : inTag d = false) : c ≠ d := by
  rintro rfl
  exact Bool.false_ne_true (other.symm.trans h)

structure Closing (tag : List Char) : Prop where
  ne_nil : tag ≠ []
  word : ∀ c ∈ tag, inTag c = true

/-- What is left of a line behind the white space in front of it, if the line does not close the lines:
it starts neither with white space nor with the closing word, and holds no line break. -/
structure GoesOn (tag text : List Char) : Prop where
  solid : ∃ c r, text = c :: r ∧ isSpace c = false
  unbroken : ∀ c ∈ text, breaksLine c = false
  other : ¬ tag <+: text

section Readers

variable {tag text gap r rest : List Char}

theorem Closing.head_not_space (word : Closing tag) (rest : List Char) :
    ∀ c ∈ (tag ++ rest).head?, isSpace c = false := by
  obtain ⟨c, tag, rfl⟩ := List.exists_cons_of_ne_nil word.ne_nil
  intro d same
  cases same
  exact isSpace_of_inTag (word.word c List.mem_cons_self)

theorem GoesOn.head_not_space (goes : GoesOn tag text) (rest : List Char) :
    ∀ c ∈ (text ++ rest).head?, isSpace c = false := by
  obtain ⟨c, text, rfl, solid⟩ := goes.solid
  intro d same
  cases same
  exact solid

theorem GoesOn.not_prefix (goes : GoesOn tag text) (word : Closing tag) (r : List Char) :
    ¬ tag <+: text ++ '\n' :: r := by
  intro front
  rcases List.prefix_or_prefix_of_prefix front (List.prefix_append text _) with inside | ⟨more, rfl⟩
  · exact goes.other inside
  · have next := (List.prefix_append_right_inj text).1 front
    cases more with
    | nil => exact goes.other (by simp)
    | cons c more =>
      obtain ⟨rfl, -⟩ := List.cons_prefix_cons.1 next
      exact absurd (word.word '\n' (by simp)) (by decide)

theorem GoesOn.not_startsWithWord (goes : GoesOn tag text) (word : Closing tag) (r : List Char) :
    startsWithWord tag (text ++ '\n' :: r) = false := by
  rw [← Bool.not_eq_true]
  intro same
  refine goes.not_prefix word r ?_
  rw [← beq_iff_eq.1 same]
  exact List.takeWhile_prefix inTag

theorem rawLines_reader (word : Closing tag) (closes : endsRaw tag (tag ++ rest) = true) :
    LineReader (rawLines tag) (GoesOn tag) (tag ++ rest) where
  stop {fuel gap} space any := by
    refine Reader.bind_reads rfl ?_
    dsimp only
    rw [dropWhile_exact space (word.head_not_space rest), if_pos closes]
    rfl
  line {fuel gap text r after ts} space goes next := by
    have cut := dropWhile_exact space (goes.head_not_space ('\n' :: r))
    have taken := takeWhile_exact space (goes.head_not_space ('\n' :: r))
    have goesOn : endsRaw tag (text ++ '\n' :: r) = false := by
      simp [endsRaw, goes.not_prefix word r]
    have whole : ∀ c ∈ text, (!breaksLine c) = true := fun c member => by simp [goes.unbroken c member]
    have stops : ∀ c ∈ ('\n' :: r).head?, (!breaksLine c) = false := fun c same => by cases same; rfl
    refine Reader.bind_reads rfl ?_
    dsimp only
    rw [cut, taken, goesOn, takeWhile_exact whole stops, dropWhile_exact whole stops]
    refine Reader.bind_reads rfl ?_
    have opened : (pure [.token [] (gap ++ text)] : Rule) ('\n' :: r) =
      some ([.token [] (gap ++ text)], '\n' :: r) := rfl
    exact Rule.append_reads opened next

theorem plain_line (unbroken : ∀ c ∈ text, breaksLine c = false) (constant : '\\' ∉ text ∧ '$' ∉ text)
    (r : List Char) : plain breaksLine (text ++ '\n' :: r) = (text, '\n' :: r) := by
  induction text with
  | nil => simp [plain, breaksLine]
  | cons c text ih =>
    obtain ⟨slash, dollar⟩ := constant
    obtain ⟨own, unbroken⟩ := List.forall_mem_cons.1 unbroken
    obtain ⟨otherSlash, slash⟩ := List.ne_and_not_mem_of_not_mem_cons slash
    obtain ⟨otherDollar, dollar⟩ := List.ne_and_not_mem_of_not_mem_cons dollar
    have follows : (text ++ '\n' :: r).head? ≠ some '$' := by
      cases text with
      | nil => simp
      | cons d text =>
        intro same
        cases same
        exact dollar List.mem_cons_self
    have inserts := startsInterpolation_eq_false otherDollar.symm follows
    rw [List.cons_append, plain, own, inserts, ih unbroken ⟨slash, dollar⟩]
    · rfl
    · simp [otherSlash.symm]

theorem lines_reader (inner : Inner) (word : Closing tag)
    (closes : startsWithWord tag (tag ++ rest) = true) :
    LineReader (lines inner tag) (fun text => GoesOn tag text ∧ '\\' ∉ text ∧ '$' ∉ text)
      (tag ++ rest) where
  stop {fuel gap} space any := by
    refine Reader.bind_reads rfl ?_
    dsimp only
    rw [dropWhile_exact space (word.head_not_space rest), if_pos closes,
      takeWhile_exact space (word.head_not_space rest), if_pos any]
    rfl
  line {fuel gap text r after ts} space goes next := by
    obtain ⟨goes, constant⟩ := goes
    have cut := dropWhile_exact space (goes.head_not_space ('\n' :: r))
    have taken := takeWhile_exact space (goes.head_not_space ('\n' :: r))
    have goesOn := goes.not_startsWithWord word r
    have filled : (gap.isEmpty && text.isEmpty) = false := by
      obtain ⟨c, text, rfl, -⟩ := goes.solid
      simp
    refine Reader.bind_reads rfl ?_
    dsimp only
    rw [cut, taken, goesOn, plain_line goes.unbroken constant]
    refine Reader.bind_reads rfl ?_
    dsimp only
    rw [filled]
    have opened : (pure [.token [] (gap ++ text)] : Rule) ('\n' :: r) =
      some ([.token [] (gap ++ text)], '\n' :: r) := rfl
    exact Rule.append_reads opened next

end Readers

/-! ### The whole literal -/

def quotes : List (List Char) := [[], ['"'], ['\x27']]

def opener (quote tag : List Char) : List Char := ['<', '<', '<'] ++ (quote ++ (tag ++ quote))

/-- Whether a word closes lines in front of the given text: raw lines ask for white space or a sign of
punctuation behind it, other lines for anything that does not belong to a word. -/
def closes (raw : Bool) (tag rest : List Char) : Bool :=
  if raw then endsRaw tag (tag ++ rest) else startsWithWord tag (tag ++ rest)

section Document

variable {quote tag indentation rest : List Char}

theorem startsWithWord_of_endsRaw (word : Closing tag) (ends : endsRaw tag (tag ++ rest) = true) :
    startsWithWord tag (tag ++ rest) = true := by
  have stops : ∀ c ∈ rest.head?, inTag c = false := by
    intro c first
    rw [← Bool.not_eq_true]
    intro inside
    have space := isSpace_of_inTag inside
    have semicolon : c ≠ ';' := ne_of_inTag inside rfl
    have comma : c ≠ ',' := ne_of_inTag inside rfl
    have bracket : c ≠ ')' := ne_of_inTag inside rfl
    simp [endsRaw, Option.mem_def.1 first, space, semicolon, comma, bracket] at ends
  rw [startsWithWord, takeWhile_exact word.word stops, beq_self_eq_true]

theorem startsWithWord_of_closes {raw : Bool} (word : Closing tag) (h : closes raw tag rest = true) :
    startsWithWord tag (tag ++ rest) = true := by
  cases raw with
  | false => exact h
  | true => exact startsWithWord_of_endsRaw word h

theorem quote_read (quoted : quote ∈ quotes) {c : Char} (inside : inTag c = true) (r r' : List Char) :
    (quote ++ c :: r).takeWhile (fun d => d == ' ' || d == '\t') = [] ∧
    ((quote ++ c :: r).take 1).filter (fun d => d == '\x27' || d == '"') = quote ∧
    ∀ d ∈ (quote ++ '\n' :: r').head?, inTag d = false := by
  have other := fun d (h : inTag d = false) => ne_of_inTag inside h
  simp only [quotes, List.mem_cons, List.not_mem_nil, or_false] at quoted
  obtain rfl | rfl | rfl := quoted
  · simp [other, inTag]
  · refine ⟨rfl, rfl, ?_⟩
    simp [inTag]
  · refine ⟨rfl, rfl, ?_⟩
    simp [inTag]

theorem opening_reads (word : Closing tag) (quoted : quote ∈ quotes) (r : List Char) :
    opening (opener quote tag ++ '\n' :: r) =
      some ((.token [] (opener quote tag), tag, quote == ['\x27']), '\n' :: r) := by
  obtain ⟨c, letters, same⟩ := List.exists_cons_of_ne_nil word.ne_nil
  have inside : inTag c = true := word.word c (same ▸ List.mem_cons_self)
  obtain ⟨blanks, marks, stops⟩ := quote_read quoted inside (letters ++ (quote ++ '\n' :: r)) r
  rw [← List.cons_append, ← same] at blanks marks
  have filled : tag.isEmpty = false := by rw [same, List.isEmpty_cons]
  have closed : quote.isPrefixOf (quote ++ '\n' :: r) = true := by simp
  refine Reader.bind_reads rfl ?_
  rw [opener, List.append_assoc, List.cons_append, Trivia.before_cons rfl (by decide)]
  simp only [List.cons_append, List.nil_append, List.append_assoc]
  rw [blanks]
  simp only [List.length_nil, List.drop_zero, marks, List.drop_left, takeWhile_exact word.word stops,
    dropWhile_exact word.word stops, filled, closed]
  rfl

theorem closing_reads (gap tag rest : List Char) :
    closing gap tag (gap ++ (tag ++ rest)) =
      some ([.node .ending [.token [.blank gap] tag]], rest) := by
  refine Rule.asNode_reads (Reader.bind_reads rfl (Reader.bind_reads rfl ?_))
  rw [← List.append_assoc, ← List.length_append, List.drop_left]
  rfl

theorem length_lt_upTo (lines : List (List Char)) (indentation tail : List Char) :
    lines.length < (upTo lines indentation tail).length := by
  induction lines with
  | nil => simp [upTo, broken]
  | cons line lines ih =>
    rw [upTo_cons, List.length_cons, List.length_cons, List.length_append]
    omega

theorem dropWhile_upTo_cons (line : List Char) (lines : List (List Char)) (indentation tail : List Char) :
    (upTo (line :: lines) indentation tail).dropWhile isSpace =
      if isBlank line then (upTo lines indentation tail).dropWhile isSpace
      else line.dropWhile isSpace ++ upTo lines indentation tail := by
  have blank : isBlank line = (line.dropWhile isSpace).isEmpty := by
    rw [isBlank, Bool.eq_iff_iff, List.isEmpty_iff, List.dropWhile_eq_nil_iff, List.all_eq_true]
  rw [upTo_cons, List.dropWhile_cons_of_pos rfl, List.dropWhile_append, blank]

theorem not_startsWithWord_upTo (word : Closing tag) {front : List (List Char)} {last : List Char}
    (goes : ∀ line ∈ front ++ [last], isBlank line = false → GoesOn tag (line.dropWhile isSpace))
    (text : isBlank last = false) (below : List (List Char)) (indentation tail : List Char) :
    startsWithWord tag ((upTo (front ++ last :: below) indentation tail).dropWhile isSpace) = false := by
  have step : ∀ line lines, isBlank line = false → GoesOn tag (line.dropWhile isSpace) →
      startsWithWord tag ((upTo (line :: lines) indentation tail).dropWhile isSpace) = false := by
    intro line lines text goes
    obtain ⟨r, starts⟩ := upTo_eq_cons lines indentation tail
    rw [dropWhile_upTo_cons, text, starts]
    exact goes.not_startsWithWord word r
  induction front with
  | nil => exact step last below text (goes last (by simp) text)
  | cons line front ih =>
    cases isText : isBlank line with
    | false => exact step line _ isText (goes line (by simp) isText)
    | true =>
      rw [List.cons_append, dropWhile_upTo_cons, isText]
      exact ih fun line member => goes line (List.mem_cons_of_mem _ member)

section Body

variable (word : Closing tag) {front below : List (List Char)} {last : List Char}
  (goes : ∀ line ∈ front ++ [last], isBlank line = false → GoesOn tag (line.dropWhile isSpace))
  (text : isBlank last = false) (blank : ∀ line ∈ below, isBlank line = true)
  (indented : ∀ c ∈ indentation, isSpace c = true)
include word goes text blank indented

theorem body_reads {raw : Bool} (closed : closes raw tag rest = true)
    (constant : raw = false → ∀ line ∈ front ++ [last], '\\' ∉ line ∧ '$' ∉ line) (inner : Inner) :
    let s := upTo (front ++ last :: below) indentation (tag ++ rest)
    ∃ body, (if raw then rawLines tag (s.length + 1) else lines inner tag (s.length + 1) : Rule) s =
        some (body, upTo below indentation (tag ++ rest)) ∧
      Each Tree.IsBare body ∧ Tree.spellings body = broken (front ++ [last]) := by
  intro s
  have enough : front.length + 1 < s.length + 1 := by
    have bound : (front ++ last :: below).length < s.length := length_lt_upTo _ _ _
    rw [List.length_append, List.length_cons] at bound
    omega
  have nothing : ∀ c ∈ [], isSpace c = true := List.forall_mem_nil _
  cases raw with
  | true => exact (rawLines_reader word closed).reads indented goes text blank nothing enough
  | false =>
    refine (lines_reader inner word closed).reads indented (fun line member notBlank => ?_) text blank
      nothing enough
    obtain ⟨slash, dollar⟩ := constant rfl line member
    have part := (List.dropWhile_suffix isSpace (l := line)).subset
    exact ⟨goes line member notBlank, fun h => slash (part h), fun h => dollar (part h)⟩

end Body

variable (word : Closing tag) (quoted : quote ∈ quotes)
  (closed : closes (quote == ['\x27']) tag rest = true)
  (indented : ∀ c ∈ indentation, isSpace c = true) (inner : Inner)
include word quoted closed indented

theorem document_reads_blank {below : List (List Char)} (blank : ∀ line ∈ below, isBlank line = true) :
    document inner (opener quote tag ++ upTo below indentation (tag ++ rest)) =
      some ([.node (if quote == ['\x27'] then .nowdoc else .heredoc) [.token [] (opener quote tag),
        .node .ending [.token [.blank (gapOf below indentation)] tag]]], rest) := by
  obtain ⟨r, starts⟩ := upTo_eq_cons below indentation (tag ++ rest)
  have opened := opening_reads word quoted r
  have gap := takeWhile_exact (isSpace_gapOf blank indented) (word.head_not_space rest)
  have ending := closing_reads (gapOf below indentation) tag rest
  rw [← starts, upTo_eq_gap] at opened
  rw [upTo_eq_gap]
  refine Reader.bind_reads opened (Reader.bind_reads rfl ?_)
  dsimp only
  rw [gap, any_gapOf, List.drop_left, startsWithWord_of_closes word closed]
  exact Reader.bind_reads ending rfl

theorem document_reads_body {front below : List (List Char)} {last : List Char}
    (goes : ∀ line ∈ front ++ [last], isBlank line = false → GoesOn tag (line.dropWhile isSpace))
    (constant : quote ≠ ['\x27'] → ∀ line ∈ front ++ [last], '\\' ∉ line ∧ '$' ∉ line)
    (text : isBlank last = false) (blank : ∀ line ∈ below, isBlank line = true) :
    ∃ body, document inner (opener quote tag ++ upTo (front ++ last :: below) indentation (tag ++ rest)) =
        some ([.node (if quote == ['\x27'] then .nowdoc else .heredoc) [.token [] (opener quote tag),
          .token [.blank []] [], .node .body body,
          .node .ending [.token [.blank (gapOf below indentation)] tag]]], rest) ∧
      Each Tree.IsBare body ∧ Tree.spellings body = broken (front ++ [last]) := by
  have first := not_startsWithWord_upTo word goes text below indentation (tag ++ rest)
  obtain ⟨body, read, bare, spelled⟩ := body_reads word goes text blank indented closed
    (fun raw => constant (ne_of_beq_false raw)) inner
  have gap := takeWhile_exact (isSpace_gapOf blank indented) (word.head_not_space rest)
  have ending := closing_reads (gapOf below indentation) tag rest
  rw [← upTo_eq_gap] at gap ending
  obtain ⟨r, starts⟩ := upTo_eq_cons (front ++ last :: below) indentation (tag ++ rest)
  rw [starts] at read first ⊢
  have anyBreak : (('\n' :: r).takeWhile isSpace).any breaksLine = true := by
    rw [List.takeWhile_cons_of_pos rfl]
    rfl
  have skipped : ('\n' :: r).drop (('\n' :: r).takeWhile isSpace).length =
      ('\n' :: r).dropWhile isSpace := by
    conv => lhs; arg 2; rw [← List.takeWhile_append_dropWhile (p := isSpace) (l := '\n' :: r)]
    rw [List.drop_left]
  refine ⟨body, Reader.bind_reads (opening_reads word quoted r) (Reader.bind_reads rfl ?_), bare, spelled⟩
  dsimp only
  rw [anyBreak, skipped, first]
  generalize (quote == ['\x27']) = raw at read ⊢
  cases raw <;>
    refine Reader.bind_reads rfl (Reader.bind_reads read (Reader.bind_reads rfl ?_)) <;>
      exact Reader.bind_reads (gap.symm ▸ ending) rfl

end Document

end Quoted

end BlueprintSchema.Script
