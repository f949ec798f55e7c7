import BlueprintSchema.ComputedField
import BlueprintSchema.Proofs.Literal.Quoting
import Mathlib.Data.List.TakeWhile

/-! What a text between double quotes denotes in the language of scripts, read from left to right: an
escape by a sign, an escape by the number of a character, or a character that stands for itself. The
value of a literal leaves escapes by number as they are written, and is what the literal denotes exactly
if it holds none. Main statement: `Literal.template_denotes_iff`. -/

namespace BlueprintSchema.Script.Literal

/-! ### Pieces of a text between double quotes -/

inductive Piece
  | itself (c : Char)
  | sign (sign c : Char)
  /-- An escape by a number: what stands behind the backslash, and the character with the number, if
  there is one. -/
  | number (lead : Char) (more : List Char) (c : Option Char)
  deriving DecidableEq

namespace Piece

def value? : Piece → Option Char
  | itself c | sign _ c => some c
  | number _ _ c => c

def written : Piece → List Char
  | itself c => [c]
  | sign l _ => ['\\', l]
  | number lead more _ => '\\' :: lead :: more

/-- The text that a piece becomes if numbers are not decoded. -/
def kept : Piece → List Char
  | itself c | sign _ c => [c]
  | number lead more _ => '\\' :: lead :: more

def isNumber : Piece → Bool
  | number _ _ _ => true
  | _ => false

end Piece

def signs : List (Char × Char) :=
  [('n', '\n'), ('t', '\t'), ('r', '\r'), ('v', '\x0b'), ('e', '\x1b'), ('f', '\x0c'), ('\\', '\\'),
    ('$', '$'), ('"', '"')]

def isOctal (c : Char) : Bool := '0' ≤ c && c ≤ '7'

def isHexadecimal (c : Char) : Bool :=
  c.isDigit || ('a' ≤ c && c ≤ 'f') || ('A' ≤ c && c ≤ 'F')

def digit (c : Char) : Nat :=
  if c.isDigit then c.toNat - '0'.toNat else c.toLower.toNat - 'a'.toNat + 10

def numeral (base : Nat) (digits : List Char) : Nat :=
  digits.foldl (fun n c => n * base + digit c) 0

/-- The character with a number below 128. A larger number in octal or with `x` is a byte that is no
character by itself. -/
def ascii? (n : Nat) : Option Char := if n < 128 then some (Char.ofNat n) else none

def unicode? (n : Nat) : Option Char := if n.isValidChar then some (Char.ofNat n) else none

/-- An escape by a number behind a backslash: `x` and one or two hexadecimal digits, `u` and any number
of them in braces, or one to three octal digits. -/
def number? : List Char → Option Piece
  | 'x' :: r =>
    match (r.take 2).takeWhile isHexadecimal with
    | [] => none
    | d :: ds => some (.number 'x' (d :: ds) (ascii? (numeral 16 (d :: ds))))
  | 'u' :: '\x7b' :: r =>
    match r.takeWhile isHexadecimal, r.dropWhile isHexadecimal with
    | d :: ds, '\x7d' :: _ =>
      some (.number 'u' ('\x7b' :: d :: ds ++ ['\x7d']) (unicode? (numeral 16 (d :: ds))))
    | _, _ => none
  | r =>
    match (r.take 3).takeWhile isOctal with
    | [] => none
    | d :: ds => some (.number d ds (ascii? (numeral 8 (d :: ds))))

def escape? (r : List Char) : Option Piece :=
  match r.head?.bind fun l => (signs.lookup l).map (Piece.sign l) with
  | some p => some p
  | none => number? r

def pieces : List Char → List Piece
  | [] => []
  | c :: r =>
    if c = '\\' then
      match escape? r with
      | some p => p :: pieces (r.drop (p.written.length - 1))
      | none => .itself c :: pieces r
    else .itself c :: pieces r
termination_by s => s.length
decreasing_by all_goals simp; try omega

/-- The text that a text between double quotes denotes; none if a number in it stands for no
character. -/
def denoted? (body : List Char) : Option (List Char) := (pieces body).mapM Piece.value?

/-! ### What is kept of each piece -/

theorem escaped?_eq_lookup (c : Char) : escaped? (some '"') c = signs.lookup c := by
  by_cases known : c ∈ signs.map Prod.fst
  · have all : (signs.map Prod.fst).all (fun c => escaped? (some '"') c == signs.lookup c) = true := by
      decide
    exact beq_iff_eq.1 (List.all_eq_true.1 all c known)
  · have unknown : signs.lookup c = none := by
      refine List.lookup_eq_none_iff.2 fun p member => ?_
      exact bne_iff_ne.2 fun same => known (same ▸ List.mem_map_of_mem member)
    rw [unknown]
    unfold escaped?
    split <;> simp_all [signs]

theorem escape?_cases {r : List Char} {p : Piece} (h : escape? r = some p) :
    (∃ l c rest, p = .sign l c ∧ r = l :: rest ∧ escaped? (some '"') l = some c) ∨
    number? r = some p ∧ ∀ l ∈ r.head?, escaped? (some '"') l = none := by
  cases r with
  | nil => exact .inr ⟨h, nofun⟩
  | cons l rest =>
    cases known : signs.lookup l with
    | none =>
      simp only [escape?, List.head?_cons, Option.bind_some, known, Option.map_none] at h
      exact .inr ⟨h, fun l' same => by cases same; rw [escaped?_eq_lookup, known]⟩
    | some c =>
      simp only [escape?, List.head?_cons, Option.bind_some, known, Option.map_some] at h
      cases h
      exact .inl ⟨l, c, rest, rfl, rfl, by rw [escaped?_eq_lookup, known]⟩

theorem escape?_none {r : List Char} (h : escape? r = none) :
    ∀ l ∈ r.head?, escaped? (some '"') l = none := by
  intro l first
  cases known : signs.lookup l with
  | none => rw [escaped?_eq_lookup, known]
  | some c =>
    rw [Option.mem_def] at first
    simp [escape?, first, known] at h

theorem number?_written {r : List Char} {p : Piece} (h : number? r = some p) :
    ∃ lead more c, p = .number lead more c ∧ lead :: more <+: r ∧ '\\' ∉ lead :: more := by
  have digits : ∀ (q : Char → Bool) (n : Nat) (r ds : List Char), (r.take n).takeWhile q = ds →
      q '\\' = false → ds <+: r ∧ '\\' ∉ ds := by
    rintro q n r ds rfl no
    refine ⟨(List.takeWhile_prefix q).trans (List.take_prefix n r), fun member => ?_⟩
    exact absurd (List.mem_takeWhile_imp member) (by simp [no])
  unfold number? at h
  split at h
  · next r =>
    split at h
    · nomatch h
    · next d ds found =>
      cases h
      obtain ⟨front, plain⟩ := digits isHexadecimal 2 r _ found rfl
      exact ⟨_, _, _, rfl, (List.cons_prefix_cons.2 ⟨rfl, front⟩), by simpa using plain⟩
  · next r =>
    split at h
    · next d ds rest found left =>
      cases h
      have whole := List.takeWhile_append_dropWhile (p := isHexadecimal) (l := r)
      rw [found, left] at whole
      have plain : '\\' ∉ d :: ds := fun member =>
        absurd (List.mem_takeWhile_imp (found ▸ member)) (by decide)
      refine ⟨_, _, _, rfl, ⟨rest, ?_⟩, by simpa using plain⟩
      simp [← whole]
    · nomatch h
  · split at h
    · nomatch h
    · next d ds found =>
      cases h
      obtain ⟨front, plain⟩ := digits isOctal 3 r _ found rfl
      exact ⟨_, _, _, rfl, front, plain⟩

theorem unescape_kept {quote : Option Char} {r : List Char}
    (none : ∀ c ∈ r.head?, escaped? quote c = none) :
    unescape quote ('\\' :: r) = '\\' :: unescape quote r := by
  cases r with
  | nil => rfl
  | cons c r => rw [unescape, none c rfl]

/-- Decoding a text between double quotes keeps escapes by number as they are written, and replaces
every other piece by the character it stands for. -/
theorem unescape_eq_kept (body : List Char) :
    unescape (some '"') body = (pieces body).flatMap Piece.kept := by
  fun_induction pieces body with
  | case1 => rfl
  -- An escape by a number holds no other backslash, so the decoder copies it whole.
  | case2 r p escape ih =>
    obtain ⟨l, c, rest, rfl, rfl, known⟩ | ⟨number, unknown⟩ := escape?_cases escape
    · rw [unescape_escape known, List.flatMap_cons, ← ih]
      rfl
    · obtain ⟨lead, more, c, rfl, ⟨rest, rfl⟩, plain⟩ := number?_written number
      rw [unescape_kept unknown, unescape_append plain, List.flatMap_cons, ← ih]
      simp [Piece.kept, Piece.written]
  | case3 r none ih => rw [unescape_kept (escape?_none none), ih]; rfl
  | case4 c r other ih => rw [unescape_cons other, ih]; rfl

/-! ### Comparison -/

theorem Piece.one_le_length_kept (p : Piece) : 1 ≤ p.kept.length := by
  cases p <;> simp [kept]

theorem Piece.length_kept_eq_one_iff (p : Piece) : p.kept.length = 1 ↔ p.isNumber = false := by
  cases p <;> simp [kept, isNumber]

theorem length_le_kept (ps : List Piece) : ps.length ≤ (ps.flatMap Piece.kept).length := by
  induction ps with
  | nil => exact Nat.le_refl _
  | cons p ps ih =>
    have own := p.one_le_length_kept
    rw [List.flatMap_cons, List.length_append, List.length_cons]
    omega

theorem length_kept_eq_iff (ps : List Piece) :
    (ps.flatMap Piece.kept).length = ps.length ↔ ∀ p ∈ ps, p.isNumber = false := by
  induction ps with
  | nil => simp
  | cons p ps ih =>
    have own := p.one_le_length_kept
    have rest := length_le_kept ps
    rw [List.forall_mem_cons, ← ih, ← p.length_kept_eq_one_iff, List.flatMap_cons, List.length_append,
      List.length_cons]
    omega

theorem length_of_mapM_value {ps : List Piece} {v : List Char} (h : ps.mapM Piece.value? = some v) :
    v.length = ps.length := by
  induction ps generalizing v with
  | nil =>
    cases h
    rfl
  | cons p ps ih =>
    rw [List.mapM_cons] at h
    obtain ⟨c, -, h⟩ := Option.bind_eq_some_iff.1 h
    obtain ⟨cs, rest, same⟩ := Option.bind_eq_some_iff.1 h
    cases same
    rw [List.length_cons, List.length_cons, ih rest]

theorem mapM_value_of_plain {ps : List Piece} (plain : ∀ p ∈ ps, p.isNumber = false) :
    ps.mapM Piece.value? = some (ps.flatMap Piece.kept) := by
  induction ps with
  | nil => rfl
  | cons p ps ih =>
    obtain ⟨own, rest⟩ := List.forall_mem_cons.1 plain
    rw [List.mapM_cons, ih rest]
    cases p with
    | number => nomatch own
    | itself | sign => rfl

theorem denoted?_eq_unescape_iff (body : List Char) :
    denoted? body = some (unescape (some '"') body) ↔ ∀ p ∈ pieces body, p.isNumber = false := by
  rw [unescape_eq_kept]
  constructor
  · intro same
    exact (length_kept_eq_iff _).1 (length_of_mapM_value same)
  · exact mapM_value_of_plain

/-- A string in double quotes into which nothing is inserted is one tree, whatever follows it, and has a
value: its pieces from left to right, each the character it stands for, but an escape by a number as it
is written. This is the text that the string denotes exactly if no piece of it is an escape by a
number. -/
theorem template_denotes_iff {mark body : List Char} (marked : mark ∈ Quoted.binaryMarks)
    (constant : Quoted.isConstant body = true) (inner : Inner) (rest : List Char) :
    ∃ t handle, Quoted.template inner (mark ++ '"' :: (body ++ '"' :: rest)) = some ([t], rest) ∧
      value? t = some handle ∧ handle = (pieces body).flatMap Piece.kept ∧
      (denoted? body = some handle ↔ ∀ p ∈ pieces body, p.isNumber = false) :=
  ⟨_, _, Quoted.template_reads inner marked constant rest, value?_template marked body,
    unescape_eq_kept body, denoted?_eq_unescape_iff body⟩

/-- Every escape by a sign, and backslashes that start none: in front of another letter, of `x` without
a digit, of `u` without a brace, and of what would be a number if a backslash did not stand before. -/
def signsOnly : String := "\\n\\t\\r\\v\\e\\f\\\\\\$\\\"\\q\\x\\u41\\\\101"

theorem signsOnly_denoted :
    Quoted.isConstant signsOnly.toList = true ∧ (∀ p ∈ pieces signsOnly.toList, p.isNumber = false) ∧
    ∃ t handle, Quoted.template ⟨fun _ => failure, failure⟩ ('"' :: (signsOnly.toList ++ ['"', ';'])) =
        some ([t], [';']) ∧
      value? t = some handle ∧ denoted? signsOnly.toList = some handle ∧
      handle = "\n\t\r\x0b\x1b\x0c\\$\"\\q\\x\\u41\\101".toList := by
  have constant : Quoted.isConstant signsOnly.toList = true := by decide +kernel
  have plain : ∀ p ∈ pieces signsOnly.toList, p.isNumber = false := by decide +kernel
  have marked : [] ∈ Quoted.binaryMarks := by decide
  obtain ⟨t, handle, read, value, kept, denotes⟩ :=
    template_denotes_iff marked constant ⟨fun _ => failure, failure⟩ [';']
  refine ⟨constant, plain, t, handle, read, value, denotes.2 plain, kept.trans ?_⟩
  decide +kernel

def letterByNumber : String := "<?php Collection::computed('a', \"\\x41\");"

/-- An escape by a number is not decoded: the handle is the escape as it is written, and not the
character that the string denotes. -/
theorem number_left_as_written :
    Quoted.isConstant ['\\', 'x', '4', '1'] = true ∧ denoted? ['\\', 'x', '4', '1'] = some ['A'] ∧
    value? (.node .template (Quoted.templateParts [] ['\\', 'x', '4', '1'])) =
      some ['\\', 'x', '4', '1'] ∧
    (ComputedField.ofSource letterByNumber).toOption.map (·.map Field.handle) = some ["\\x41"] := by
  refine ⟨?_, ?_, ?_, ?_⟩ <;> decide +kernel

end BlueprintSchema.Script.Literal
