import BlueprintSchema.ComputedField
import BlueprintSchema.Proofs.Literal.Quoting
import BlueprintSchema.Proofs.Path
import BlueprintSchema.Proofs.Script.Lines

/-! The value of lines between two words. Every line loses the indentation of the closing word and
nothing else, but at the end more is lost: blank lines at the end, and the blanks behind the last line
with text. So the value is the lines joined exactly if the last line has text and no blank behind it.
Main statement: `Literal.document_keeps_lines_iff`. -/

namespace BlueprintSchema.Script.Literal

open Quoted (isBlank broken upTo gapOf)

/-! ### Joined lines -/

def joined (lines : List (List Char)) : List Char := ['\n'].intercalate lines

theorem joined_cons (line : List Char) (lines : List (List Char)) :
    joined (line :: lines) = line ++ broken lines := by
  induction lines generalizing line with
  | nil => simp [joined, broken]
  | cons line' lines ih =>
    have step : joined (line :: line' :: lines) = line ++ '\n' :: joined (line' :: lines) := by
      simp [joined, List.intercalate]
    rw [step, ih, Quoted.broken_cons]

theorem broken_eq {lines : List (List Char)} (filled : lines ≠ []) :
    broken lines = '\n' :: joined lines := by
  obtain ⟨line, lines, rfl⟩ := List.exists_cons_of_ne_nil filled
  rw [joined_cons, Quoted.broken_cons]

theorem joined_append (front lines : List (List Char)) (last : List Char) :
    joined (front ++ last :: lines) = joined (front ++ [last]) ++ broken lines := by
  cases front with
  | nil => simp [joined_cons, broken]
  | cons line front => simp [joined_cons, broken]

theorem joined_concat (front : List (List Char)) (last : List Char) :
    joined (front ++ [last]) = front.flatMap (· ++ ['\n']) ++ last := by
  induction front with
  | nil => simp [joined]
  | cons line front ih =>
    rw [List.cons_append, joined_cons, broken_eq (by simp), ih]
    simp

theorem splitAtChar_joined {lines : List (List Char)} (filled : lines ≠ [])
    (unbroken : ∀ line ∈ lines, '\n' ∉ line) : Text.splitAtChar '\n' (joined lines) = lines := by
  induction lines with
  | nil => exact absurd rfl filled
  | cons line lines ih =>
    obtain ⟨own, rest⟩ := List.forall_mem_cons.1 unbroken
    rw [joined_cons]
    by_cases last : lines = []
    · subst last
      simpa [broken] using Text.splitAtChar_of_not_mem own
    · rw [broken_eq last, Text.splitAtChar_append_cons, Text.splitAtChar_of_not_mem own, ih last rest,
        List.singleton_append]

theorem lines_joined {front : List (List Char)} {last : List Char}
    (unbroken : ∀ line ∈ front ++ [last], ∀ c ∈ line, Quoted.breaksLine c = false) (text : last ≠ []) :
    Text.lines (joined (front ++ [last])) = front ++ [last] := by
  have split : Text.splitAtChar '\n' (joined (front ++ [last])) = front ++ [last] :=
    splitAtChar_joined (by simp) fun line member lf => nomatch unbroken line member _ lf
  have kept : ∀ line ∈ front ++ [last], line.getLast? ≠ some '\r' := fun line member cr =>
    nomatch unbroken line member _ (List.mem_of_getLast? cr)
  have filled : (front ++ [last]).getLast? ≠ some [] := by simp [text]
  unfold Text.lines
  dsimp only
  rw [split, if_neg filled]
  refine List.ext_getElem? fun i => ?_
  rw [List.getElem?_mapIdx]
  cases found : (front ++ [last])[i]? with
  | none => rfl
  | some line => simp [kept line (List.mem_of_getElem? found)]

/-! ### The body -/

theorem isSpace_of_isGap {c : Char} (h : isGap c = true) : Quoted.isSpace c = true := by
  rcases (Bool.or_eq_true _ _).mp h with same | same <;> rw [beq_iff_eq.1 same] <;> rfl

theorem breaksLine_of_isGap {c : Char} (h : isGap c = true) : Quoted.breaksLine c = false := by
  rcases (Bool.or_eq_true _ _).mp h with same | same <;> rw [beq_iff_eq.1 same] <;> rfl

theorem exists_not_gap {line : List Char} (text : isBlank line = false) : ∃ c ∈ line, isGap c = false := by
  obtain ⟨c, member, solid⟩ := by simpa [isBlank] using text
  refine ⟨c, member, ?_⟩
  rw [← Bool.not_eq_true]
  intro gap
  exact Bool.false_ne_true (solid.symm.trans (isSpace_of_isGap gap))

theorem rdropWhile_append {p : Char → Bool} {s : List Char} (some : ∃ c ∈ s, p c = false)
    (front : List Char) : (front ++ s).rdropWhile p = front ++ s.rdropWhile p := by
  obtain ⟨c, member, other⟩ := some
  have kept : (s.reverse.dropWhile p).isEmpty = false := by
    rw [← Bool.not_eq_true, List.isEmpty_iff, List.dropWhile_eq_nil_iff]
    intro all
    exact Bool.false_ne_true (other.symm.trans (all c (List.mem_reverse.2 member)))
  simp [List.rdropWhile, List.dropWhile_append, kept]

theorem rdropWhile_joined {last : List Char} (text : isBlank last = false) (front : List (List Char)) :
    (joined (front ++ [last])).rdropWhile isGap = joined (front ++ [last.rdropWhile isGap]) := by
  rw [joined_concat, joined_concat, rdropWhile_append (exists_not_gap text)]

theorem rdropWhile_ne_nil {line : List Char} (text : isBlank line = false) :
    line.rdropWhile isGap ≠ [] := by
  obtain ⟨c, member, other⟩ := exists_not_gap text
  intro none
  exact Bool.false_ne_true (other.symm.trans (List.rdropWhile_eq_nil_iff.1 none c member))

/-- A line as it stands between the words: indented like the closing word, or bare if it is empty and
its mark asks for it. -/
def written (indentation : List Char) (row : List Char × Bool) : List Char :=
  if row.2 && row.1.isEmpty then [] else indentation ++ row.1

section Written

variable {indentation : List Char} {row : List Char × Bool}

theorem written_of_text (text : isBlank row.1 = false) :
    written indentation row = indentation ++ row.1 := by
  have filled : row.1.isEmpty = false := by
    rw [← Bool.not_eq_true, List.isEmpty_iff]
    intro empty
    rw [empty] at text
    exact Bool.false_ne_true text.symm
  simp [written, filled]

theorem dropPrefixOf_append (lead s : List Char) : dropPrefixOf lead (lead ++ s) = s := by
  simp [dropPrefixOf]

theorem dropPrefixOf_written : dropPrefixOf indentation (written indentation row) = row.1 := by
  unfold written
  split
  · next bare =>
    obtain ⟨-, empty⟩ := (Bool.and_eq_true _ _).mp bare
    rw [List.isEmpty_iff.1 empty]
    cases indentation <;> simp [dropPrefixOf]
  · exact dropPrefixOf_append _ _

variable (indented : ∀ c ∈ indentation, isGap c = true)
include indented

theorem isBlank_written : isBlank (written indentation row) = isBlank row.1 := by
  have space : indentation.all Quoted.isSpace = true :=
    List.all_eq_true.2 fun c member => isSpace_of_isGap (indented c member)
  unfold written
  split
  · next bare =>
    obtain ⟨-, empty⟩ := (Bool.and_eq_true _ _).mp bare
    rw [List.isEmpty_iff.1 empty]
  · rw [isBlank, isBlank, List.all_append, space, Bool.true_and]

theorem mem_written {c : Char} (member : c ∈ written indentation row) : isGap c = true ∨ c ∈ row.1 := by
  unfold written at member
  split at member
  · nomatch member
  · exact (List.mem_append.1 member).imp_left (indented c)

theorem unbroken_written (unbroken : ∀ c ∈ row.1, Quoted.breaksLine c = false) :
    ∀ c ∈ written indentation row, Quoted.breaksLine c = false := by
  intro c member
  exact (mem_written indented member).elim breaksLine_of_isGap (unbroken c)

omit indented in
theorem bodyText_cons (indentation s : List Char) : bodyText indentation ('\n' :: s) =
    joined ((Text.lines (s.rdropWhile isGap)).map (dropPrefixOf indentation)) :=
  rfl

theorem bodyText_written {front : List (List Char × Bool)}
    (unbroken : ∀ e ∈ front ++ [row], ∀ c ∈ e.1, Quoted.breaksLine c = false)
    (text : isBlank row.1 = false) :
    bodyText indentation (broken ((front ++ [row]).map (written indentation))) =
      (joined ((front ++ [row]).map Prod.fst)).rdropWhile isGap := by
  have ends : isBlank (written indentation row) = false := by rw [isBlank_written indented, text]
  have cut : (written indentation row).rdropWhile isGap = indentation ++ row.1.rdropWhile isGap := by
    rw [written_of_text text, rdropWhile_append (exists_not_gap text)]
  have whole : ∀ line ∈ front.map (written indentation) ++ [(written indentation row).rdropWhile isGap],
      ∀ c ∈ line, Quoted.breaksLine c = false := by
    intro line member c inside
    rcases List.mem_append.1 member with member | member
    · obtain ⟨e, before, rfl⟩ := List.mem_map.1 member
      exact unbroken_written indented (unbroken e (List.mem_append_left _ before)) c inside
    · rw [List.mem_singleton.1 member] at inside
      exact unbroken_written indented (unbroken row (by simp)) c
        ((List.rdropWhile_prefix isGap _).subset inside)
  have dedented : (front.map (written indentation)).map (dropPrefixOf indentation) =
      front.map Prod.fst := by
    rw [List.map_map]
    exact List.map_congr_left fun e _ => dropPrefixOf_written
  rw [List.map_append, List.map_singleton, broken_eq (by simp), bodyText_cons, rdropWhile_joined ends,
    lines_joined whole (rdropWhile_ne_nil ends), List.map_append, List.map_singleton, cut,
    dropPrefixOf_append, dedented, List.map_append, List.map_singleton, rdropWhile_joined text]

end Written

/-! ### Values -/

/-- What is left of lines between two words: nothing without text; else the lines down to the last one
with text, without the blanks behind it. -/
def remaining? (lines : List (List Char)) : Option (List Char) :=
  match lines.rdropWhile isBlank with
  | [] => none
  | kept => some ((joined kept).rdropWhile isGap)

def EndsInText (lines : List (List Char)) : Prop :=
  ∃ front last, lines = front ++ [last] ∧ isBlank last = false ∧ ∀ c ∈ last.getLast?, isGap c = false

theorem rdropWhile_append_cons {front below : List (List Char)} {last : List Char}
    (text : isBlank last = false) (blank : ∀ line ∈ below, isBlank line = true) :
    (front ++ last :: below).rdropWhile isBlank = front ++ [last] := by
  have dropped : ∀ line ∈ below.reverse, isBlank line = true :=
    fun line member => blank line (List.mem_reverse.1 member)
  simp [List.rdropWhile, List.dropWhile_append_of_pos dropped, text]

theorem all_or_last {α : Type} (p : α → Bool) (l : List α) :
    (∀ x ∈ l, p x = true) ∨ ∃ front last below, l = front ++ last :: below ∧
      p last = false ∧ ∀ x ∈ below, p x = true := by
  induction l with
  | nil => exact .inl nofun
  | cons x l ih =>
    rcases ih with all | ⟨front, last, below, rfl, other, all⟩
    · cases own : p x with
      | true => exact .inl (List.forall_mem_cons.2 ⟨own, all⟩)
      | false => exact .inr ⟨[], x, l, rfl, own, all⟩
    · exact .inr ⟨x :: front, last, below, rfl, other, all⟩

theorem remaining?_blank {lines : List (List Char)} (blank : ∀ line ∈ lines, isBlank line = true) :
    remaining? lines = none := by
  rw [remaining?, List.rdropWhile_eq_nil_iff.2 blank]

theorem remaining?_text {front below : List (List Char)} {last : List Char}
    (text : isBlank last = false) (blank : ∀ line ∈ below, isBlank line = true) :
    remaining? (front ++ last :: below) = some ((joined (front ++ [last])).rdropWhile isGap) := by
  rw [remaining?, rdropWhile_append_cons text blank]
  cases front <;> rfl

theorem rdropWhile_eq_self_iff (line : List Char) :
    line.rdropWhile isGap = line ↔ ∀ c ∈ line.getLast?, isGap c = false := by
  rw [List.rdropWhile_eq_self_iff]
  constructor
  · intro ends c last
    obtain ⟨front, rfl⟩ := List.getLast?_eq_some_iff.1 last
    simpa using ends (by simp)
  · intro ends filled
    simpa using ends _ (List.getLast?_eq_some_getLast filled)

theorem remaining?_eq_joined_iff (lines : List (List Char)) :
    remaining? lines = some (joined lines) ↔ EndsInText lines := by
  rcases all_or_last isBlank lines with blank | ⟨front, last, below, rfl, text, blank⟩
  · rw [remaining?_blank blank]
    refine ⟨nofun, ?_⟩
    rintro ⟨front, last, rfl, text, -⟩
    exact absurd (text.symm.trans (blank last (by simp))) Bool.false_ne_true
  · rw [remaining?_text text blank, Option.some.injEq]
    constructor
    · intro same
      have whole := joined_append front below last
      have shorter := (List.rdropWhile_prefix isGap (joined (front ++ [last]))).length_le
      rw [whole] at same
      rw [same, List.length_append] at shorter
      -- Any line below would make the lines longer than what is left of them.
      have empty : below = [] := by
        cases below with
        | nil => rfl
        | cons line below =>
          rw [Quoted.broken_cons, List.length_cons] at shorter
          omega
      subst empty
      refine ⟨front, last, rfl, text, (rdropWhile_eq_self_iff last).1 ?_⟩
      rw [rdropWhile_joined text, joined_concat, joined_concat] at same
      simpa [broken] using same
    · rintro ⟨front', last', same, text', ends⟩
      have final : (last :: below).getLast? = some last' := by
        simpa using congrArg List.getLast? same
      rcases List.eq_nil_or_concat below with rfl | ⟨above, line, rfl⟩
      · obtain rfl : last = last' := by simpa using final
        rw [rdropWhile_joined text, (rdropWhile_eq_self_iff last).2 ends]
      · rw [List.concat_eq_append, ← List.cons_append, List.getLast?_concat, Option.some.injEq] at final
        subst final
        exact absurd (text'.symm.trans (blank line (by simp))) Bool.false_ne_true

theorem indentation_gapOf {own : List Char} (indented : ∀ c ∈ own, isGap c = true)
    (lines : List (List Char)) : indentation (gapOf lines own) = own := by
  have letters : ∀ c ∈ own.reverse, (c != '\n') = true := by
    intro c member
    rw [bne_iff_ne]
    rintro rfl
    exact absurd (indented _ (List.mem_reverse.1 member)) (by decide)
  have line : ((gapOf lines own).reverse.takeWhile (· != '\n')).reverse = own := by
    have turned : (gapOf lines own).reverse = own.reverse ++ '\n' :: (broken lines).reverse := by
      simp [gapOf]
    rw [turned, takeWhile_exact letters (by simp), List.reverse_reverse]
  rw [indentation, line, List.takeWhile_eq_self_iff.2 indented]

theorem value?_of_blank (raw : Bool) (start : List Char) (gap tag : List Char) :
    value? (.node (if raw then .nowdoc else .heredoc)
      [.token [] start, .node .ending [.token [.blank gap] tag]]) = none := by
  cases raw <;> rfl

theorem isPlain_of_bare {ts : List Tree} (bare : Each Tree.IsBare ts) : isPlain ts = true := by
  rw [isPlain, Bool.not_eq_true', List.any_eq_false]
  intro t member
  obtain ⟨text, rfl⟩ := bare t member
  nofun

theorem value?_of_body (raw : Bool) {body : List Tree} (bare : Each Tree.IsBare body)
    {indentation : List Char} (indented : ∀ c ∈ indentation, isGap c = true) (start tag : List Char)
    (below : List (List Char)) :
    value? (.node (if raw then .nowdoc else .heredoc) [.token [] start, .token [.blank []] [],
      .node .body body, .node .ending [.token [.blank (gapOf below indentation)] tag]]) =
        some (if raw then bodyText indentation (Tree.spellings body)
          else unescape none (bodyText indentation (Tree.spellings body))) := by
  have text : (Tree.node .body body).text = Tree.spellings body := Tree.text_of_bare bare
  have plain := isPlain_of_bare bare
  have own := indentation_gapOf indented below
  have parts : document? [.token [] start, .token [.blank []] [], .node .body body,
      .node .ending [.token [.blank (gapOf below indentation)] tag]] =
        some (.node .body body, indentation) := by
    simp [document?, Tree.hasKind, Tree.leading, Tree.leading?, Tree.leadings?, Trivia.text, own]
  cases raw with
  | true => simp [value?, parts, text]
  | false => simp [value?, parts, text, Tree.parts, plain]

/-! ### Literals -/

structure Enclosed (tag : List Char) (lines : List (List Char)) : Prop where
  unbroken : ∀ line ∈ lines, ∀ c ∈ line, Quoted.breaksLine c = false
  other : ∀ line ∈ lines, ¬ tag <+: line.dropWhile Quoted.isSpace

theorem mem_joined {lines : List (List Char)} {c : Char} (member : c ∈ joined lines) :
    c = '\n' ∨ ∃ line ∈ lines, c ∈ line := by
  cases lines with
  | nil => nomatch member
  | cons line lines =>
    rw [joined_cons] at member
    rcases List.mem_append.1 member with own | below
    · exact .inr ⟨line, List.mem_cons_self, own⟩
    · obtain ⟨other, inside, member⟩ := List.mem_flatMap.1 below
      exact (List.mem_cons.1 member).imp_right fun own => ⟨other, List.mem_cons_of_mem _ inside, own⟩

theorem unescape_joined {lines : List (List Char)} (plain : ∀ line ∈ lines, '\\' ∉ line) :
    unescape none ((joined lines).rdropWhile isGap) = (joined lines).rdropWhile isGap := by
  have slash : '\\' ∉ (joined lines).rdropWhile isGap := by
    intro member
    rcases mem_joined ((List.rdropWhile_prefix isGap _).subset member) with same | ⟨line, inside, member⟩
    · nomatch same
    · exact plain line inside member
  have decoded := unescape_append slash none []
  rwa [List.append_nil, unescape, List.append_nil] at decoded

section Document

variable {quote tag indentation rest : List Char} {rows : List (List Char × Bool)}

section Rows

variable (indented : ∀ c ∈ indentation, isGap c = true)
include indented

theorem isBlank_rows (blank : ∀ row ∈ rows, isBlank row.1 = true) :
    ∀ line ∈ rows.map (written indentation), isBlank line = true := by
  refine List.forall_mem_map.2 fun row member => ?_
  rw [isBlank_written indented, blank row member]

theorem goesOn_rows (enclosed : Enclosed tag (rows.map Prod.fst)) :
    ∀ line ∈ rows.map (written indentation), isBlank line = false →
      Quoted.GoesOn tag (line.dropWhile Quoted.isSpace) := by
  refine List.forall_mem_map.2 fun row member text => ⟨?_, fun c inside => ?_, ?_⟩
  · have filled : (written indentation row).dropWhile Quoted.isSpace ≠ [] := by
      rw [Ne, List.dropWhile_eq_nil_iff, ← List.all_eq_true, ← isBlank, text]
      exact Bool.false_ne_true
    exact ⟨_, _, (List.cons_head_tail filled).symm, List.head_dropWhile_not Quoted.isSpace filled⟩
  · exact unbroken_written indented (enclosed.unbroken _ (List.mem_map_of_mem member)) c
      ((List.dropWhile_suffix Quoted.isSpace).subset inside)
  · rw [isBlank_written indented] at text
    rw [written_of_text text, List.dropWhile_append_of_pos fun c member =>
      isSpace_of_isGap (indented c member)]
    exact enclosed.other _ (List.mem_map_of_mem member)

theorem not_mem_rows {c : Char} (solid : isGap c = false) (without : ∀ row ∈ rows, c ∉ row.1) :
    ∀ line ∈ rows.map (written indentation), c ∉ line := by
  refine List.forall_mem_map.2 fun row member inside => ?_
  rcases mem_written indented inside with gap | own
  · exact Bool.false_ne_true (solid.symm.trans gap)
  · exact without row member own

end Rows

theorem value?_of_rows {raw : Bool} {front below : List (List Char × Bool)} {last : List Char × Bool}
    (indented : ∀ c ∈ indentation, isGap c = true)
    (unbroken : ∀ row ∈ front ++ [last], ∀ c ∈ row.1, Quoted.breaksLine c = false)
    (constant : raw = false → ∀ row ∈ front ++ [last], '\\' ∉ row.1) (text : isBlank last.1 = false)
    (blank : ∀ row ∈ below, isBlank row.1 = true) {body : List Tree} (bare : Each Tree.IsBare body)
    (spelled : Tree.spellings body = broken ((front ++ [last]).map (written indentation)))
    (start : List Char) (gaps : List (List Char)) :
    value? (.node (if raw then .nowdoc else .heredoc) [.token [] start, .token [.blank []] [],
      .node .body body, .node .ending [.token [.blank (gapOf gaps indentation)] tag]]) =
        remaining? ((front ++ last :: below).map Prod.fst) := by
  have left : remaining? ((front ++ last :: below).map Prod.fst) =
      some ((joined ((front ++ [last]).map Prod.fst)).rdropWhile isGap) := by
    rw [List.map_append, List.map_cons, remaining?_text text (List.forall_mem_map.2 blank),
      List.map_append, List.map_singleton]
  rw [value?_of_body raw bare indented, spelled, bodyText_written indented unbroken text, left]
  cases raw with
  | true => rfl
  | false => exact congrArg some (unescape_joined (List.forall_mem_map.2 (constant rfl)))

section Read

variable (word : Quoted.Closing tag) (quoted : quote ∈ Quoted.quotes)
  (closed : Quoted.closes (quote == ['\x27']) tag rest = true)
  (indented : ∀ c ∈ indentation, isGap c = true)
include word quoted closed indented

theorem document_left_of_blank (blank : ∀ row ∈ rows, isBlank row.1 = true) (inner : Inner) :
    ∃ t, Quoted.document inner (Quoted.opener quote tag ++
        Quoted.upTo (rows.map (written indentation)) indentation (tag ++ rest)) = some ([t], rest) ∧
      value? t = remaining? (rows.map Prod.fst) := by
  have space : ∀ c ∈ indentation, Quoted.isSpace c = true := fun c member =>
    isSpace_of_isGap (indented c member)
  refine ⟨_, Quoted.document_reads_blank word quoted closed space inner (isBlank_rows indented blank), ?_⟩
  rw [value?_of_blank, remaining?_blank (List.forall_mem_map.2 blank)]

theorem document_left_of_text {front below : List (List Char × Bool)} {last : List Char × Bool}
    (enclosed : Enclosed tag ((front ++ [last]).map Prod.fst))
    (constant : quote ≠ ['\x27'] → ∀ row ∈ front ++ [last], '\\' ∉ row.1 ∧ '$' ∉ row.1)
    (text : isBlank last.1 = false) (blank : ∀ row ∈ below, isBlank row.1 = true) (inner : Inner) :
    ∃ t, Quoted.document inner (Quoted.opener quote tag ++ Quoted.upTo
        ((front ++ last :: below).map (written indentation)) indentation (tag ++ rest)) =
          some ([t], rest) ∧
      value? t = remaining? ((front ++ last :: below).map Prod.fst) := by
  have split : ∀ lines, (front ++ last :: lines).map (written indentation) =
      front.map (written indentation) ++ written indentation last :: lines.map (written indentation) :=
    fun lines => by rw [List.map_append, List.map_cons]
  have space : ∀ c ∈ indentation, Quoted.isSpace c = true := fun c member =>
    isSpace_of_isGap (indented c member)
  have goes := goesOn_rows indented enclosed
  have slash := fun other row member => (constant other row member).1
  have dollar := fun other row member => (constant other row member).2
  have constant' := fun other line member =>
    And.intro (not_mem_rows indented rfl (slash other) line member)
      (not_mem_rows indented rfl (dollar other) line member)
  have ends : isBlank (written indentation last) = false := by rw [isBlank_written indented, text]
  rw [split] at goes constant'
  obtain ⟨body, read, bare, spelled⟩ := Quoted.document_reads_body word quoted closed space inner goes
    constant' ends (isBlank_rows indented blank)
  rw [split]
  refine ⟨_, read,
    value?_of_rows indented ?_ (fun raw => slash (ne_of_beq_false raw)) text blank bare ?_ _ _⟩
  · exact fun row member => enclosed.unbroken _ (List.mem_map_of_mem member)
  · rw [spelled, split, List.map_nil]

end Read

/-- Lines between two words, each indented like the closing word, are read as one tree, whatever follows
them. Its value is what is left of the lines: nothing without text, else the lines down to the last one
with text, without the blanks behind it. So the value is all lines joined exactly if the last one has
text and no blank behind it. Raw lines and lines with insertions have the same value. -/
theorem document_keeps_lines_iff (word : Quoted.Closing tag) (quoted : quote ∈ Quoted.quotes)
    (closed : Quoted.closes (quote == ['\x27']) tag rest = true)
    (indented : ∀ c ∈ indentation, isGap c = true) (enclosed : Enclosed tag (rows.map Prod.fst))
    (constant : quote ≠ ['\x27'] → ∀ row ∈ rows, '\\' ∉ row.1 ∧ '$' ∉ row.1) (inner : Inner) :
    let lines := rows.map Prod.fst
    ∃ t, Quoted.document inner (Quoted.opener quote tag ++
        Quoted.upTo (rows.map (written indentation)) indentation (tag ++ rest)) = some ([t], rest) ∧
      value? t = remaining? lines ∧ (value? t = some (joined lines) ↔ EndsInText lines) := by
  intro lines
  suffices left : ∃ t, Quoted.document inner (Quoted.opener quote tag ++
      Quoted.upTo (rows.map (written indentation)) indentation (tag ++ rest)) = some ([t], rest) ∧
        value? t = remaining? lines by
    obtain ⟨t, read, value⟩ := left
    exact ⟨t, read, value, by rw [value, remaining?_eq_joined_iff]⟩
  rcases all_or_last (isBlank ∘ Prod.fst) rows with blank | ⟨front, last, below, rfl, text, blank⟩
  · exact document_left_of_blank word quoted closed indented blank inner
  · have part : front ++ [last] ⊆ front ++ last :: below :=
      List.IsPrefix.subset ⟨below, by rw [List.append_assoc, List.singleton_append]⟩
    have kept : Enclosed tag ((front ++ [last]).map Prod.fst) :=
      ⟨fun line member => enclosed.unbroken line (List.map_subset _ part member),
        fun line member => enclosed.other line (List.map_subset _ part member)⟩
    exact document_left_of_text word quoted closed indented kept
      (fun other row member => constant other row (part member)) text blank inner

end Document

/-- Blanks behind a line, an empty line and a line that is indented more than the closing word. -/
def threeRows : List (List Char × Bool) :=
  [("first ".toList, false), ([], true), ("  second".toList, false)]

theorem threeRows_kept :
    Quoted.Closing "EOT".toList ∧ Enclosed "EOT".toList (threeRows.map Prod.fst) ∧
    (∀ row ∈ threeRows, '\\' ∉ row.1 ∧ '$' ∉ row.1) ∧
    ∃ t u, Quoted.document ⟨fun _ => failure, failure⟩
        "<<<'EOT'\n\t first \n\n\t   second\n\t EOT);".toList = some ([t], [')', ';']) ∧
      Quoted.document ⟨fun _ => failure, failure⟩
        "<<<EOT\n\t first \n\n\t   second\n\t EOT);".toList = some ([u], [')', ';']) ∧
      value? t = some "first \n\n  second".toList ∧ value? u = value? t := by
  have word : Quoted.Closing "EOT".toList := ⟨by decide, by simp [Quoted.inTag]⟩
  have enclosed : Enclosed "EOT".toList (threeRows.map Prod.fst) :=
    ⟨by simp [threeRows, Quoted.breaksLine], by simp [threeRows, Quoted.isSpace]⟩
  have constant : ∀ row ∈ threeRows, '\\' ∉ row.1 ∧ '$' ∉ row.1 := by simp [threeRows]
  have ends : EndsInText (threeRows.map Prod.fst) :=
    ⟨["first ".toList, []], "  second".toList, rfl, by decide, by simp [isGap]⟩
  have indented : ∀ c ∈ ['\t', ' '], isGap c = true := by simp [isGap]
  have reads := fun quote (quoted : quote ∈ Quoted.quotes)
    (closed : Quoted.closes (quote == ['\x27']) "EOT".toList [')', ';'] = true) =>
      document_keeps_lines_iff word quoted closed indented enclosed (fun _ => constant)
        ⟨fun _ => failure, failure⟩
  obtain ⟨t, read, -, value⟩ := reads ['\x27'] (by decide) (by decide)
  obtain ⟨u, read', -, value'⟩ := reads [] (by decide) (by decide)
  exact ⟨word, enclosed, constant, t, u, read, read', value.2 ends,
    (value'.2 ends).trans (value.2 ends).symm⟩

/-- Lines with a blank behind the last one with text, and an empty line at the end. -/
def cutShort : String := "<?php Collection::computed('a', <<<'EOT'\nabc \n\nEOT);"

/-- The blank and the empty line at the end are missing from the handle. -/
theorem cutShort_loses_its_end :
    cutShort.toList = "<?php Collection::computed('a', ".toList ++
      (Quoted.opener ['\x27'] "EOT".toList ++ Quoted.upTo ["abc ".toList, []] [] "EOT);".toList) ∧
    joined ["abc ".toList, []] = "abc \n".toList ∧
    (ComputedField.ofSource cutShort).toOption.map (·.map Field.handle) = some ["abc"] := by
  refine ⟨?_, ?_, ?_⟩ <;> decide +kernel

end BlueprintSchema.Script.Literal
