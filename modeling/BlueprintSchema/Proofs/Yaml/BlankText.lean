import BlueprintSchema.Text.Blank
import BlueprintSchema.Yaml.Document

/-! Blank text holds no collection: its only tokens are plain scalars, so what it denotes, if it
denotes anything, is no mapping. Reading a scalar only moves forward in the text, which keeps the text
ahead blank. Main statement: `Yaml.parse_ne_mapping_of_isAllBlank`. -/

namespace BlueprintSchema.Yaml

namespace Cursor

variable (k : Cursor)

theorem suffix_skip : k.skip.rest <:+ k.rest := List.tail_suffix _

theorem suffix_skipMany (n : Nat) : (k.skipMany n).rest <:+ k.rest := by
  induction n generalizing k with
  | zero => exact List.suffix_rfl
  | succ n ih => exact (ih k.skip).trans k.suffix_skip

theorem suffix_skipWhile (p : Char → Bool) : (k.skipWhile p).rest <:+ k.rest :=
  k.suffix_skipMany _

theorem suffix_readBreak : k.readBreak.2.rest <:+ k.rest := by
  obtain ⟨rest, index, line, column⟩ := k
  unfold readBreak
  split
  · next r h => exact h ▸ ⟨['\r', '\n'], rfl⟩
  · next c r _ h =>
    have tail : r <:+ rest := ⟨[c], h.symm⟩
    split
    · exact tail
    · split
      · exact tail
      · exact List.suffix_rfl
  · exact List.suffix_rfl

def AllBlank : Prop := ∀ c ∈ k.rest, Text.isBlank c = true

variable {k}

theorem AllBlank.of_suffix {j : Cursor} (h : k.AllBlank) (s : j.rest <:+ k.rest) : j.AllBlank :=
  fun c hc => h c (s.subset hc)

theorem AllBlank.peek {c : Char} (h : k.AllBlank) (hc : k.peek? = some c) :
    Text.isBlank c = true :=
  h c (List.mem_of_mem_head? hc)

theorem AllBlank.isMarker {d : Char} (h : k.AllBlank) (hd : Text.isBlank d = false) :
    k.isMarker d = false := by
  have other : k.isAt 0 d = false := by
    rw [isAt, peekAt?, beq_eq_false_iff_ne]
    intro found
    rw [h d (List.mem_of_getElem? found)] at hd
    nomatch hd
  simp [Cursor.isMarker, other]

end Cursor

namespace Token

open Cursor

theorem suffix_readGap {indent : Option Int} {fuel : Nat} {g g' : Gap} {k k' : Cursor}
    (h : readGap indent fuel g k = some (g', k')) : k'.rest <:+ k.rest := by
  fun_induction readGap indent fuel g k with
  | case1 => cases h; exact List.suffix_rfl
  | case2 => nomatch h
  | case3 _ _ k _ _ _ _ _ ih => exact (ih h).trans k.suffix_skip
  | case4 _ _ k _ _ _ _ _ ih => exact (ih h).trans k.suffix_skip
  | case5 _ _ k _ _ _ _ _ _ hb _ ih => exact (ih h).trans (by simpa [hb] using k.suffix_readBreak)
  | case6 _ _ k _ _ _ _ _ _ hb _ ih => exact (ih h).trans (by simpa [hb] using k.suffix_readBreak)
  | case7 => cases h; exact List.suffix_rfl
  | case8 => cases h; exact List.suffix_rfl

theorem suffix_readPlainRun {inFlow : Bool} {fuel : Nat} {acc run : List Char} {k k' : Cursor}
    (h : readPlainRun inFlow fuel acc k = some (run, k')) : k'.rest <:+ k.rest := by
  fun_induction readPlainRun inFlow fuel acc k with
  | case1 => cases h; exact List.suffix_rfl
  | case2 => cases h; exact List.suffix_rfl
  | case3 => cases h; exact List.suffix_rfl
  | case4 => nomatch h
  | case5 => cases h; exact List.suffix_rfl
  | case6 _ _ k _ _ _ _ _ ih => exact (ih h).trans k.suffix_skip

theorem suffix_readPlain {inFlow : Bool} {indent : Int} {fuel : Nat} {g : Gap}
    {acc text : List Char} {broken : Bool} {k k' : Cursor}
    (h : readPlain inFlow indent fuel g acc k = some (text, broken, k')) : k'.rest <:+ k.rest := by
  fun_induction readPlain inFlow indent fuel g acc k with
  | case1 => cases h; exact List.suffix_rfl
  | case2 => cases h; exact List.suffix_rfl
  | case3 => nomatch h
  | case4 => nomatch h
  | case5 _ _ _ _ _ _ _ hr _ _ _ _ _ _ hg _ =>
    cases h
    exact (suffix_readGap hg).trans (suffix_readPlainRun hr)
  | case6 _ _ _ _ _ _ _ hr _ _ _ _ _ _ hg _ ih =>
    exact (ih h).trans ((suffix_readGap hg).trans (suffix_readPlainRun hr))
  | case7 _ _ _ _ _ _ _ hr =>
    cases h
    exact suffix_readPlainRun hr

def IsPlain (t : Token) : Prop := t = .streamEnd ∨ ∃ text, t = .scalar text true

namespace LexState

theorem skipToToken_spec (fuel : Nat) (s : LexState) :
    (skipToToken fuel s).cursor.rest <:+ s.cursor.rest ∧ (skipToToken fuel s).tokens = s.tokens ∧
      (skipToToken fuel s).indents = s.indents := by
  induction fuel generalizing s with
  | zero => exact ⟨List.suffix_rfl, rfl, rfl⟩
  | succ fuel ih =>
    have mark : ∀ (b : Bool) (k : Cursor), (if b then k.skip else k).rest <:+ k.rest := by
      intro b k
      cases b
      · exact List.suffix_rfl
      · exact k.suffix_skip
    have comment : ∀ (b : Bool) (k : Cursor),
        (if b then k.skipLineText else k).rest <:+ k.rest := by
      intro b k
      cases b
      · exact List.suffix_rfl
      · exact k.suffix_skipWhile _
    unfold skipToToken
    extract_lets k₁ k₂ k₃
    have here : k₃.rest <:+ s.cursor.rest :=
      (comment _ k₂).trans ((k₁.suffix_skipWhile _).trans (mark _ s.cursor))
    split
    · obtain ⟨rest, tokens, indents⟩ :=
        ih { s with cursor := k₃.readBreak.2, keyAllowed := s.keyAllowed || !s.inFlow }
      exact ⟨rest.trans (k₃.suffix_readBreak.trans here), tokens, indents⟩
    · exact ⟨here, rfl, rfl⟩

structure OnBlank (s : LexState) : Prop where
  ahead : s.cursor.AllBlank
  tokens : ∀ t ∈ s.tokens, IsPlain t
  indents : s.indents = []

theorem onBlank_initial {s : List Char} (h : ∀ c ∈ s, Text.isBlank c = true) :
    (initial s).OnBlank :=
  ⟨h, fun t ht => by simp [initial] at ht, rfl⟩

theorem OnBlank.push {s s' : LexState} (h : s.OnBlank) {t : Token} (ht : IsPlain t)
    (ahead : s'.cursor.AllBlank) (tokens : s'.tokens = s.tokens.push t)
    (indents : s'.indents = s.indents) : s'.OnBlank where
  ahead := ahead
  tokens u hu := by
    rw [tokens, Array.mem_push] at hu
    rcases hu with hu | rfl
    · exact h.tokens u hu
    · exact ht
  indents := indents.trans h.indents

theorem OnBlank.unindentTo {s : LexState} (h : s.OnBlank) (column : Int) :
    s.unindentTo column = s := by
  rw [LexState.unindentTo, h.indents]
  split <;> rfl

theorem dropStaleAll_spec {s s' : LexState} (h : s.dropStaleAll = some s') :
    s'.cursor = s.cursor ∧ s'.tokens = s.tokens ∧ s'.indents = s.indents := by
  simp only [dropStaleAll, Option.bind_eq_bind, Option.bind_eq_some_iff, Option.some.injEq] at h
  obtain ⟨_, _, _, _, rfl⟩ := h
  exact ⟨rfl, rfl, rfl⟩

theorem removeCandidate_spec {s s' : LexState} (h : s.removeCandidate = some s') :
    s'.cursor = s.cursor ∧ s'.tokens = s.tokens ∧ s'.indents = s.indents := by
  unfold removeCandidate at h
  split at h
  · split at h
    · nomatch h
    · cases h
      exact ⟨rfl, rfl, rfl⟩
  · cases h
    exact ⟨rfl, rfl, rfl⟩

theorem saveCandidate_spec {s s' : LexState} (h : s.saveCandidate = some s') :
    s'.cursor = s.cursor ∧ s'.tokens = s.tokens ∧ s'.indents = s.indents := by
  unfold saveCandidate at h
  split at h
  · simp only [Option.bind_eq_bind, Option.bind_eq_some_iff, Option.some.injEq] at h
    obtain ⟨r, hr, rfl⟩ := h
    have kept := removeCandidate_spec hr
    exact kept
  · cases h
    exact ⟨rfl, rfl, rfl⟩

theorem OnBlank.fetchEnd {s s' : LexState} (h : s.OnBlank) (run : s.fetchEnd = some s') :
    s'.OnBlank := by
  simp only [LexState.fetchEnd, h.unindentTo, Option.bind_eq_bind, Option.bind_eq_some_iff,
    Option.some.injEq] at run
  obtain ⟨r, hr, rfl⟩ := run
  obtain ⟨cursor, tokens, indents⟩ := removeCandidate_spec hr
  exact h.push (.inl rfl) (cursor ▸ h.ahead) (by rw [tokens]) indents

theorem OnBlank.fetchPlain {s s' : LexState} (h : s.OnBlank) (run : s.fetchPlain = some s') :
    s'.OnBlank := by
  simp only [LexState.fetchPlain, Option.bind_eq_bind, Option.bind_eq_some_iff,
    Option.some.injEq] at run
  obtain ⟨r, hr, ⟨text, broken, k⟩, read, rfl⟩ := run
  obtain ⟨cursor, tokens, indents⟩ := saveCandidate_spec hr
  have ahead : k.AllBlank := h.ahead.of_suffix (cursor ▸ suffix_readPlain read)
  exact h.push (.inr ⟨_, rfl⟩) ahead (by rw [emit, tokens]) indents

/-- On blank text every token is a plain scalar or the end: no blank is an indicator. -/
theorem OnBlank.fetch {s s' : LexState} (h : s.OnBlank) (run : s.fetch = some s') :
    s'.OnBlank := by
  simp only [LexState.fetch, Option.bind_eq_bind, Option.bind_eq_some_iff] at run
  obtain ⟨r, stale, run⟩ := run
  obtain ⟨suffix, tokens, indents⟩ := skipToToken_spec (s.cursor.rest.length + 1) s
  obtain ⟨cursor', tokens', indents'⟩ := dropStaleAll_spec stale
  have hr : r.OnBlank :=
    ⟨h.ahead.of_suffix (cursor' ▸ suffix), by rw [tokens', tokens]; exact h.tokens,
      by rw [indents', indents, h.indents]⟩
  rw [hr.unindentTo] at run
  cases next : r.cursor.peek? with
  | none =>
    rw [next] at run
    exact hr.fetchEnd run
  | some c =>
    -- No indicator is a blank, so nothing but a plain scalar starts here.
    have blank := hr.ahead.peek next
    have other : ∀ d, Text.isBlank d = false → (c == d) = false := by
      intro d hd
      rw [beq_eq_false_iff_ne]
      rintro rfl
      rw [blank] at hd
      nomatch hd
    have dash := hr.ahead.isMarker (d := '-') (by decide)
    have dot := hr.ahead.isMarker (d := '.') (by decide)
    simp only [next, other '%' (by decide), dash, dot, other '[' (by decide),
      other '\x7b' (by decide), other ']' (by decide), other '\x7d' (by decide),
      other ',' (by decide), other '-' (by decide), other '?' (by decide), other ':' (by decide),
      other '*' (by decide), other '&' (by decide), other '!' (by decide), other '|' (by decide),
      other '>' (by decide), other '\'' (by decide), other '"' (by decide), Bool.and_false,
      Bool.false_and, Bool.false_eq_true, if_false] at run
    split at run
    · exact hr.fetchPlain run
    · nomatch run

theorem OnBlank.run {fuel : Nat} {s : LexState} {ts : List Token} (h : s.OnBlank)
    (run : s.run fuel = some ts) : ∀ t ∈ ts, IsPlain t := by
  induction fuel generalizing s with
  | zero => nomatch run
  | succ fuel ih =>
    unfold LexState.run at run
    split at run
    · nomatch run
    · next s' hs =>
      have next := h.fetch hs
      split at run
      · cases run
        exact fun t ht => next.tokens t (Array.mem_toList_iff.1 ht)
      · exact ih next run

end LexState

theorem isPlain_of_ofText? {s : List Char} {ts : List Token} (h : ∀ c ∈ s, Text.isBlank c = true)
    (read : ofText? s = some ts) : ∀ t ∈ ts, IsPlain t := by
  unfold ofText? at read
  split at read
  · exact (LexState.onBlank_initial h).run read
  · nomatch read

end Token

theorem Event.ofTokens?_of_isPlain {ts : List Token} {es : List Event}
    (h : ∀ t ∈ ts, Token.IsPlain t) (read : ofTokens? ts = some es) :
    es = [] ∨ ∃ text, es = [.scalar ⟨none, none⟩ text true] := by
  cases ts with
  | nil => nomatch read
  | cons t r =>
    rcases h t List.mem_cons_self with rfl | ⟨text, rfl⟩
    · simp only [ofTokens?] at read
      split at read
      · exact .inl (Option.some.inj read).symm
      · nomatch read
    · simp only [ofTokens?, readNode, readProperties] at read
      split at read
      · exact .inr ⟨text, (Option.some.inj read).symm⟩
      · nomatch read

theorem Node.ofEvents?_scalar (text : String) :
    ofEvents? [.scalar ⟨none, none⟩ text true] = some (.scalar none text true) := by
  have fuel : (maxDepth + 2) * 3 = 389 + 1 := rfl
  simp [ofEvents?, numberAnchors, anchorOf, steps, fuel, readNode]

theorem Node.value?_plain {text : String} {v : Value}
    (h : (Node.scalar none text true).value? = some v) (entries : Mapping) :
    v ≠ .mapping entries := by
  simp only [value?, scalarValue?, Option.bind_none, Scalar.form?, if_true, Option.bind_some] at h
  rintro rfl
  cases form : Scalar.resolve text <;> simp [form, Scalar.Form.value?] at h

theorem parse_ne_mapping_of_isAllBlank {s : String} {v : Value} (blank : Text.isAllBlank s = true)
    (read : parse s = some v) (entries : Mapping) : v ≠ .mapping entries := by
  simp only [parse, Node.ofText?, Option.bind_eq_bind, Option.bind_eq_some_iff] at read
  obtain ⟨node, ⟨ts, tokens, es, events, nodes⟩, value⟩ := read
  have plain := Token.isPlain_of_ofText? (List.all_eq_true.1 blank) tokens
  rcases Event.ofTokens?_of_isPlain plain events with rfl | ⟨text, rfl⟩
  · cases nodes
    exact Node.value?_plain value entries
  · rw [Node.ofEvents?_scalar] at nodes
    cases nodes
    exact Node.value?_plain value entries

end BlueprintSchema.Yaml
