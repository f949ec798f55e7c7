import BlueprintSchema.Proofs.TypeText

/-! Whether null is among the values of a type can be read off its written form. The bars outside of
angle brackets cut the written form into those of the alternatives, however deep these are nested in
unions; what stands in brackets is never cut, so no argument of an array or a generic class counts. A
union without members leaves an empty piece. Main statement: `SemanticType.isNullable_iff_part`. -/

namespace BlueprintSchema

namespace Text

def openBehind (depth : Nat) (c : Char) : Nat :=
  if c = '<' then depth + 1 else if c = '>' then depth - 1 else depth

/-- Text cut at the bars outside of all angle brackets, if so many brackets are open before it. -/
def cutAtBars : Nat → List Char → List (List Char)
  | _, [] => [[]]
  | depth, c :: rest =>
    if c = '|' ∧ depth = 0 then [] :: cutAtBars 0 rest
    else (cutAtBars (openBehind depth c) rest).modifyHead (c :: ·)

def parts (s : String) : List String := (cutAtBars 0 s.toList).map String.ofList

theorem mem_parts_iff {part s : String} : part ∈ parts s ↔ part.toList ∈ cutAtBars 0 s.toList := by
  rw [parts, List.mem_map]
  constructor
  · rintro ⟨piece, member, rfl⟩
    rwa [String.toList_ofList]
  · intro member
    exact ⟨part.toList, member, String.ofList_toList⟩

/-- Text that stays in one piece, whatever follows it, if so many brackets are open before it. -/
def Uncut (depth : Nat) (s : List Char) : Prop :=
  ∀ rest, cutAtBars depth (s ++ rest) = (cutAtBars depth rest).modifyHead (s ++ ·)

theorem uncut_nil (depth : Nat) : Uncut depth [] := by
  intro rest
  rw [List.nil_append]
  cases cutAtBars depth rest <;> rfl

theorem Uncut.append {depth : Nat} {s s' : List Char} (h : Uncut depth s) (h' : Uncut depth s') :
    Uncut depth (s ++ s') := by
  intro rest
  rw [List.append_assoc, h, h', List.modifyHead_modifyHead]
  congr 1
  funext piece
  exact (List.append_assoc s s' piece).symm

theorem uncut_bar (depth : Nat) : Uncut (depth + 1) ['|'] := by
  intro rest
  rw [List.singleton_append, cutAtBars, if_neg (by simp)]
  rfl

theorem uncut_of_unmarked {s : List Char} (unmarked : ∀ c ∈ s, c ∉ ['|', '<', '>']) (depth : Nat) :
    Uncut depth s := by
  induction s with
  | nil => exact uncut_nil depth
  | cons c s ih =>
    obtain ⟨here, unmarked⟩ := List.forall_mem_cons.1 unmarked
    obtain ⟨noBar, noOpening, noClosing⟩ : c ≠ '|' ∧ c ≠ '<' ∧ c ≠ '>' := by simpa using here
    have single : Uncut depth [c] := by
      intro rest
      have same : openBehind depth c = depth := by simp [openBehind, noOpening, noClosing]
      rw [List.singleton_append, cutAtBars, if_neg (by simp [noBar]), same]
      rfl
    exact single.append (ih unmarked)

theorem Uncut.bracketed {depth : Nat} {s : List Char} (inside : Uncut (depth + 1) s) :
    Uncut depth ('<' :: s ++ ['>']) := by
  intro rest
  have up : openBehind depth '<' = depth + 1 := rfl
  have down : openBehind (depth + 1) '>' = depth := rfl
  rw [List.append_assoc, List.cons_append, List.singleton_append, cutAtBars, if_neg (by simp), up,
    inside, cutAtBars, if_neg (by simp), down, List.modifyHead_modifyHead, List.modifyHead_modifyHead]
  congr 1
  funext piece
  simp

theorem Uncut.pieces {s : List Char} (uncut : Uncut 0 s) : cutAtBars 0 s = [s] := by
  simpa [cutAtBars] using uncut []

/-- A bar behind the text cuts, as no bracket is left open. -/
def Closed (s : List Char) : Prop :=
  ∀ rest, cutAtBars 0 (s ++ '|' :: rest) = cutAtBars 0 s ++ cutAtBars 0 rest

theorem closed_nil : Closed [] := fun _ => rfl

theorem Uncut.closed {s : List Char} (uncut : Uncut 0 s) : Closed s := by
  intro rest
  rw [uncut, uncut.pieces]
  simp [cutAtBars]

theorem Closed.join {s s' : List Char} (h : Closed s) (h' : Closed s') : Closed (s ++ '|' :: s') := by
  intro rest
  rw [List.append_assoc, List.cons_append, h, h', h, List.append_assoc]

end Text

namespace SemanticType

mutual

def classNames : SemanticType → List String
  | object c => [c]
  | union members => classNamesOf members
  | array k v => classNames k ++ classNames v
  | generic c args => c :: classNamesOf args
  | _ => []

def classNamesOf : List SemanticType → List String
  | [] => []
  | t :: ts => classNames t ++ classNamesOf ts

end

theorem classNames_subset_of_mem {t : SemanticType} {ts : List SemanticType} (h : t ∈ ts) :
    t.classNames ⊆ classNamesOf ts := by
  induction ts with
  | nil => nomatch h
  | cons u ts ih =>
    rw [classNamesOf]
    rcases List.mem_cons.1 h with rfl | h
    · exact List.subset_append_left _ _
    · exact List.Subset.trans (ih h) (List.subset_append_right _ _)

theorem classNames_subset_of_arguments {t a : SemanticType} {args : List SemanticType}
    (given : t.arguments? = some args) (h : a ∈ args) : a.classNames ⊆ t.classNames := by
  cases t with
  | array k v =>
    rw [arguments?] at given
    split at given
    · cases given
    · cases given
      rw [List.mem_cons, List.mem_singleton] at h
      rcases h with rfl | rfl
      · exact List.subset_append_left _ _
      · exact List.subset_append_right _ _
  | generic c args' =>
    cases given
    exact List.Subset.trans (classNames_subset_of_mem h) (List.subset_cons_self _ _)
  | _ => cases given

structure ReadsAsClass (className : String) : Prop where
  unmarked : ∀ c ∈ className.toList, c ∉ ['|', '<', '>']
  ne_null : className ≠ "null"
  ne_mixed : className ≠ "mixed"

instance (className : String) : Decidable (ReadsAsClass className) :=
  decidable_of_iff (className.toList.all (fun c => decide (c ∉ ['|', '<', '>'])) = true ∧
      className ≠ "null" ∧ className ≠ "mixed")
    ⟨fun ⟨a, b, c⟩ => ⟨by simpa using a, b, c⟩, fun ⟨a, b, c⟩ => ⟨by simpa using a, b, c⟩⟩

def Named (t : SemanticType) : Prop := ∀ c ∈ t.classNames, ReadsAsClass c

theorem Named.argument {t a : SemanticType} {args : List SemanticType} (named : t.Named)
    (given : t.arguments? = some args) (h : a ∈ args) : a.Named :=
  fun c member => named c (classNames_subset_of_arguments given h member)

theorem Named.member {m : SemanticType} {ms : List SemanticType} (named : (union ms).Named)
    (h : m ∈ ms) : m.Named :=
  fun c member => named c (classNames_subset_of_mem h member)

theorem Named.word_unmarked {t : SemanticType} (named : t.Named) :
    ∀ c ∈ t.word.toList, c ∉ ['|', '<', '>'] := by
  cases t with
  | object c => exact (named c List.mem_cons_self).unmarked
  | generic c args => exact (named c List.mem_cons_self).unmarked
  | _ => simp [word, carbonClass]

@[elab_as_elim]
theorem induction_on_parts {P : SemanticType → Prop} (t : SemanticType)
    (single : ∀ t : SemanticType, t.isUnion = false →
      (∀ args, t.arguments? = some args → ∀ a ∈ args, P a) → P t)
    (union : ∀ ms, (∀ m ∈ ms, P m) → P (union ms)) : P t := by
  cases kind : t.isUnion with
  | false =>
    refine single t kind fun args given a h => ?_
    have smaller := sizeOf_lt_of_arguments given h
    exact induction_on_parts a single union
  | true =>
    cases t with
    | union ms =>
      refine union ms fun m h => ?_
      have smaller := List.sizeOf_lt_of_mem h
      exact induction_on_parts m single union
    | _ => nomatch kind
termination_by sizeOf t

/-! ### Cutting the written form -/

theorem chars_union (m : SemanticType) (ms : List SemanticType) :
    (union (m :: ms)).chars = m.chars ++ charsBehind ['|'] ms :=
  chars_of_members rfl

theorem uncut_charsBehind {depth : Nat} {separator : List Char} {ts : List SemanticType}
    (between : Text.Uncut depth separator) (h : ∀ t ∈ ts, Text.Uncut depth t.chars) :
    Text.Uncut depth (charsBehind separator ts) := by
  induction ts with
  | nil => exact Text.uncut_nil depth
  | cons t ts ih =>
    obtain ⟨here, rest⟩ := List.forall_mem_cons.1 h
    rw [charsBehind, List.flatMap_cons]
    exact (between.append here).append (ih rest)

theorem Named.uncut_of_arguments {t : SemanticType} (named : t.Named) (single : t.isUnion = false)
    {depth : Nat}
    (h : ∀ args, t.arguments? = some args → ∀ a ∈ args, Text.Uncut (depth + 1) a.chars) :
    Text.Uncut depth t.chars := by
  have comma : Text.Uncut (depth + 1) [',', ' '] := Text.uncut_of_unmarked (by simp) _
  rw [chars_eq single]
  refine (Text.uncut_of_unmarked named.word_unmarked depth).append ?_
  cases given : t.arguments? with
  | none => exact Text.uncut_nil depth
  | some args =>
    refine Text.Uncut.bracketed ?_
    cases args with
    | nil => exact Text.uncut_nil _
    | cons a args =>
      obtain ⟨here, rest⟩ := List.forall_mem_cons.1 (h _ given)
      exact here.append (uncut_charsBehind comma rest)

theorem Named.uncut_inside {t : SemanticType} (named : t.Named) (depth : Nat) :
    Text.Uncut (depth + 1) t.chars := by
  induction t using induction_on_parts generalizing depth with
  | single t single ih =>
    exact named.uncut_of_arguments single fun args given a h =>
      ih args given a h (named.argument given h) (depth + 1)
  | union ms ih =>
    cases ms with
    | nil => exact Text.uncut_nil _
    | cons m ms =>
      obtain ⟨here, rest⟩ := List.forall_mem_cons.1 fun m h => ih m h (named.member h) depth
      rw [chars_union]
      exact here.append (uncut_charsBehind (Text.uncut_bar depth) rest)

theorem Named.uncut {t : SemanticType} (named : t.Named) (single : t.isUnion = false) :
    Text.Uncut 0 t.chars :=
  named.uncut_of_arguments single fun _ given _ h => (named.argument given h).uncut_inside 0

theorem cut_joined {t : SemanticType} {ts : List SemanticType}
    (closed : ∀ u ∈ t :: ts, Text.Closed u.chars) :
    Text.cutAtBars 0 (t.chars ++ charsBehind ['|'] ts) =
      (t :: ts).flatMap (fun u => Text.cutAtBars 0 u.chars) ∧
    Text.Closed (t.chars ++ charsBehind ['|'] ts) := by
  induction ts generalizing t with
  | nil => simpa [charsBehind] using closed
  | cons u ts ih =>
    obtain ⟨here, rest⟩ := List.forall_mem_cons.1 closed
    obtain ⟨pieces, closedRest⟩ := ih rest
    have split : t.chars ++ charsBehind ['|'] (u :: ts) =
        t.chars ++ '|' :: (u.chars ++ charsBehind ['|'] ts) := by simp [charsBehind]
    rw [split, here, pieces]
    exact ⟨rfl, here.join closedRest⟩

theorem Named.closed {t : SemanticType} (named : t.Named) : Text.Closed t.chars := by
  induction t using induction_on_parts with
  | single t single _ => exact (named.uncut single).closed
  | union ms ih =>
    cases ms with
    | nil => exact Text.closed_nil
    | cons m ms =>
      rw [chars_union]
      exact (cut_joined fun u h => ih u h (named.member h)).2

/-! ### Alternatives -/

/-- A type that is no union is an alternative of itself, and of every union that has a member of which
it is one. -/
inductive Alternative (a : SemanticType) : SemanticType → Prop
  | self : a.isUnion = false → Alternative a a
  | member {m : SemanticType} {ms : List SemanticType} :
    m ∈ ms → Alternative a m → Alternative a (union ms)

theorem Alternative.single {a t : SemanticType} (h : Alternative a t) : a.isUnion = false := by
  induction h with
  | self single => exact single
  | member _ _ ih => exact ih

theorem Alternative.named {a t : SemanticType} (h : Alternative a t) (named : t.Named) : a.Named := by
  induction h with
  | self => exact named
  | member member _ ih => exact ih (named.member member)

theorem alternative_iff_eq {a t : SemanticType} (single : t.isUnion = false) :
    Alternative a t ↔ a = t := by
  constructor
  · rintro (_ | _)
    · rfl
    · nomatch single
  · rintro rfl
    exact .self single

theorem alternative_union_iff {a : SemanticType} {ms : List SemanticType} :
    Alternative a (union ms) ↔ ∃ m ∈ ms, Alternative a m := by
  constructor
  · rintro (single | ⟨member, below⟩)
    · nomatch single
    · exact ⟨_, member, below⟩
  · rintro ⟨m, member, below⟩
    exact .member member below

theorem anyNullable_iff {ts : List SemanticType} :
    anyNullable ts = true ↔ ∃ t ∈ ts, t.isNullable = true := by
  induction ts with
  | nil => simp [anyNullable]
  | cons t ts ih => simp [anyNullable, ih]

theorem isNullable_iff_alternative {t : SemanticType} :
    t.isNullable = true ↔ ∃ a, Alternative a t ∧ (a = null ∨ a = mixed) := by
  induction t using induction_on_parts with
  | single t single _ =>
    simp only [alternative_iff_eq single, exists_eq_left]
    cases t <;> simp_all [isNullable, isUnion]
  | union ms ih =>
    rw [isNullable, anyNullable_iff]
    constructor
    · rintro ⟨m, member, nullable⟩
      obtain ⟨a, below, isNull⟩ := (ih m member).1 nullable
      exact ⟨a, .member member below, isNull⟩
    · rintro ⟨a, below, isNull⟩
      obtain ⟨m, member, below⟩ := alternative_union_iff.1 below
      exact ⟨m, member, (ih m member).2 ⟨a, below, isNull⟩⟩

theorem Named.mem_pieces_iff {t : SemanticType} (named : t.Named) {piece : List Char}
    (filled : piece ≠ []) :
    piece ∈ Text.cutAtBars 0 t.chars ↔ ∃ a, Alternative a t ∧ a.chars = piece := by
  induction t using induction_on_parts with
  | single t single _ =>
    rw [(named.uncut single).pieces, List.mem_singleton]
    simp only [alternative_iff_eq single, exists_eq_left]
    exact eq_comm
  | union ms ih =>
    cases ms with
    | nil =>
      have empty : Text.cutAtBars 0 (union []).chars = [[]] := rfl
      simp [empty, filled, alternative_union_iff]
    | cons m ms =>
      rw [chars_union, (cut_joined fun u h => (named.member h).closed).1, List.mem_flatMap]
      constructor
      · rintro ⟨u, member, inside⟩
        obtain ⟨a, below, written⟩ := (ih u member (named.member member)).1 inside
        exact ⟨a, .member member below, written⟩
      · rintro ⟨a, below, written⟩
        obtain ⟨u, member, below⟩ := alternative_union_iff.1 below
        exact ⟨u, member, (ih u member (named.member member)).2 ⟨a, below, written⟩⟩

theorem Named.text_iff {t : SemanticType} (named : t.Named) (single : t.isUnion = false) :
    (t.text = "null" ↔ t = null) ∧ (t.text = "mixed" ↔ t = mixed) := by
  have apart : ∀ {s : String}, '<' ∈ t.text.toList → '<' ∉ s.toList → t.text ≠ s :=
    fun inside outside same => outside (same ▸ inside)
  cases t with
  | union => nomatch single
  | object c =>
    have reads := named c List.mem_cons_self
    simp [text, reads.ne_null, reads.ne_mixed]
  | array k v =>
    by_cases both : (k.isMixed && v.isMixed) = true
    · simp [text, both]
    · have inside : '<' ∈ (array k v).text.toList := by simp [text, both]
      simp [apart inside]
  | generic c args =>
    have inside : '<' ∈ (generic c args).text.toList := by simp [text]
    simp [apart inside]
  | _ => simp [text, carbonClass]

theorem Named.mem_parts_iff {t : SemanticType} (named : t.Named) {part : String} (filled : part ≠ "") :
    part ∈ Text.parts t.text ↔ ∃ a, Alternative a t ∧ a.text = part := by
  have letters : part.toList ≠ [] := fun none => filled (String.toList_eq_nil_iff.1 none)
  rw [Text.mem_parts_iff]
  refine (named.mem_pieces_iff letters).trans ?_
  simp only [chars, String.toList_inj]

/-- A type allows null just if one of the parts of its written form between the bars is `null` or
`mixed`. Arguments of arrays and of generic classes do not count; null in a union is one of its
alternatives, however deep. -/
theorem isNullable_iff_part {t : SemanticType} (named : ∀ c ∈ t.classNames, ReadsAsClass c) :
    (t.isNullable = true ↔ ∃ part ∈ Text.parts t.text, part = "null" ∨ part = "mixed") ∧
    (t.isNullable = true ↔ Alternative null t ∨ Alternative mixed t) ∧
    (∀ k v, (array k v).isNullable = false) ∧ ∀ c args, (generic c args).isNullable = false := by
  have named : t.Named := named
  refine ⟨isNullable_iff_alternative.trans ⟨?_, ?_⟩, isNullable_iff_alternative.trans ⟨?_, ?_⟩,
    fun _ _ => rfl, fun _ _ => rfl⟩
  · rintro ⟨a, below, isNull⟩
    have reads := (below.named named).text_iff below.single
    have filled : a.text ≠ "" := by rcases isNull with rfl | rfl <;> decide
    exact ⟨a.text, (named.mem_parts_iff filled).2 ⟨a, below, rfl⟩, isNull.imp reads.1.2 reads.2.2⟩
  · rintro ⟨part, member, isNull⟩
    have filled : part ≠ "" := by rcases isNull with rfl | rfl <;> decide
    obtain ⟨a, below, rfl⟩ := (named.mem_parts_iff filled).1 member
    have reads := (below.named named).text_iff below.single
    exact ⟨a, below, isNull.imp reads.1.1 reads.2.1⟩
  · rintro ⟨a, below, rfl | rfl⟩
    · exact .inl below
    · exact .inr below
  · rintro (below | below)
    · exact ⟨null, below, .inl rfl⟩
    · exact ⟨mixed, below, .inr rfl⟩

/-- Null and the unknown type as arguments, and an empty union, beside an alternative deep in unions. -/
def nested (last : SemanticType) : SemanticType :=
  union [union [object "App\\Bag", union []],
    union [array null int, union [generic "App\\Box" [mixed, union [null, int]], last]]]

theorem only_the_last_alternative_is_null :
    (∀ c ∈ (nested null).classNames, ReadsAsClass c) ∧
    Text.parts (nested null).text =
      ["App\\Bag", "", "array<null, int>", "App\\Box<mixed, null|int>", "null"] ∧
    (nested null).isNullable = true ∧ (nested string).isNullable = false := by
  have reads : ReadsAsClass "App\\Bag" ∧ ReadsAsClass "App\\Box" := by decide
  have named : ∀ c ∈ (nested null).classNames, ReadsAsClass c := by
    simp [nested, classNames, classNamesOf, reads]
  have named' : ∀ c ∈ (nested string).classNames, ReadsAsClass c := by
    simp [nested, classNames, classNamesOf, reads]
  have shown : Text.parts (nested string).text =
      ["App\\Bag", "", "array<null, int>", "App\\Box<mixed, null|int>", "string"] := by decide
  refine ⟨named, by decide, (isNullable_iff_part named).1.2 ⟨"null", by decide, .inl rfl⟩, ?_⟩
  refine Bool.eq_false_iff.2 fun nullable => ?_
  have part := (isNullable_iff_part named').1.1 nullable
  rw [shown] at part
  simp at part

end SemanticType

end BlueprintSchema
