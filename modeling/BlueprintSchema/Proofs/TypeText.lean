import BlueprintSchema.Property

/-! The written form of a type determines the type, as long as class names hold no mark of the written
form, none of them is a word for another type, and every union has at least two members, none of them
a union. The word in front ends at the first mark; behind an opening bracket stand the arguments, each
up to a comma or the closing bracket that is its own; the members of a union are told apart by the bars
outside of brackets. Main statement: `SemanticType.text_determines_type`. -/

namespace BlueprintSchema.SemanticType

def marks : List Char := ['|', '<', '>', ',']

def typeWords : List String :=
  ["string", "bool", "int", "float", "null", "mixed", "array", carbonClass]

structure NamesClass (className : String) : Prop where
  ne_empty : className ≠ ""
  unmarked : ∀ c ∈ className.toList, c ∉ marks
  not_word : className ∉ typeWords

theorem all_unmarked_iff {s : List Char} :
    s.all (fun c => decide (c ∉ marks)) = true ↔ ∀ c ∈ s, c ∉ marks := by
  simp only [List.all_eq_true, decide_eq_true_eq]

instance (className : String) : Decidable (NamesClass className) :=
  decidable_of_iff (className ≠ "" ∧ className.toList.all (fun c => decide (c ∉ marks)) = true ∧
      className ∉ typeWords)
    ⟨fun ⟨a, b, c⟩ => ⟨a, all_unmarked_iff.1 b, c⟩, fun ⟨a, b, c⟩ => ⟨a, all_unmarked_iff.2 b, c⟩⟩

def isUnion : SemanticType → Bool
  | union _ => true
  | _ => false

mutual

/-- Class names are proper, and every union has at least two members, none of them a union. -/
def Legible : SemanticType → Prop
  | object c => NamesClass c
  | union members => 2 ≤ members.length ∧ (∀ m ∈ members, m.isUnion = false) ∧ AllLegible members
  | array k v => Legible k ∧ Legible v
  | generic c args => NamesClass c ∧ AllLegible args
  | _ => True

def AllLegible : List SemanticType → Prop
  | [] => True
  | t :: ts => Legible t ∧ AllLegible ts

end

theorem allLegible_iff {ts : List SemanticType} : AllLegible ts ↔ ∀ t ∈ ts, Legible t := by
  induction ts with
  | nil => simp [AllLegible]
  | cons t ts ih => rw [AllLegible, ih, List.forall_mem_cons]

/-! ### The parts of the written form -/

def word : SemanticType → String
  | string => "string"
  | bool => "bool"
  | int => "int"
  | float => "float"
  | date => carbonClass
  | null => "null"
  | mixed => "mixed"
  | object c => c
  | union _ => ""
  | array _ _ => "array"
  | generic c _ => c

def arguments? : SemanticType → Option (List SemanticType)
  | array k v => if k.isMixed && v.isMixed then none else some [k, v]
  | generic _ args => some args
  | _ => none

def ofWord (word : String) : Option (List SemanticType) → SemanticType
  | none =>
    match typeWords.idxOf? word with
    | some 0 => string
    | some 1 => bool
    | some 2 => int
    | some 3 => float
    | some 4 => null
    | some 5 => mixed
    | some 6 => mixedArray
    | some _ => date
    | none => object word
  | some [k, v] => if word = "array" then array k v else generic word [k, v]
  | some args => generic word args

theorem eq_mixed_of_isMixed {t : SemanticType} (h : t.isMixed = true) : t = mixed := by
  cases t <;> first | rfl | nomatch h

theorem ofWord_word {t : SemanticType} (legible : t.Legible) (single : t.isUnion = false) :
    ofWord t.word t.arguments? = t := by
  cases t with
  | union => nomatch single
  | object c =>
    have absent : typeWords.idxOf? c = none := List.idxOf?_eq_none_iff.2 legible.not_word
    simp only [arguments?, word, ofWord, absent]
  | array k v =>
    by_cases both : (k.isMixed && v.isMixed) = true
    · obtain ⟨hk, hv⟩ := Bool.and_eq_true_iff.1 both
      rw [eq_mixed_of_isMixed hk, eq_mixed_of_isMixed hv]
      rfl
    · simp [arguments?, both, word, ofWord]
  | generic c args =>
    have other : c ≠ "array" := fun same => legible.1.not_word (same ▸ by decide)
    simp only [arguments?, word]
    unfold ofWord
    split <;> simp_all
  | _ => rfl

def chars (t : SemanticType) : List Char := t.text.toList

def charsBehind (separator : List Char) (ts : List SemanticType) : List Char :=
  ts.flatMap fun t => separator ++ t.chars

theorem toList_textJoined (separator : String) (t : SemanticType) (ts : List SemanticType) :
    (textJoined separator (t :: ts)).toList = t.chars ++ charsBehind separator.toList ts := by
  induction ts generalizing t with
  | nil => simp [textJoined, chars, charsBehind]
  | cons u ts ih =>
    rw [textJoined, String.toList_append, String.toList_append, ih, charsBehind, charsBehind,
      List.flatMap_cons, chars, List.append_assoc, List.append_assoc]
    · rfl
    · nofun

def charsInside : List SemanticType → List Char
  | [] => []
  | t :: ts => t.chars ++ charsBehind [',', ' '] ts

def bracketed : Option (List SemanticType) → List Char
  | none => []
  | some args => '<' :: charsInside args ++ ['>']

theorem toList_textJoined_comma (ts : List SemanticType) :
    (textJoined ", " ts).toList = charsInside ts := by
  cases ts with
  | nil => rfl
  | cons t ts => exact toList_textJoined ", " t ts

theorem chars_eq {t : SemanticType} (single : t.isUnion = false) :
    t.chars = t.word.toList ++ bracketed t.arguments? := by
  cases t with
  | union => nomatch single
  | array k v =>
    have inside := toList_textJoined_comma [k, v]
    by_cases both : (k.isMixed && v.isMixed) = true
    · simp [chars, text, word, arguments?, bracketed, both]
    · simp [chars, text, word, arguments?, bracketed, both, charsInside, charsBehind]
  | generic c args =>
    simp [chars, text, word, arguments?, bracketed, toList_textJoined_comma]
  | _ => simp [chars, text, word, arguments?, bracketed]

/-! ### Recovering a type from its written form -/

def AtMark (rest : List Char) : Prop := ∀ c ∈ rest.head?, c ∈ marks

def EndsMember (rest : List Char) : Prop := ∀ c ∈ rest.head?, c ∈ ['|', ',', '>']

def EndsType (rest : List Char) : Prop := ∀ c ∈ rest.head?, c ∈ [',', '>']

theorem EndsType.endsMember {rest : List Char} (h : EndsType rest) : EndsMember rest :=
  fun c first => List.mem_cons_of_mem _ (h c first)

theorem word_cancel {v w r s : List Char} (hv : ∀ c ∈ v, c ∉ marks) (hw : ∀ c ∈ w, c ∉ marks)
    (hr : AtMark r) (hs : AtMark s) (h : v ++ r = w ++ s) : v = w ∧ r = s := by
  induction v generalizing w with
  | nil =>
    cases w with
    | nil => exact ⟨rfl, h⟩
    | cons c w =>
      have first : c ∈ r.head? := by rw [List.nil_append] at h; simp [h]
      exact absurd (hr c first) (hw c List.mem_cons_self)
  | cons c v ih =>
    cases w with
    | nil =>
      have first : c ∈ s.head? := by rw [List.nil_append] at h; simp [← h]
      exact absurd (hs c first) (hv c List.mem_cons_self)
    | cons d w =>
      obtain ⟨rfl, rest⟩ := List.cons.inj h
      obtain ⟨rfl, same⟩ := ih (fun c hc => hv c (List.mem_cons_of_mem _ hc))
        (fun c hc => hw c (List.mem_cons_of_mem _ hc)) rest
      exact ⟨rfl, same⟩

/-- Whenever what follows is as `stop` says, the type is the only one among some that is written so,
and where it ends is seen. -/
def Recoverable (stop : List Char → Prop) (among : SemanticType → Prop) (t : SemanticType) : Prop :=
  ∀ u r s, among u → stop r → stop s → t.chars ++ r = u.chars ++ s → t = u ∧ r = s

def Single (t : SemanticType) : Prop := t.Legible ∧ t.isUnion = false

section Joined

variable {separator : List Char} {stop last : List Char → Prop} {among : SemanticType → Prop}
  {t u : SemanticType} {ts us : List SemanticType} {r s : List Char}
  (goesOn : ∀ r, stop (separator ++ r))

include goesOn in
theorem stop_charsBehind (hr : stop r) : stop (charsBehind separator ts ++ r) := by
  cases ts with
  | nil => exact hr
  | cons t ts =>
    rw [charsBehind, List.flatMap_cons, List.append_assoc, List.append_assoc]
    exact goesOn _

variable (ends : ∀ r, last r → stop r) (apart : ∀ r, ¬ last (separator ++ r))
include goesOn ends apart

theorem charsBehind_cancel (recover : ∀ t ∈ ts, Recoverable stop among t)
    (given : ∀ u ∈ us, among u) (hr : last r) (hs : last s)
    (h : charsBehind separator ts ++ r = charsBehind separator us ++ s) : ts = us ∧ r = s := by
  induction ts generalizing us with
  | nil =>
    cases us with
    | nil => exact ⟨rfl, h⟩
    | cons u us =>
      rw [charsBehind, charsBehind, List.flatMap_nil, List.nil_append, List.flatMap_cons,
        List.append_assoc, List.append_assoc] at h
      exact absurd (h ▸ hr) (apart _)
  | cons t ts ih =>
    cases us with
    | nil =>
      rw [charsBehind, charsBehind, List.flatMap_nil, List.nil_append, List.flatMap_cons,
        List.append_assoc, List.append_assoc] at h
      exact absurd (h ▸ hs) (apart _)
    | cons u us =>
      rw [charsBehind, charsBehind, List.flatMap_cons, List.flatMap_cons, List.append_assoc,
        List.append_assoc, List.append_assoc, List.append_assoc] at h
      obtain ⟨rfl, rest⟩ := recover t List.mem_cons_self u _ _ (given u List.mem_cons_self)
        (stop_charsBehind goesOn (ends r hr)) (stop_charsBehind goesOn (ends s hs))
        (List.append_cancel_left h)
      obtain ⟨rfl, same⟩ := ih (fun t ht => recover t (List.mem_cons_of_mem _ ht))
        (fun u hu => given u (List.mem_cons_of_mem _ hu)) rest
      exact ⟨rfl, same⟩

theorem joined_cancel (recover : ∀ v ∈ t :: ts, Recoverable stop among v)
    (given : ∀ v ∈ u :: us, among v) (hr : last r) (hs : last s)
    (h : t.chars ++ charsBehind separator ts ++ r = u.chars ++ charsBehind separator us ++ s) :
    t :: ts = u :: us ∧ r = s := by
  rw [List.append_assoc, List.append_assoc] at h
  obtain ⟨rfl, rest⟩ := recover t List.mem_cons_self u _ _ (given u List.mem_cons_self)
    (stop_charsBehind goesOn (ends r hr)) (stop_charsBehind goesOn (ends s hs)) h
  obtain ⟨rfl, same⟩ := charsBehind_cancel goesOn ends apart
    (fun v hv => recover v (List.mem_cons_of_mem _ hv))
    (fun v hv => given v (List.mem_cons_of_mem _ hv)) hr hs rest
  exact ⟨rfl, same⟩

end Joined

theorem Single.word_ne_empty {t : SemanticType} (h : Single t) : t.word.toList ≠ [] := by
  have proper : ∀ {c : String}, NamesClass c → c.toList ≠ [] :=
    fun names none => names.ne_empty (String.toList_eq_nil_iff.1 none)
  obtain ⟨legible, single⟩ := h
  cases t with
  | union => nomatch single
  | object c => exact proper legible
  | generic c args => exact proper legible.1
  | _ => simp [word, carbonClass]

theorem Single.word_unmarked {t : SemanticType} (h : Single t) : ∀ c ∈ t.word.toList, c ∉ marks := by
  obtain ⟨legible, single⟩ := h
  cases t with
  | union => nomatch single
  | object c => exact NamesClass.unmarked legible
  | generic c args => exact NamesClass.unmarked legible.1
  | array k v => exact (all_unmarked_iff (s := "array".toList)).1 (by decide)
  | _ => exact all_unmarked_iff.1 (by decide)

theorem Single.arguments_legible {t : SemanticType} (h : Single t) {args : List SemanticType}
    (given : t.arguments? = some args) : ∀ a ∈ args, Legible a := by
  obtain ⟨legible, single⟩ := h
  cases t with
  | array k v =>
    rw [arguments?] at given
    split at given
    · nomatch given
    · cases given
      rw [Legible] at legible
      simpa using legible
  | generic c args' =>
    cases given
    exact allLegible_iff.1 legible.2
  | _ => nomatch given

def members : SemanticType → List SemanticType
  | union members => members
  | t => [t]

theorem members_of_single {t : SemanticType} (single : t.isUnion = false) : t.members = [t] := by
  cases t <;> first | rfl | nomatch single

theorem single_of_mem_members {t m : SemanticType} (legible : t.Legible) (h : m ∈ t.members) :
    Single m := by
  cases union : t.isUnion with
  | false =>
    rw [members_of_single union, List.mem_singleton] at h
    exact h ▸ ⟨legible, union⟩
  | true =>
    cases t with
    | union ms => exact ⟨allLegible_iff.1 legible.2.2 m h, legible.2.1 m h⟩
    | _ => nomatch union

theorem members_ne_nil {t : SemanticType} (legible : t.Legible) : t.members ≠ [] := by
  cases t with
  | union ms =>
    rintro rfl
    exact absurd legible.1 (by decide)
  | _ => exact List.cons_ne_nil _ _

theorem members_injective {t u : SemanticType} (ht : t.Legible) (hu : u.Legible)
    (same : t.members = u.members) : t = u := by
  have other : ∀ {ms : List SemanticType} {v : SemanticType}, Legible (.union ms) → v.isUnion = false →
      ms ≠ v.members := by
    rintro ms v legible single rfl
    rw [Legible, members_of_single single] at legible
    exact absurd legible.1 (Nat.lt_irrefl 1)
  cases ut : t.isUnion <;> cases uu : u.isUnion
  · rw [members_of_single ut, members_of_single uu] at same
    exact List.cons.inj same |>.1
  · cases u with
    | union ms => exact absurd same.symm (other hu ut)
    | _ => nomatch uu
  · cases t with
    | union ms => exact absurd same (other ht uu)
    | _ => nomatch ut
  · cases t with
    | union ms =>
      cases u with
      | union ns => exact congrArg union same
      | _ => nomatch uu
    | _ => nomatch ut

theorem chars_of_members {t m : SemanticType} {ms : List SemanticType} (h : t.members = m :: ms) :
    t.chars = m.chars ++ charsBehind ['|'] ms := by
  cases union : t.isUnion with
  | false =>
    rw [members_of_single union] at h
    obtain ⟨rfl, rfl⟩ := List.cons.inj h
    exact (List.append_nil _).symm
  | true =>
    cases t with
    | union members =>
      obtain rfl : members = m :: ms := h
      exact toList_textJoined "|" m ms
    | _ => nomatch union

theorem chars_eq_cons {t : SemanticType} (legible : t.Legible) :
    ∃ c cs, t.chars = c :: cs ∧ c ∉ marks := by
  obtain ⟨m, ms, split⟩ := List.exists_cons_of_ne_nil (members_ne_nil legible)
  have single := single_of_mem_members legible (split ▸ List.mem_cons_self)
  obtain ⟨c, cs, letters⟩ := List.exists_cons_of_ne_nil single.word_ne_empty
  refine ⟨c, cs ++ bracketed m.arguments? ++ charsBehind ['|'] ms, ?_, ?_⟩
  · rw [chars_of_members split, chars_eq single.2, letters]
    rfl
  · exact single.word_unmarked c (letters ▸ List.mem_cons_self)

theorem charsInside_append_ne {t : SemanticType} {ts : List SemanticType} (legible : t.Legible)
    (r s : List Char) : charsInside (t :: ts) ++ r ≠ '>' :: s := by
  obtain ⟨c, cs, letters, unmarked⟩ := chars_eq_cons legible
  rw [charsInside, letters]
  intro same
  exact absurd ((List.cons.inj same).1 ▸ unmarked) (by decide)

theorem charsInside_cancel {ts us : List SemanticType} {r s : List Char}
    (recover : ∀ t ∈ ts, Recoverable EndsType Legible t) (ht : ∀ t ∈ ts, Legible t)
    (hu : ∀ u ∈ us, Legible u) (h : charsInside ts ++ '>' :: r = charsInside us ++ '>' :: s) :
    ts = us ∧ r = s := by
  cases ts with
  | nil =>
    cases us with
    | nil => exact ⟨rfl, (List.cons.inj h).2⟩
    | cons u us => exact absurd h.symm (charsInside_append_ne (hu u List.mem_cons_self) _ _)
  | cons t ts =>
    cases us with
    | nil => exact absurd h (charsInside_append_ne (ht t List.mem_cons_self) _ _)
    | cons u us =>
      have closes : ∀ rest, rest.head? = some '>' → EndsType rest := by
        intro rest closing c first
        rw [closing] at first
        cases first
        decide
      have goesOn : ∀ r, EndsType ([',', ' '] ++ r) := fun r c first => by
        cases first
        decide
      have apart : ∀ r, ¬ ([',', ' '] ++ r).head? = some '>' := fun r => by simp
      obtain ⟨same, rest⟩ := joined_cancel goesOn closes apart recover hu rfl rfl h
      exact ⟨same, (List.cons.inj rest).2⟩

theorem atMark_bracketed {t : SemanticType} {rest : List Char} (h : EndsMember rest) :
    AtMark (bracketed t.arguments? ++ rest) := by
  intro c first
  cases args : t.arguments? with
  | none =>
    rw [args] at first
    have mark : ∀ c ∈ ['|', ',', '>'], c ∈ marks := by simp [marks]
    exact mark c (h c first)
  | some args' =>
    rw [args] at first
    cases first
    decide

theorem Single.recoverable {t : SemanticType} (ht : Single t)
    (recover : ∀ args, t.arguments? = some args → ∀ a ∈ args, Recoverable EndsType Legible a) :
    Recoverable EndsMember Single t := by
  intro u r s hu hr hs h
  have noBracket : ∀ {rest more}, EndsMember rest → rest ≠ '<' :: more := by
    rintro rest more ends rfl
    exact absurd (ends '<' rfl) (by decide)
  rw [chars_eq ht.2, chars_eq hu.2, List.append_assoc, List.append_assoc] at h
  obtain ⟨words, rest⟩ := word_cancel ht.word_unmarked hu.word_unmarked (atMark_bracketed hr)
    (atMark_bracketed hs) h
  have arguments : t.arguments? = u.arguments? ∧ r = s := by
    cases at_ : t.arguments? with
    | none =>
      cases au : u.arguments? with
      | none =>
        rw [at_, au] at rest
        exact ⟨rfl, rest⟩
      | some us =>
        rw [at_, au] at rest
        exact absurd rest (noBracket hr)
    | some ts =>
      cases au : u.arguments? with
      | none =>
        rw [at_, au] at rest
        exact absurd rest.symm (noBracket hs)
      | some us =>
        rw [at_, au] at rest
        simp only [bracketed, List.cons_append, List.append_assoc, List.nil_append] at rest
        obtain ⟨rfl, same⟩ := charsInside_cancel (recover ts at_) (ht.arguments_legible at_)
          (hu.arguments_legible au) (List.cons.inj rest).2
        exact ⟨rfl, same⟩
  refine ⟨?_, arguments.2⟩
  rw [← ofWord_word ht.1 ht.2, ← ofWord_word hu.1 hu.2, arguments.1, String.toList_inj.1 words]

theorem recoverable_of_members {t : SemanticType} (ht : t.Legible)
    (recover : ∀ m ∈ t.members, Recoverable EndsMember Single m) :
    Recoverable EndsType Legible t := by
  intro u r s hu hr hs h
  obtain ⟨m, ms, members⟩ := List.exists_cons_of_ne_nil (members_ne_nil ht)
  obtain ⟨n, ns, members'⟩ := List.exists_cons_of_ne_nil (members_ne_nil hu)
  rw [chars_of_members members, chars_of_members members'] at h
  rw [members] at recover
  have single : ∀ v ∈ n :: ns, Single v := members' ▸ fun v => single_of_mem_members hu
  have goesOn : ∀ r, EndsMember (['|'] ++ r) := fun r c first => by
    cases first
    decide
  have apart : ∀ r, ¬ EndsType (['|'] ++ r) := fun r ends => absurd (ends '|' rfl) (by decide)
  obtain ⟨same, rest⟩ := joined_cancel goesOn (fun _ => EndsType.endsMember) apart recover single hr hs h
  exact ⟨members_injective ht hu (by rw [members, members', same]), rest⟩

theorem sizeOf_lt_of_arguments {t a : SemanticType} {args : List SemanticType}
    (given : t.arguments? = some args) (h : a ∈ args) : sizeOf a < sizeOf t := by
  cases t with
  | array k v =>
    rw [arguments?] at given
    split at given
    · cases given
    · cases given
      have size : sizeOf (array k v) = 1 + sizeOf k + sizeOf v := rfl
      rw [List.mem_cons, List.mem_singleton] at h
      rcases h with rfl | rfl <;> omega
  | generic c args' =>
    cases given
    have less := List.sizeOf_lt_of_mem h
    simp
    omega
  | _ => cases given

theorem sizeOf_le_of_mem_members {t m : SemanticType} (h : m ∈ t.members) : sizeOf m ≤ sizeOf t := by
  cases t with
  | union ms =>
    have less := List.sizeOf_lt_of_mem (show m ∈ ms from h)
    simp
    omega
  | _ => exact List.mem_singleton.1 h ▸ Nat.le_refl _

/-- Every legible type is recoverable. The recursion goes down into the arguments of the members. -/
theorem Legible.recoverable {t : SemanticType} (ht : t.Legible) : Recoverable EndsType Legible t := by
  refine recoverable_of_members ht fun m member => ?_
  have single := single_of_mem_members ht member
  refine single.recoverable fun args given a inside => ?_
  have smaller := sizeOf_lt_of_arguments given inside
  have le := sizeOf_le_of_mem_members member
  exact (single.arguments_legible given a inside).recoverable
termination_by sizeOf t

theorem toJson_property (p : Property) : p.toJson =
    .object [("declaring_class", .string p.declaringClass), ("type", .string p.type.text)] := by
  have behind : ¬ "type" < "declaring_class" := by decide
  simp [Property.toJson, Json.ofMembers, Dict.place, behind]

/-- Legible types with one written form are one type, and so are the types of two properties that have
one JSON object. -/
theorem text_determines_type {t u : SemanticType} (ht : t.Legible) (hu : u.Legible) :
    (t.text = u.text → t = u) ∧
    ∀ c d, Property.toJson ⟨c, t⟩ = Property.toJson ⟨d, u⟩ → c = d ∧ t = u := by
  have determined : t.text = u.text → t = u := by
    intro same
    have ends : EndsType [] := nofun
    have letters : t.chars ++ [] = u.chars ++ [] := by rw [chars, chars, same]
    exact (ht.recoverable u [] [] hu ends ends letters).1
  refine ⟨determined, fun c d same => ?_⟩
  rw [toJson_property, toJson_property] at same
  simp only [Json.object.injEq, List.cons.injEq, Prod.mk.injEq, Json.string.injEq] at same
  exact ⟨same.1.2, determined same.2.1.2⟩

/-- Unions in unions cannot be seen. -/
example : (union [union [int, null], string]).text = (union [int, null, string]).text := by decide

/-- A union, a class without arguments and an array about which nothing is known, as arguments. -/
def shelf : SemanticType :=
  .genericOf "\\App\\Shelf" [.nullable (.array .string .date), .genericOf "App\\Empty" [], .mixedArray]

theorem shelf_determined :
    let t : SemanticType := .generic "App\\Shelf"
      [.union [.array .string .date, .null], .generic "App\\Empty" [], .array .mixed .mixed]
    (t.Legible ∧ shelf.Legible) ∧
    t.text = "App\\Shelf<array<string, Carbon\\Carbon>|null, App\\Empty<>, array>" ∧ t.text = shelf.text ∧
    t = shelf ∧ Property.toJson ⟨"Entry", t⟩ = Property.toJson ⟨"Entry", shelf⟩ := by
  intro t
  have named : NamesClass "App\\Shelf" ∧ NamesClass "App\\Empty" := by decide
  have bare : bareClass "\\App\\Shelf" = "App\\Shelf" ∧ bareClass "App\\Empty" = "App\\Empty" := by decide
  have legible : t.Legible := by simp [t, Legible, AllLegible, named, isUnion]
  have legible' : shelf.Legible := by
    simp [shelf, genericOf, nullable, mixedArray, Legible, AllLegible, named, bare, isUnion]
  have written : t.text = shelf.text := by decide
  have same : t = shelf := (text_determines_type legible legible').1 written
  exact ⟨⟨legible, legible'⟩, by decide, written, same, by rw [same]⟩

end BlueprintSchema.SemanticType
