import BlueprintSchema.ComputedField
import BlueprintSchema.Proofs.Script.Addresses
import BlueprintSchema.Proofs.Script.Grammar
import Mathlib.Data.Prod.Lex

/-! Which calls of a script register which handles, and in which order. Calls stand at addresses, so
one statement covers calls in classes, closures and the arguments of other calls. An element of an array
names a handle by its key or else by its value, but not where markup between them passes for a part of
the element. Main statement: `ComputedField.ofScript_registrations`. -/

namespace BlueprintSchema

namespace Text

theorem occursIn_iff {needle hay : List Char} : occursIn needle hay = true ↔ needle <:+: hay := by
  induction hay with
  | nil => simp [occursIn]
  | cons c rest ih => simp [occursIn, List.infix_cons_iff, ih]

theorem dropWhile_eq_iff {c : Char} {s w : List Char} (other : w.head? ≠ some c) :
    s.dropWhile (· == c) = w ↔ ∃ n, s = List.replicate n c ++ w := by
  constructor
  · rintro rfl
    refine ⟨(s.takeWhile (· == c)).length, ?_⟩
    have copies : s.takeWhile (· == c) = List.replicate (s.takeWhile (· == c)).length c :=
      List.eq_replicate_length.2 fun d member => by
        simpa using List.all_eq_true.1 List.all_takeWhile d member
    rw [← copies, List.takeWhile_append_dropWhile]
  · rintro ⟨n, rfl⟩
    have stays : w.dropWhile (· == c) = w := by
      cases w with
      | nil => rfl
      | cons d w => exact List.dropWhile_cons_of_neg (by simpa using other)
    rw [List.dropWhile_append_of_pos (by simp), stays]

end Text

namespace ComputedField

open Blueprint (Address)
open Script Script.Tree

/-- The text before `::` names the facade; blanks at its ends and backslashes at its start do not
count. -/
def NamesFacade (scope : List Char) : Prop :=
  ∃ name ∈ ["Collection", "Statamic\\Facades\\Collection"], ∃ n,
    Text.trimChars scope = List.replicate n '\\' ++ name.toList

theorem isFacade_iff {scope : List Char} : isFacade scope = true ↔ NamesFacade scope := by
  have unslashed : ∀ name ∈ facadeClasses, name.toList.head? ≠ some '\\' := by decide
  have cut : Text.dropLeading '\\' (Text.trim (String.ofList scope)) =
      String.ofList ((Text.trimChars scope).dropWhile (· == '\\')) := by
    simp [Text.dropLeading, Text.trim]
  rw [isFacade, List.contains_iff_mem, cut, NamesFacade]
  constructor
  · intro member
    refine ⟨_, member, ?_⟩
    rw [String.toList_ofList]
    have other := unslashed _ member
    rw [String.toList_ofList] at other
    exact (Text.dropWhile_eq_iff other).1 rfl
  · rintro ⟨name, member, same⟩
    rw [(Text.dropWhile_eq_iff (unslashed name member)).2 same, String.ofList_toList]
    exact member

/-! ### Elements -/

/-- How many parts of an element there seem to be besides its key: every piece of markup in front of the
arrow or the value seems to be one, and a value taken by reference does not. -/
def partsAfterKey (arrow value : Tree) : Nat :=
  (markupBefore arrow).length + (markupBefore value).length +
    if value.hasKind .reference then 0 else 1

/-- An element names a handle: by its key if that is a constant string, and else by its value. Between a
key and a value no markup may stand. -/
inductive ElementNames : List Tree → List Char → Prop
  | value {value : Tree} {handle : List Char} :
    Literal.value? value = some handle → ElementNames [value] handle
  | key {key arrow value : Tree} {handle : List Char} : partsAfterKey arrow value ≤ 1 →
    Literal.value? key = some handle → ElementNames [key, arrow, value] handle
  | keyed {key arrow value : Tree} {handle : List Char} : partsAfterKey arrow value ≤ 1 →
    Literal.value? key = none → Literal.value? value = some handle →
      ElementNames [key, arrow, value] handle

theorem ofElement_single (value : Tree) : ofElement [value] = Literal.value? value := by
  cases value with
  | token => rfl
  | node kind parts =>
    by_cases reference : kind = .reference
    · subst reference
      rfl
    · simp [ofElement, elementParts, reference]

theorem elementParts_keyed {key arrow value : Tree} (k : key.IsExpression) (a : arrow.IsToken)
    (v : value.IsExpression ∨ value.hasKind .reference = true) :
    elementParts [key, arrow, value] = some key ::
      (List.replicate ((markupBefore arrow).length + (markupBefore value).length) none ++
        if value.hasKind .reference then [] else [some value]) := by
  obtain ⟨kind, parts, rfl, expression⟩ := k
  obtain ⟨before, text, rfl⟩ := a
  have plain : kind ≠ .reference := by
    rintro rfl
    nomatch expression
  rw [← List.replicate_append_replicate, List.append_assoc]
  cases value with
  | token => rcases v with ⟨_, _, no, _⟩ | no <;> nomatch no
  | node kind' parts' =>
    by_cases reference : kind' = .reference <;>
      simp [elementParts, Tree.hasKind, plain, reference, List.map_const']

theorem ofElement_keyed {key arrow value : Tree} (k : key.IsExpression) (a : arrow.IsToken)
    (v : value.IsExpression ∨ value.hasKind .reference = true) :
    ofElement [key, arrow, value] =
      if partsAfterKey arrow value ≤ 1 then (Literal.value? key).or (Literal.value? value)
      else none := by
  rw [ofElement, elementParts_keyed k a v, partsAfterKey]
  generalize (markupBefore arrow).length + (markupBefore value).length = pieces
  -- One piece of markup is harmless where the value is a reference, which is no part itself.
  by_cases reference : value.hasKind .reference = true
  · have unnamed : Literal.value? value = none := by
      cases value with
      | token => rfl
      | node kind parts =>
        obtain rfl : kind = .reference := by simpa [Tree.hasKind] using reference
        rfl
    rcases pieces with _ | _ | pieces <;> simp [reference, unnamed, List.replicate_succ]
  · rcases pieces with _ | pieces <;> simp [reference, List.replicate_succ]

theorem ofElement_eq_some_iff {parts : List Tree} {handle : List Char} (form : Form .element parts) :
    ofElement parts = some handle ↔ ElementNames parts handle := by
  cases form with
  | single =>
    rw [ofElement_single]
    constructor
    · exact .value
    · rintro ⟨named⟩
      exact named
  | keyed k a v =>
    rw [ofElement_keyed k a v]
    constructor
    · intro named
      split at named
      · next intact =>
        rcases Option.or_eq_some_iff.1 named with named | ⟨unnamed, named⟩
        · exact .key intact named
        · exact .keyed intact unnamed named
      · nomatch named
    · intro named
      cases named with
      | key intact named => rw [if_pos intact, named]; rfl
      | keyed intact unnamed named => rw [if_pos intact, unnamed, named]; rfl
  | free no => nomatch no

/-! ### Values -/

/-- A value names handles, each with a number: a constant string names one, and an array those that its
elements name, by their places among the elements. -/
inductive Names : Tree → Nat → List Char → Prop
  | string {value : Tree} {handle : List Char} :
    Literal.value? value = some handle → Names value 0 handle
  | element {parts element : List Tree} {i : Nat} {handle : List Char} :
    (parts.filter (Tree.hasKind .element))[i]? = some (.node .element element) →
      ElementNames element handle → Names (.node .array parts) i handle

def named : Tree → List (Nat × List Char)
  | .node .array parts => (parts.filter (Tree.hasKind .element)).zipIdx.filterMap fun (e, i) =>
      (ofElement e.parts).map (i, ·)
  | value => (Literal.value? value).toList.map (0, ·)

theorem ofArgument_eq {argument value : Tree} (last : argument.parts.getLast? = some value) :
    ofArgument argument = (named value).map Prod.snd := by
  cases value with
  | token => simp [ofArgument, last, named, Literal.value?]
  | node kind parts =>
    cases kind with
    | array =>
      have places := List.zipIdx_map_fst 0 (parts.filter (Tree.hasKind .element))
      simp only [ofArgument, last, named, List.map_filterMap, Option.map_map, Function.comp_def,
        Option.map_id']
      conv => lhs; rw [← places, List.filterMap_map]
      rfl
    | _ => simp [ofArgument, last, named]

theorem exists_of_hasKind {t : Tree} {kind : Kind} (h : t.hasKind kind = true) :
    ∃ parts, t = .node kind parts := by
  cases t with
  | token => nomatch h
  | node k parts =>
    obtain rfl : k = kind := by simpa [Tree.hasKind] using h
    exact ⟨parts, rfl⟩

theorem mem_named {value : Tree} (shaped : value.Shaped) {i : Nat} {handle : List Char} :
    (i, handle) ∈ named value ↔ Names value i handle := by
  unfold named
  split
  · next parts =>
    have elements : ∀ {e}, e ∈ parts.filter (Tree.hasKind .element) →
        ∃ ps, e = .node .element ps ∧ Form .element ps := by
      intro e member
      obtain ⟨inside, kind⟩ := List.mem_filter.1 member
      obtain ⟨ps, rfl⟩ := exists_of_hasKind kind
      exact ⟨ps, rfl, (shaped_node.1 ((shaped_node.1 shaped).2 _ inside)).1⟩
    simp only [List.mem_filterMap, Prod.exists, List.mem_zipIdx_iff_getElem?, Option.map_eq_some_iff,
      Prod.mk.injEq]
    constructor
    · rintro ⟨e, _, found, _, given, rfl, rfl⟩
      obtain ⟨ps, rfl, form⟩ := elements (List.mem_of_getElem? found)
      exact .element found ((ofElement_eq_some_iff form).1 given)
    · rintro (unquoted | ⟨found, given⟩)
      · nomatch unquoted
      · obtain ⟨_, ⟨⟩, form⟩ := elements (List.mem_of_getElem? found)
        exact ⟨_, i, found, handle, (ofElement_eq_some_iff form).2 given, rfl, rfl⟩
  · next other =>
    simp only [List.mem_map, Option.mem_toList, Prod.mk.injEq]
    constructor
    · rintro ⟨_, given, rfl, rfl⟩
      exact .string given
    · rintro (given | _)
      · exact ⟨handle, given, rfl, rfl⟩
      · exact absurd rfl (other _)

theorem pairwise_named (value : Tree) : (named value).Pairwise fun a b => a.1 < b.1 := by
  unfold named
  split
  · refine List.pairwise_filterMap.2 ((pairwise_zipIdx _).imp fun {p q} less a ha b hb => ?_)
    obtain ⟨_, -, rfl⟩ := Option.map_eq_some_iff.1 ha
    obtain ⟨_, -, rfl⟩ := Option.map_eq_some_iff.1 hb
    exact less
  · cases Literal.value? value <;> simp

/-! ### Calls -/

/-- A call registers the handles that a value names: it calls `computed` on the facade, and the value is
the last part of its second argument. -/
inductive Registers (call : List Tree) (value : Tree) : Prop
  | intro {scope method arguments front : List Tree} :
    .node .scope scope ∈ call → NamesFacade (Script.Tree.node .scope scope).text →
      .node .method method ∈ call → (Script.Tree.node .method method).text = "computed".toList →
        .node .arguments arguments ∈ call →
          (arguments.filter (Tree.hasKind .argument))[1]? = some (.node .argument (front ++ [value])) →
            Registers call value

def registered? (call : List Tree) : Option Tree := do
  let scope ← call.find? (Tree.hasKind .scope)
  let method ← call.find? (Tree.hasKind .method)
  let arguments ← call.find? (Tree.hasKind .arguments)
  if isFacade scope.text && method.text = registrationMethod.toList then
    let argument ← (arguments.parts.filter (Tree.hasKind .argument))[1]?
    argument.parts.getLast?
  else none

theorem node_mem_call {call : List Tree} (form : Form .staticCall call) :
    ∃ scope method arguments, ∀ kind parts, .node kind parts ∈ call ↔
      (kind, parts) ∈ [(Kind.scope, scope), (.method, method), (.arguments, arguments)] := by
  cases form with
  | @staticCall scope link before method after arguments isToken b a =>
    refine ⟨[scope], method, arguments, fun kind parts => ?_⟩
    have apart : ∀ {t : Tree}, t.IsToken → .node kind parts ≠ t := by
      rintro _ ⟨_, _, rfl⟩ same
      nomatch same
    have other : ∀ {ts : List Tree}, Each Tree.IsToken ts → .node kind parts ∉ ts :=
      fun tokens member => apart (tokens _ member) rfl
    simp [apart isToken, other b, other a]
  | free no => nomatch no

theorem find?_hasKind {call parts : List Tree} {kind : Kind} (here : .node kind parts ∈ call)
    (only : ∀ qs, .node kind qs ∈ call → qs = parts) :
    call.find? (Tree.hasKind kind) = some (.node kind parts) := by
  cases found : call.find? (Tree.hasKind kind) with
  | none =>
    have none := List.find?_eq_none.1 found _ here
    simp [Tree.hasKind] at none
  | some t =>
    have member := List.mem_of_find?_eq_some found
    have kinds := List.find?_some found
    obtain ⟨qs, rfl⟩ := exists_of_hasKind kinds
    rw [only qs member]

section Call

variable {call : List Tree} (form : Form .staticCall call)
include form

theorem find?_call : ∃ scope method arguments,
    call.find? (Tree.hasKind .scope) = some (.node .scope scope) ∧
    call.find? (Tree.hasKind .method) = some (.node .method method) ∧
    call.find? (Tree.hasKind .arguments) = some (.node .arguments arguments) ∧
    ∀ kind parts, .node kind parts ∈ call ↔
      (kind, parts) ∈ [(Kind.scope, scope), (.method, method), (.arguments, arguments)] := by
  obtain ⟨scope, method, arguments, nodes⟩ := node_mem_call form
  refine ⟨scope, method, arguments, ?_, ?_, ?_, nodes⟩ <;>
    refine find?_hasKind ((nodes _ _).2 (by simp)) fun qs here => ?_ <;>
      simpa using (nodes _ _).1 here

theorem ofCall_eq :
    ofCall call = (registered? call).toList.flatMap fun value => (named value).map Prod.snd := by
  obtain ⟨scope, method, arguments, foundScope, foundMethod, foundArguments, -⟩ := find?_call form
  have parts : (Script.Tree.node .arguments arguments).parts = arguments := rfl
  simp only [ofCall, registered?, foundScope, foundMethod, foundArguments, Option.bind_eq_bind,
    Option.bind_some, parts]
  split
  · cases (arguments.filter (Tree.hasKind .argument))[1]? with
    | none => rfl
    | some argument =>
      cases last : argument.parts.getLast? with
      | none => simp [ofArgument, last]
      | some value => simp [ofArgument_eq last, last]
  · rfl

theorem registered?_eq_some_iff {value : Tree} :
    registered? call = some value ↔ Registers call value := by
  obtain ⟨scope, method, arguments, foundScope, foundMethod, foundArguments, nodes⟩ := find?_call form
  have parts : (Script.Tree.node .arguments arguments).parts = arguments := rfl
  simp only [registered?, foundScope, foundMethod, foundArguments, Option.bind_eq_bind,
    Option.bind_some, parts]
  constructor
  · intro found
    split at found
    · next conditions =>
      obtain ⟨facade, computed⟩ := by simpa using conditions
      obtain ⟨argument, second, last⟩ := Option.bind_eq_some_iff.1 found
      obtain ⟨-, kind⟩ := List.mem_filter.1 (List.mem_of_getElem? second)
      obtain ⟨parts, rfl⟩ := exists_of_hasKind kind
      obtain ⟨front, rfl⟩ := List.getLast?_eq_some_iff.1 last
      exact .intro ((nodes _ _).2 (by simp)) (isFacade_iff.1 facade) ((nodes _ _).2 (by simp)) computed
        ((nodes _ _).2 (by simp)) second
    · nomatch found
  · rintro ⟨scopeHere, facade, methodHere, computed, argumentsHere, second⟩
    obtain rfl := by simpa using (nodes _ _).1 scopeHere
    obtain rfl := by simpa using (nodes _ _).1 methodHere
    obtain rfl := by simpa using (nodes _ _).1 argumentsHere
    rw [if_pos (by simpa [isFacade_iff] using ⟨facade, computed⟩)]
    exact Option.bind_eq_some_iff.2 ⟨_, second, List.getLast?_concat⟩

end Call

/-! ### Scripts -/

theorem shaped_at? {t u : Tree} {a : Address} (shaped : t.Shaped) (found : t.at? a = some u) :
    u.Shaped := by
  induction a generalizing t with
  | nil =>
    cases found
    exact shaped
  | cons i a ih =>
    obtain ⟨v, part, inside⟩ := Option.bind_eq_some_iff.1 found
    cases t with
    | token => nomatch part
    | node kind parts => exact ih ((shaped_node.1 shaped).2 v (List.mem_of_getElem? part)) inside

theorem Registers.shaped {call : List Tree} {value : Tree} (h : Registers call value)
    (shaped : Each Tree.Shaped call) : value.Shaped := by
  obtain ⟨-, -, -, -, arguments, second⟩ := h
  have argument := (List.mem_filter.1 (List.mem_of_getElem? second)).1
  have inside := (shaped_node.1 (shaped _ arguments)).2 _ argument
  exact (shaped_node.1 inside).2 value (by simp)

/-- The handles that the calls of a tree register, each under the address of its call and its number
there. -/
def registrations (t : Tree) : List ((Address × Nat) × String) :=
  t.addressed.flatMap fun (a, kind, parts) =>
    if kind = .staticCall then
      ((registered? parts).toList.flatMap named).map fun (i, handle) => ((a, i), String.ofList handle)
    else []

variable {t : Tree}

theorem map_registrations (shaped : t.Shaped) : (registrations t).map Prod.snd = handles t := by
  rw [handles, ← map_addressed t, registrations, List.map_flatMap, List.flatMap_map]
  refine List.flatMap_congr fun (a, kind, parts) member => ?_
  dsimp only
  split
  · next call =>
    subst call
    have form : Form .staticCall parts := shaped _ (map_addressed t ▸ List.mem_map_of_mem member)
    rw [ofCall_eq form]
    simp [List.map_flatMap, Function.comp_def]
  · rfl

theorem mem_registrations (shaped : t.Shaped) {a : Address} {i : Nat} {handle : String} :
    ((a, i), handle) ∈ registrations t ↔ ∃ call value,
      t.at? a = some (.node .staticCall call) ∧ Registers call value ∧ Names value i handle.toList := by
  have parts : ∀ {b call}, t.at? b = some (.node .staticCall call) →
      Form .staticCall call ∧ Each Tree.Shaped call := fun found =>
    shaped_node.1 (shaped_at? shaped found)
  rw [registrations, List.mem_flatMap]
  constructor
  · rintro ⟨⟨b, kind, call⟩, member, inside⟩
    obtain ⟨rfl, inside⟩ := List.mem_ite_nil_right.1 inside
    have found := mem_addressed.1 member
    obtain ⟨form, below⟩ := parts found
    obtain ⟨⟨j, letters⟩, given, same⟩ := List.mem_map.1 inside
    obtain ⟨value, registers, given⟩ := List.mem_flatMap.1 given
    cases same
    have registers := (registered?_eq_some_iff form).1 (Option.mem_toList.1 registers)
    refine ⟨call, value, found, registers, ?_⟩
    rw [String.toList_ofList]
    exact (mem_named (registers.shaped below)).1 given
  · rintro ⟨call, value, found, registers, names⟩
    obtain ⟨form, below⟩ := parts found
    have given := (mem_named (registers.shaped below)).2 names
    refine ⟨(a, .staticCall, call), mem_addressed.2 found, List.mem_ite_nil_right.2 ⟨rfl, ?_⟩⟩
    refine List.mem_map.2 ⟨(i, handle.toList), List.mem_flatMap.2 ⟨value, ?_, given⟩, ?_⟩
    · exact Option.mem_toList.2 ((registered?_eq_some_iff form).2 registers)
    · simp

theorem pairwise_registrations (t : Tree) :
    (registrations t).Pairwise fun r s => Prod.Lex (· < ·) (· < ·) r.1 s.1 := by
  refine List.pairwise_flatMap.2 ⟨fun (a, kind, parts) _ => ?_, ?_⟩
  · dsimp only
    split
    · refine List.pairwise_map.2 ?_
      cases registered? parts with
      | none => exact .nil
      | some value =>
        rw [Option.toList_some, List.flatMap_singleton]
        exact (pairwise_named value).imp fun less => .right _ less
    · exact .nil
  · refine (increasing_addressed t).imp fun {p q} less r hr s hs => ?_
    obtain ⟨-, hr⟩ := List.mem_ite_nil_right.1 hr
    obtain ⟨-, hs⟩ := List.mem_ite_nil_right.1 hs
    obtain ⟨_, -, rfl⟩ := List.mem_map.1 hr
    obtain ⟨_, -, rfl⟩ := List.mem_map.1 hs
    exact .left _ _ less

theorem registrations_of_unmentioned (shaped : t.Shaped)
    (unmentioned : ¬ registrationMethod.toList <:+: t.spelling) : registrations t = [] := by
  refine List.eq_nil_iff_forall_not_mem.2 fun ((a, i), handle) member => unmentioned ?_
  obtain ⟨call, value, found, ⟨-, -, method, computed, -, -⟩, -⟩ := (mem_registrations shaped).1 member
  rw [show registrationMethod.toList = _ from computed.symm]
  exact ((text_infix_spelling _).trans (infix_of_mem method)).trans (infix_of_at? found)

/-- The computed fields of a script are those that its calls register, in the order of the calls and,
within one, of the values that name them: an outer call before those in its arguments. -/
theorem ofScript_registrations {path source : String} {t : Tree} (read : parse? source = some t) :
    ∃ found : List ((Address × Nat) × String),
      ofScript path source = .ok (found.map fun r => Field.computed r.2) ∧
      found.Pairwise (fun r s => Prod.Lex (· < ·) (· < ·) r.1 s.1) ∧
      ∀ a i handle, ((a, i), handle) ∈ found ↔ ∃ call value,
        t.at? a = some (.node .staticCall call) ∧ Registers call value ∧
          Names value i handle.toList := by
  have shaped := shaped_of_parse? read
  refine ⟨registrations t, ?_, pairwise_registrations t, fun a i handle => mem_registrations shaped⟩
  have fields : (registrations t).map (fun r => Field.computed r.2) = (handles t).map Field.computed := by
    rw [← map_registrations shaped, List.map_map]
    rfl
  -- A script that does not mention the method is not read; no call in it could register anything.
  unfold ofScript
  split
  · rw [read, fields]
  · next unmentioned =>
    rw [Text.occursIn_iff, ← spelling_of_parse? read] at unmentioned
    rw [registrations_of_unmentioned shaped unmentioned]
    rfl

/-- A call in the array of another, as the value of a key that is no constant, and after it an element
whose constant key gives a handle to the outer call. -/
def nestedCalls : String :=
  "<?php Collection::computed($a, [\"$x\" => Collection::computed($b, 'in'), 'k' => &$v]);"

theorem inner_handle_after_outer :
    ∃ t, parse? nestedCalls = some t ∧ ∃ found : List ((Address × Nat) × String),
      ofScript "a.php" nestedCalls = .ok (found.map fun r => Field.computed r.2) ∧
      found.Pairwise (fun r s => Prod.Lex (· < ·) (· < ·) r.1 s.1) ∧
      found.map Prod.snd = ["k", "in"] := by
  obtain ⟨t, read⟩ := Option.isSome_iff_exists.1
    (show (parse? nestedCalls).isSome = true by decide +kernel)
  obtain ⟨found, fields, ordered, -⟩ := @ofScript_registrations "a.php" _ _ read
  refine ⟨t, read, found, fields, ordered, ?_⟩
  have handles : (ofScript "a.php" nestedCalls).toOption.map (·.map Field.handle) =
      some ["k", "in"] := by decide +kernel
  rw [fields] at handles
  simpa [Except.toOption, Function.comp_def, Field.computed] using handles

def keyBeforeMarkup : String := "<?php Collection::computed('a', ['k' ?> x <?php => 1]);"

/-- An element of a registering call with a constant string as its key may name nothing: markup before
the arrow takes the place of the value. -/
theorem key_lost_to_markup :
    ∃ t call parts key arrow value, parse? keyBeforeMarkup = some t ∧
      t.at? [1, 0] = some (.node .staticCall call) ∧ Registers call (.node .array parts) ∧
      .node .element [key, arrow, value] ∈ parts ∧ Literal.value? key = some ['k'] ∧
      ofSource keyBeforeMarkup = .ok [] := by
  have seen : (parse? keyBeforeMarkup).any (fun t => (t.at? [1, 0]).any fun call =>
      call.hasKind .staticCall && (registered? call.parts).any fun array =>
        array.hasKind .array && array.parts.any fun element =>
          element.hasKind .element && (element.parts.length == 3 &&
            element.parts.head?.bind Literal.value? == some ['k'])) = true := by
    decide +kernel
  have fields : ((ofSource keyBeforeMarkup).toOption.map List.isEmpty) = some true := by decide +kernel
  simp only [Option.any_eq_true, List.any_eq_true, Bool.and_eq_true, beq_iff_eq] at seen
  obtain ⟨t, read, call, found, isCall, array, registers, isArray, element, inside, isElement, three,
    named⟩ := seen
  obtain ⟨call, rfl⟩ := exists_of_hasKind isCall
  obtain ⟨parts, rfl⟩ := exists_of_hasKind isArray
  obtain ⟨parts', rfl⟩ := exists_of_hasKind isElement
  obtain ⟨key, arrow, value, rfl⟩ := List.length_eq_three.1 three
  have form := (shaped_node.1 (shaped_at? (shaped_of_parse? read) found)).1
  refine ⟨t, call, parts, key, arrow, value, read, found, (registered?_eq_some_iff form).1 registers,
    inside, named, ?_⟩
  cases result : ofSource keyBeforeMarkup with
  | error => simp [result, Except.toOption] at fields
  | ok fs => simpa [result, Except.toOption] using fields

end ComputedField

end BlueprintSchema
