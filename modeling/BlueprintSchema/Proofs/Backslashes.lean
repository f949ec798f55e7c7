import BlueprintSchema.ComputedField
import BlueprintSchema.Fieldtype
import BlueprintSchema.Property
import BlueprintSchema.Proofs.Text.Trimming
import BlueprintSchema.ReturnType
import BlueprintSchema.UndefinedField

/-! Backslashes in front of a class name do not matter, wherever class names are read. All readings but
one go through the bare name; the scope of a static call is trimmed before, which makes no difference as
long as the name does not start with a blank. Main statement: `spelledAlike_backslashed`. -/

namespace BlueprintSchema

def backslashed (k : Nat) (s : String) : String := String.ofList (List.replicate k '\\' ++ s.toList)

theorem bareClass_backslashed (k : Nat) (s : String) : bareClass (backslashed k s) = bareClass s := by
  have slashes : ∀ c ∈ List.replicate k '\\', (c == '\\') = true :=
    fun c member => beq_iff_eq.2 (List.eq_of_mem_replicate member)
  rw [bareClass, bareClass, Text.dropLeading, Text.dropLeading, backslashed, String.toList_ofList,
    List.dropWhile_append_of_pos slashes]

namespace ClassInfo

inductive Detail
  | ancestor (name : String)
  | displayName (name : String)

def withDetail (c : ClassInfo) : Detail → ClassInfo
  | .ancestor name => c.withAncestor name
  | .displayName name => c.withDisplayName name

def described (name : String) (details : List Detail) : ClassInfo :=
  details.foldl withDetail (ofName name)

structure Alike (c c' : ClassInfo) : Prop where
  contentType : ContentClass.contentType? c' = ContentClass.contentType? c
  has : ∀ name, Property.has c' name = Property.has c name
  property : ∀ custom name, Property.get? custom c' name = Property.get? custom c name
  check : ∀ (rule : UndefinedField) name before after line,
    rule.check ⟨name, before ++ c' :: after, line⟩ = rule.check ⟨name, before ++ c :: after, line⟩

theorem alike_of_eq {c c' : ClassInfo} (same : c' = c) : Alike c c' := by
  subst same
  exact ⟨rfl, fun _ => rfl, fun _ _ => rfl, fun _ _ _ _ _ => rfl⟩

section Described

variable {s s' : String} (same : bareClass s' = bareClass s)
include same

theorem described_name (details : List Detail) : described s' details = described s details := by
  rw [described, described, ofName, ofName, same]

theorem described_ancestor (name : String) (before after : List Detail) :
    described name (before ++ .ancestor s' :: after) =
      described name (before ++ .ancestor s :: after) := by
  have step : ∀ c : ClassInfo, c.withDetail (.ancestor s') = c.withDetail (.ancestor s) := fun c => by
    rw [withDetail, withDetail, withAncestor, withAncestor, same]
  rw [described, described, List.foldl_append, List.foldl_append, List.foldl_cons, List.foldl_cons,
    step]

end Described

end ClassInfo

theorem ReturnType.modelOfBuilder?_congr {s s' : String} (same : bareClass s' = bareClass s)
    (before after : List String) :
    modelOfBuilder? (before ++ s' :: after) = modelOfBuilder? (before ++ s :: after) := by
  simp only [modelOfBuilder?, List.findSome?_append, List.findSome?_cons, same]

theorem Fieldtype.typeOf_insert_congr {s s' : String} (same : bareClass s' = bareClass s)
    (custom : Dict String) (kind : String) (f : Field) :
    typeOf (custom.insert kind s') f = typeOf (custom.insert kind s) f := by
  unfold typeOf
  split
  · rfl
  · rfl
  · rw [Dict.get?_insert, Dict.get?_insert]
    by_cases here : f.kind = kind
    · simp only [if_pos here, SemanticType.instanceOf, same]
    · rw [if_neg here, if_neg here]

namespace ComputedField

open Script

theorem isFacade_backslashed (k : Nat) {s : String}
    (visible : ∀ c ∈ s.toList.head?, Text.isBlank c = false) :
    isFacade (backslashed k s).toList = isFacade s.toList := by
  have slashes : ∀ c ∈ List.replicate k '\\', Text.isBlank c = false :=
    fun c member => List.eq_of_mem_replicate member ▸ by decide
  have trimmed : Text.trim (backslashed k s) = backslashed k (Text.trim s) := by
    rw [Text.trim, backslashed, String.toList_ofList, Text.trimChars_append_of_visible slashes visible,
      backslashed, Text.trim, String.toList_ofList]
  have bare := bareClass_backslashed k (Text.trim s)
  rw [isFacade, isFacade, String.ofList_toList, String.ofList_toList, trimmed]
  rw [bareClass, bareClass] at bare
  rw [bare]

theorem ofCall_congr_scope {scope scope' : List Script.Tree} (before after : List Script.Tree)
    (same : isFacade (Script.Tree.node .scope scope').text =
      isFacade (Script.Tree.node .scope scope).text) :
    ofCall (before ++ .node .scope scope' :: after) =
      ofCall (before ++ .node .scope scope :: after) := by
  have other : ∀ kind : Kind, kind ≠ .scope → ∀ parts : List Script.Tree,
      (before ++ .node .scope parts :: after).find? (Tree.hasKind kind) =
        (before ++ after).find? (Tree.hasKind kind) := by
    intro kind differs parts
    have skipped : Tree.hasKind kind (.node .scope parts) = false := by
      simpa [Tree.hasKind] using differs.symm
    rw [List.find?_append, List.find?_append, List.find?_cons, skipped]
  have here : ∀ parts : List Script.Tree,
      (before ++ .node .scope parts :: after).find? (Tree.hasKind .scope) =
        (before.find? (Tree.hasKind .scope)).or (some (.node .scope parts)) := by
    intro parts
    have found : Tree.hasKind .scope (.node .scope parts) = true := rfl
    rw [List.find?_append, List.find?_cons, found]
  unfold ofCall
  simp only [here, other .method (by decide), other .arguments (by decide)]
  cases before.find? (Tree.hasKind .scope) with
  | none =>
    simp only [Option.none_or, same]
    congr
  | some t => rfl

end ComputedField

/-- Two spellings of a class name that nothing tells apart: in the description of a class, as a content
class, as the class of a static call, among the receivers of a method call, as the class of a type or of
a custom kind of field, and as the scope of a call that may register computed fields. -/
structure SpelledAlike (s s' : String) : Prop where
  name : ∀ details, (ClassInfo.described s details).Alike (.described s' details)
  ancestor : ∀ name before after, (ClassInfo.described name (before ++ .ancestor s :: after)).Alike
    (.described name (before ++ .ancestor s' :: after))
  contentType : ContentClass.contentTypeOfName? s' = ContentClass.contentTypeOfName? s
  -- The answer `none` is among these: both spellings know the same static methods.
  staticCall : ∀ method, ReturnType.ofStaticCall? s' method = ReturnType.ofStaticCall? s method
  model : ∀ before after, ReturnType.modelOfBuilder? (before ++ s' :: after) =
    ReturnType.modelOfBuilder? (before ++ s :: after)
  methodCall : ∀ before after method, ReturnType.ofMethodCall? (before ++ s' :: after) method =
    ReturnType.ofMethodCall? (before ++ s :: after) method
  object : SemanticType.instanceOf s' = .instanceOf s
  generic : ∀ args, SemanticType.genericOf s' args = .genericOf s args
  custom : ∀ (custom : Dict String) kind f, Fieldtype.typeOf (custom.insert kind s') f =
    Fieldtype.typeOf (custom.insert kind s) f
  -- Calls that differ in the text before `::` alone register the same handles.
  scope : ∀ scope scope' : List Script.Tree, (Script.Tree.node .scope scope).text = s.toList →
    (Script.Tree.node .scope scope').text = s'.toList → ∀ before after,
      ComputedField.ofCall (before ++ .node .scope scope' :: after) =
        ComputedField.ofCall (before ++ .node .scope scope :: after)

/-- Backslashes in front of a class name that does not start with a blank do not matter. -/
theorem spelledAlike_backslashed (k : Nat) {s : String}
    (visible : ∀ c ∈ s.toList.head?, Text.isBlank c = false) :
    SpelledAlike s (backslashed k s) := by
  have same := bareClass_backslashed k s
  constructor
  case name => exact fun details => ClassInfo.alike_of_eq (ClassInfo.described_name same details)
  case ancestor =>
    exact fun name before after =>
      ClassInfo.alike_of_eq (ClassInfo.described_ancestor same name before after)
  case contentType => rw [ContentClass.contentTypeOfName?, ContentClass.contentTypeOfName?, same]
  case staticCall => exact fun method => by rw [ReturnType.ofStaticCall?, ReturnType.ofStaticCall?, same]
  case model => exact ReturnType.modelOfBuilder?_congr same
  case methodCall =>
    intro before after method
    rw [ReturnType.ofMethodCall?, ReturnType.ofMethodCall?, ReturnType.modelOfBuilder?_congr same]
  case object => rw [SemanticType.instanceOf, SemanticType.instanceOf, same]
  case generic => exact fun args => by rw [SemanticType.genericOf, SemanticType.genericOf, same]
  case custom => exact Fieldtype.typeOf_insert_congr same
  case scope =>
    intro scope scope' text text' before after
    refine ComputedField.ofCall_congr_scope before after ?_
    rw [text, text', ComputedField.isFacade_backslashed k visible]

/-- Behind a blank the facade is recognized, but not behind a backslash and a blank. -/
example : ComputedField.isFacade " Collection".toList = true ∧
    ComputedField.isFacade (backslashed 1 " Collection").toList = false := by decide

def ComputedField.callOn (className : String) : List Script.Tree :=
  .node .scope [.token [] className.toList] ::
    [.token [] "::".toList, .node .method [.token [] "computed".toList],
      .node .arguments [.node .argument [.node .string [.token [] "'blog'".toList]],
        .node .argument [.node .string [.token [] "'minutes'".toList]]]]

theorem entry_and_facade_spelled_alike :
    let entry := "Statamic\\Entries\\Entry"
    let facade := "\\Statamic\\Facades\\Collection"
    (∀ c ∈ entry.toList.head?, Text.isBlank c = false) ∧
    (∀ c ∈ facade.toList.head?, Text.isBlank c = false) ∧
    SpelledAlike entry (backslashed 3 entry) ∧ SpelledAlike facade (backslashed 2 facade) ∧
    backslashed 2 facade = "\\\\\\Statamic\\Facades\\Collection" ∧
    ContentClass.contentTypeOfName? (backslashed 3 entry) = some .entry ∧
    (ComputedField.ofCall (ComputedField.callOn (backslashed 2 facade))).map String.ofList =
      ["minutes"] := by
  intro entry facade
  have starts : entry.toList.head? = some 'S' ∧ facade.toList.head? = some '\\' := by decide
  have visible : ∀ c ∈ entry.toList.head?, Text.isBlank c = false := by
    rw [starts.1]
    rintro c ⟨⟩
    decide
  have visible' : ∀ c ∈ facade.toList.head?, Text.isBlank c = false := by
    rw [starts.2]
    rintro c ⟨⟩
    decide
  have alike := spelledAlike_backslashed 3 visible
  have alike' := spelledAlike_backslashed 2 visible'
  refine ⟨visible, visible', alike, alike', by decide, alike.contentType.trans (by decide), ?_⟩
  have registered := alike'.scope [.token [] facade.toList]
    [.token [] (backslashed 2 facade).toList] (by decide) (by decide) []
  rw [ComputedField.callOn, ← List.nil_append (_ :: _), registered]
  decide

end BlueprintSchema
