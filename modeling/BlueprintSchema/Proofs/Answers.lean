import BlueprintSchema.Proofs.Agreement
import BlueprintSchema.Proofs.Merge

/-! Two registries side by side. What they hold for a content type decides all answers about it: which
names are found, what they stand for, and what is reported. Main statements: `Registry.isSome_lookup?`,
`Registry.reports_congr` and `Registry.reports_subset`. -/

namespace BlueprintSchema

namespace Field

theorem declares_iff {handle : String} {fs : List Field} :
    declares handle fs = true ↔ ∃ f ∈ fs, f.handle = handle := by
  simp [declares]

theorem declares_mono {handle : String} {fs gs : List Field} (h : fs ⊆ gs)
    (declared : declares handle fs = true) : declares handle gs = true := by
  obtain ⟨f, member, named⟩ := declares_iff.1 declared
  exact declares_iff.2 ⟨f, h member, named⟩

theorem declares_congr {handle : String} {fs gs : List Field} (h : ∀ f, f ∈ fs ↔ f ∈ gs) :
    declares handle fs = declares handle gs :=
  Bool.eq_iff_iff.2 ⟨declares_mono fun f => (h f).1, declares_mono fun f => (h f).2⟩

end Field

namespace Registry

variable {g h : Registry} {type : ContentType}

theorem isSome_lookup? (indexed : g.Indexed) (type : ContentType) (name : String) :
    (g.lookup? type name).isSome =
      ((ContentClass.universalProperty? type name).isSome || Field.declares name (g.fields type)) := by
  have found : (g.get? type name).isSome = Field.declares name (g.fields type) := by
    rw [indexed.get?_eq]
    cases declared : Field.declares name (g.fields type) with
    | false => rw [Field.last?_eq_none_iff_declares.2 declared]; rfl
    | true =>
      refine Option.isSome_iff_ne_none.2 fun none => ?_
      rw [Field.last?_eq_none_iff_declares.1 none] at declared
      nomatch declared
  unfold lookup?
  cases ContentClass.universalProperty? type name with
  | none => rw [Option.isSome_map, found]; rfl
  | some fixed => rfl

theorem lookup?_congr {name : String} (same : g.get? type name = h.get? type name) :
    g.lookup? type name = h.lookup? type name := by
  rw [lookup?, lookup?, same]

theorem fieldMap_congr (gi : g.Indexed) (hi : h.Indexed)
    (same : ∀ handle, g.get? type handle = h.get? type handle) : g.fieldMap type = h.fieldMap type := by
  refine Dict.ext_get? fun handle => ?_
  rw [get?_fieldMap, get?_fieldMap, ← gi.get?_eq, ← hi.get?_eq, same]

section Classes

variable {c : ClassInfo} {name : String}

theorem hasProperty_eq (holds : ContentClass.contentType? c = some type) (g : Registry)
    (name : String) : g.hasProperty c name = (g.lookup? type name).isSome := by
  rw [hasProperty, holds, Option.any_some]

theorem property?_congr {custom : Dict String} (holds : ContentClass.contentType? c = some type)
    (same : g.lookup? type name = h.lookup? type name) :
    g.property? custom c name = h.property? custom c name := by
  rw [property?, property?, holds, Option.bind_some, Option.bind_some, same]

end Classes

section Reports

variable {rule : UndefinedField} {fetch : Fetch}

theorem reports_congr (same : ∀ c name, ContentClass.IsFirst c fetch.receivers →
    g.hasProperty c name = h.hasProperty c name) : g.reports rule fetch = h.reports rule fetch := by
  unfold reports
  cases rule.isEnabled with
  | false => rfl
  | true =>
    cases fetch.name with
    | dynamic => rfl
    | known name =>
      cases first : fetch.receivers.find? ContentClass.isContentClass with
      | none => rfl
      | some c => simp only [same c name (ContentClass.find?_eq_some_iff_isFirst.1 first)]

theorem reports_subset (more : ∀ c name, g.hasProperty c name = true → h.hasProperty c name = true) :
    h.reports rule fetch ⊆ g.reports rule fetch := by
  unfold reports
  cases rule.isEnabled with
  | false => exact fun _ => id
  | true =>
    cases fetch.name with
    | dynamic => exact fun _ => id
    | known name =>
      cases fetch.receivers.find? ContentClass.isContentClass with
      | none => exact fun _ => id
      | some c =>
        cases had : g.hasProperty c name with
        | false => by_cases has : h.hasProperty c name = true <;> simp [had, has]
        | true => simp [more c name had]

end Reports

end Registry

end BlueprintSchema
