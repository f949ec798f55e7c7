import BlueprintSchema.Proofs.Query

/-! The rule against undefined fields, the properties of classes and the repository agree. All three
come down to what the registry holds under a name for the content type of a class, so a fetch is
reported exactly if its first content class lacks the property. Main statement:
`Analyzer.check_agrees_with_properties`. -/

namespace BlueprintSchema

namespace ContentClass

def IsFirst (c : ClassInfo) (cs : List ClassInfo) : Prop :=
  ∃ before after, cs = before ++ c :: after ∧ (∀ d ∈ before, ¬isContentClass d) ∧ isContentClass c

theorem find?_eq_some_iff_isFirst {c : ClassInfo} {cs : List ClassInfo} :
    cs.find? isContentClass = some c ↔ IsFirst c cs := by
  rw [List.find?_eq_some_iff_append]
  constructor
  · rintro ⟨hc, before, after, rfl, hb⟩
    exact ⟨before, after, rfl, by simpa using hb, hc⟩
  · rintro ⟨before, after, rfl, hb, hc⟩
    exact ⟨hc, before, after, rfl, by simpa using hb⟩

theorem find?_congr_of_filter {cs ds : List ClassInfo}
    (h : cs.filter isContentClass = ds.filter isContentClass) :
    cs.find? isContentClass = ds.find? isContentClass := by
  rw [← List.head?_filter, ← List.head?_filter, h]

theorem find?_append_cons {c : ClassInfo} (hc : isContentClass c) (before after : List ClassInfo) :
    (before ++ c :: after).find? isContentClass = (before ++ [c]).find? isContentClass := by
  simp only [List.find?_append, List.find?_cons, hc]

end ContentClass

namespace Registry

theorem hasProperty_eq_isSome (g : Registry) (custom : Dict String) (c : ClassInfo)
    (name : String) : g.hasProperty c name = (g.property? custom c name).isSome := by
  unfold hasProperty property?
  cases ContentClass.contentType? c with
  | none => rfl
  | some type => simp

theorem hasProperty_iff (g : Registry) (c : ClassInfo) (name : String) :
    g.hasProperty c name ↔
      ∃ type, ContentClass.contentType? c = some type ∧ (g.lookup? type name).isSome := by
  unfold hasProperty
  cases ContentClass.contentType? c <;> simp

section Reports

variable (g : Registry) {rule : UndefinedField} (name : String) {receivers : List ClassInfo}
  (line : Option Nat)

theorem reports_of_disabled (off : rule.isEnabled = false) (fetch : Fetch) :
    g.reports rule fetch = [] := by
  simp [reports, off]

theorem reports_of_no_content (none : ∀ c ∈ receivers, ¬ContentClass.isContentClass c) :
    g.reports rule ⟨.known name, receivers, line⟩ = [] := by
  have nowhere := List.find?_eq_none.2 none
  cases on : rule.isEnabled <;> simp [reports, on, nowhere]

theorem reports_of_isFirst {c : ClassInfo} (on : rule.isEnabled = true)
    (first : ContentClass.IsFirst c receivers) :
    g.reports rule ⟨.known name, receivers, line⟩ =
      if g.hasProperty c name then [] else [rule.report name c line] := by
  have found := ContentClass.find?_eq_some_iff_isFirst.2 first
  simp [reports, on, found]

theorem reports_eq_nil_iff :
    g.reports rule ⟨.known name, receivers, line⟩ = [] ↔
      rule.isEnabled = false ∨ (∀ c ∈ receivers, ¬ContentClass.isContentClass c) ∨
        ∃ c, ContentClass.IsFirst c receivers ∧ g.hasProperty c name := by
  constructor
  · intro nothing
    cases on : rule.isEnabled with
    | false => exact .inl rfl
    | true =>
      cases hf : receivers.find? ContentClass.isContentClass with
      | none => exact .inr (.inl (List.find?_eq_none.1 hf))
      | some c =>
        have first := ContentClass.find?_eq_some_iff_isFirst.1 hf
        rw [reports_of_isFirst g name line on first] at nothing
        exact .inr (.inr ⟨c, first, by simpa using nothing⟩)
  · rintro (off | none | ⟨c, first, has⟩)
    · exact reports_of_disabled g off _
    · exact reports_of_no_content g name line none
    · cases on : rule.isEnabled with
      | false => exact reports_of_disabled g on _
      | true => rw [reports_of_isFirst g name line on first, if_pos has]

theorem reports_of_ne_nil (h : g.reports rule ⟨.known name, receivers, line⟩ ≠ []) :
    ∃ c, ContentClass.IsFirst c receivers ∧
      g.reports rule ⟨.known name, receivers, line⟩ = [rule.report name c line] := by
  cases on : rule.isEnabled with
  | false => exact absurd (reports_of_disabled g on _) h
  | true =>
    cases hf : receivers.find? ContentClass.isContentClass with
    | none => exact absurd (reports_of_no_content g name line (List.find?_eq_none.1 hf)) h
    | some c =>
      have first := ContentClass.find?_eq_some_iff_isFirst.1 hf
      have lacking : ¬g.hasProperty c name := by
        intro has
        rw [reports_of_isFirst g name line on first, if_pos has] at h
        exact h rfl
      exact ⟨c, first, by rw [reports_of_isFirst g name line on first, if_neg lacking]⟩

theorem reports_dynamic : g.reports rule ⟨.dynamic, receivers, line⟩ = [] := by
  cases on : rule.isEnabled <;> simp [reports, on]

end Reports

end Registry

namespace UndefinedField

theorem check_congr (rule : UndefinedField) (name : FetchedName) {cs ds : List ClassInfo}
    (line : Option Nat)
    (h : cs.find? ContentClass.isContentClass = ds.find? ContentClass.isContentClass) :
    rule.check ⟨name, cs, line⟩ = rule.check ⟨name, ds, line⟩ := by
  unfold check
  cases rule.isEnabled with
  | false => rfl
  | true =>
    cases name with
    | dynamic => rfl
    | known name => simp only [Query.checkName_eq, h]

end UndefinedField

namespace Analyzer

/-- Whatever is in the registry and in the configuration, a property that the rule reports is one
that its class does not have, and the other way round. -/
theorem check_agrees_with_properties (a : Analyzer) (t : FileTree) (name : String) :
    (∀ c, ((a.ask t (Property.has c name)).1 ↔ (a.ask t (a.property? c name)).1.isSome) ∧
      ((a.ask t (a.property? c name)).1.isSome ↔ ∃ type,
        ContentClass.contentType? c = some type ∧ (a.ask t (Repository.has type name)).1)) ∧
    (∀ receivers line, (a.ask t (a.check ⟨.known name, receivers, line⟩)).1 = [] ↔
      a.config.reportsUndefined = false ∨ (∀ c ∈ receivers, ¬ContentClass.isContentClass c) ∨
        ∃ c, ContentClass.IsFirst c receivers ∧ (a.ask t (Property.has c name)).1) ∧
    (∀ receivers line, (a.ask t (a.check ⟨.known name, receivers, line⟩)).1 ≠ [] →
      ∃ c, ContentClass.IsFirst c receivers ∧
        (a.ask t (a.check ⟨.known name, receivers, line⟩)).1 =
          [{ message := "Access to field '" ++ name ++ "' on " ++ c.displayName ++
              " that is not defined in any blueprint."
             severity := a.config.severity
             line := line }]) ∧
    (∀ receivers line, (a.ask t (a.check ⟨.dynamic, receivers, line⟩)).1 = []) ∧
    (∀ fetched line cs ds,
      cs.filter ContentClass.isContentClass = ds.filter ContentClass.isContentClass →
      a.check ⟨fetched, cs, line⟩ = a.check ⟨fetched, ds, line⟩) ∧
    (∀ fetched line before c after after', ContentClass.isContentClass c →
      a.check ⟨fetched, before ++ c :: after, line⟩ =
        a.check ⟨fetched, before ++ c :: after', line⟩) := by
  have has := fun c => answer_of_reads (Query.reads_hasProperty c name) a t
  have property := fun c => answer_of_reads (Query.reads_property? a.customFieldtypes c name) a t
  have holds := fun type => answer_of_reads (Query.reads_has type name) a t
  have check := fun fetch => answer_of_reads (Query.reads_check a.rule fetch) a t
  refine ⟨fun c => ⟨?_, ?_⟩, fun receivers line => ?_, fun receivers line => ?_,
    fun receivers line => ?_, fun fetched line cs ds same => ?_,
    fun fetched line before c after after' hc => ?_⟩
  · rw [has, Analyzer.property?, property, Registry.hasProperty_eq_isSome]
  · rw [Analyzer.property?, property, ← Registry.hasProperty_eq_isSome, Registry.hasProperty_iff]
    simp only [holds]
  · rw [Analyzer.check, check, Registry.reports_eq_nil_iff]
    simp only [has]
    rfl
  · rw [Analyzer.check, check]
    exact Registry.reports_of_ne_nil _ name line
  · rw [Analyzer.check, check]
    exact Registry.reports_dynamic _ line
  · exact UndefinedField.check_congr _ fetched line (ContentClass.find?_congr_of_filter same)
  · refine UndefinedField.check_congr _ fetched line ?_
    rw [ContentClass.find?_append_cons hc before after,
      ContentClass.find?_append_cons hc before after']

theorem subtitle_reported_on_entry :
    let a : Analyzer := ⟨{}, { blueprintPaths := [], scanPaths := [], snapshot := some .bare }⟩
    let user := ClassInfo.ofName "App\\User"
    let entry := ClassInfo.ofName "Statamic\\Entries\\Entry"
    let check := fun receivers => a.check ⟨.known "subtitle", receivers, some 7⟩
    (a.ask ⟨[]⟩ (check [user, entry])).1 ≠ [] ∧
    (∃ c, ContentClass.IsFirst c [user, entry] ∧ (a.ask ⟨[]⟩ (check [user, entry])).1 =
      [{ message := "Access to field 'subtitle' on " ++ c.displayName ++
          " that is not defined in any blueprint."
         severity := .error
         line := some 7 }]) ∧
    [user, entry].filter ContentClass.isContentClass =
      [entry].filter ContentClass.isContentClass ∧
    check [user, entry] = check [entry] ∧
    ContentClass.isContentClass entry ∧
    check ([user] ++ entry :: []) = check ([user] ++ entry :: [user]) := by
  intro a user entry check
  have reported : (a.ask ⟨[]⟩ (check [user, entry])).1 ≠ [] := by decide +kernel
  have inserted : [user, entry].filter ContentClass.isContentClass =
      [entry].filter ContentClass.isContentClass := by decide +kernel
  have content : ContentClass.isContentClass entry := by decide +kernel
  obtain ⟨_, _, report, _, insert, change⟩ := check_agrees_with_properties a ⟨[]⟩ "subtitle"
  exact ⟨reported, report [user, entry] (some 7) reported, inserted,
    insert (.known "subtitle") (some 7) _ _ inserted, content,
    change (.known "subtitle") (some 7) [user] entry [] [user] content⟩

end Analyzer

end BlueprintSchema
