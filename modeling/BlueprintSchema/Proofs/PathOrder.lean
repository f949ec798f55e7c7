import BlueprintSchema.Proofs.Answers
import BlueprintSchema.Proofs.Scripts
import BlueprintSchema.Proofs.Shadowing

/-! The configured paths as sets. In which order they are given and how often decides which definition
of a handle wins, but not which handles there are. Of the paths to scripts it does not even decide the
former: computed fields come after all blueprints, and each is known by its handle alone. Main
statement: `Session.paths_count_as_sets`. -/

namespace BlueprintSchema

structure Config.SamePaths (c d : Config) : Prop where
  blueprints : ∀ path, path ∈ d.blueprintPaths ↔ path ∈ c.blueprintPaths
  scans : ∀ path, path ∈ d.scanPaths ↔ path ∈ c.scanPaths
  rest : d = { c with blueprintPaths := d.blueprintPaths, scanPaths := d.scanPaths }

theorem ComputedField.mem_discover {t : FileTree} {paths : List String} {f : Field} :
    f ∈ discover t paths ↔ ∃ root ∈ paths, ∃ path ∈ scripts t root, f ∈ registered t path := by
  rw [discover_eq, List.flatMap_assoc]
  simp only [List.mem_flatMap]

theorem Location.mem_fields {t : FileTree} {bases : List String} {type : ContentType} {f : Field} :
    f ∈ (ofType t bases type).flatMap (fun l => Blueprint.fields t l.path) ↔
      ∃ base ∈ bases, ∃ l ∈ ofBase t base, l.contentType = type ∧ f ∈ Blueprint.fields t l.path := by
  simp only [ofType, all, List.mem_flatMap, List.mem_filter, beq_iff_eq]
  constructor
  · rintro ⟨l, ⟨⟨base, given, located⟩, typed⟩, found⟩
    exact ⟨base, given, l, located, typed, found⟩
  · rintro ⟨base, given, l, located, typed, found⟩
    exact ⟨l, ⟨⟨base, given, located⟩, typed⟩, found⟩

namespace Config

variable {c d : Config} {t : FileTree} {type : ContentType}

theorem SamePaths.mem_discovered (same : SamePaths c d) (f : Field) :
    f ∈ d.discovered t type ↔ f ∈ c.discovered t type := by
  rw [discovered, discovered, List.mem_append, List.mem_append, Location.mem_fields,
    Location.mem_fields]
  simp only [same.blueprints]
  split
  · simp only [ComputedField.mem_discover, same.scans]
  · rfl

theorem SamePaths.winner?_eq (same : SamePaths c d) (listed : d.blueprintPaths = c.blueprintPaths)
    (handle : String) : Registry.winner? t d.blueprintPaths d.scanPaths type handle =
      Registry.winner? t c.blueprintPaths c.scanPaths type handle := by
  have scans : Field.declares handle (ComputedField.discover t d.scanPaths) =
      Field.declares handle (ComputedField.discover t c.scanPaths) :=
    Field.declares_congr fun f => by simp only [ComputedField.mem_discover, same.scans]
  rw [Registry.winner?, Registry.winner?, listed, scans]

theorem SamePaths.isSome_lookup? (same : SamePaths c d) (type : ContentType) (name : String) :
    ((Registry.ofFiles t d.blueprintPaths d.scanPaths).lookup? type name).isSome =
      ((Registry.ofFiles t c.blueprintPaths c.scanPaths).lookup? type name).isSome := by
  have declared : Field.declares name (d.discovered t type) = Field.declares name (c.discovered t type) :=
    Field.declares_congr same.mem_discovered
  rw [Registry.isSome_lookup? (Registry.indexed_ofFiles t _ _),
    Registry.isSome_lookup? (Registry.indexed_ofFiles t _ _), Registry.fields_ofFiles,
    Registry.fields_ofFiles]
  exact congrArg _ declared

theorem SamePaths.hasProperty_eq (same : SamePaths c d) (cl : ClassInfo) (name : String) :
    (Registry.ofFiles t d.blueprintPaths d.scanPaths).hasProperty cl name =
      (Registry.ofFiles t c.blueprintPaths c.scanPaths).hasProperty cl name := by
  simp only [Registry.hasProperty, same.isSome_lookup?]

theorem SamePaths.rule_eq (same : SamePaths c d) :
    (Analyzer.ofConfig d).rule = (Analyzer.ofConfig c).rule := by
  rw [same.rest]
  rfl

theorem SamePaths.customFieldtypes_eq (same : SamePaths c d) :
    d.customFieldtypes = c.customFieldtypes := by
  rw [same.rest]

theorem SamePaths.reaches_eq (same : SamePaths c d) (e : Event) : e.reaches d = e.reaches c := by
  cases e with
  | edit e => rfl
  | ask q =>
    cases q with
    | check fetch => simp only [Event.reaches, Question.reaches, same.rule_eq]
    | _ => rfl

end Config

namespace Session

theorem files_run_congr {a b : Session} (h : a.files = b.files) (events : List Event) :
    (a.run events).files = (b.run events).files := by
  induction events generalizing a b with
  | nil => exact h
  | cons e events ih =>
    refine ih (a := a.step e) (b := b.step e) ?_
    cases e with
    | edit e => exact congrArg (·.edit e) h
    | ask q => rw [step_ask, step_ask, h]

theorem exists_same_moment {c d : Config} (same : c.SamePaths d) (t : FileTree)
    (events : List Event) : ∃ u : FileTree,
      ((start c t).run events).current = .ofFiles u c.blueprintPaths c.scanPaths ∧
      ((start d t).run events).current = .ofFiles u d.blueprintPaths d.scanPaths := by
  have quiet : (fun e : Event => !e.reaches d) = fun e => !e.reaches c := by
    funext e
    rw [same.reaches_eq]
  refine ⟨_, current_run c t events, ?_⟩
  have files := files_run_congr (a := start d t) (b := start c t) rfl
  rw [current_run, quiet, files]

/-- Two sessions in which the same happens, and whose configurations give the same paths in another
order or number, find the same names and report the same. If only the paths of scripts are given
differently, names also stand for the same definitions, with the same types. -/
theorem paths_count_as_sets {c d : Config} (same : c.SamePaths d) (t : FileTree)
    (events : List Event) :
    let a := (start c t).run events
    let b := (start d t).run events
    (∀ type name, b.answer (.has type name) = a.answer (.has type name)) ∧
    (∀ cl name, b.answer (.hasProperty cl name) = a.answer (.hasProperty cl name)) ∧
    (∀ fetch, b.answer (.check fetch) = a.answer (.check fetch)) ∧
    (d.blueprintPaths = c.blueprintPaths → ∀ type,
      (∀ name, b.answer (.lookup type name) = a.answer (.lookup type name)) ∧
      (∀ handle, b.answer (.field type handle) = a.answer (.field type handle)) ∧
      b.answer (.fieldMap type) = a.answer (.fieldMap type) ∧
      ∀ cl name, b.answer (.property cl name) = a.answer (.property cl name)) := by
  intro a b
  obtain ⟨u, seen, seen'⟩ := exists_same_moment same t events
  have has := fun cl name => same.hasProperty_eq (t := u) cl name
  simp only [a, b, answer_run_eq, seen, seen', Question.answerIn]
  refine ⟨same.isSome_lookup?, has, fun fetch => ?_, fun listed type => ?_⟩
  · rw [same.rule_eq]
    exact Registry.reports_congr fun cl name _ => has cl name
  · have definitions : ∀ type handle, (Registry.ofFiles u d.blueprintPaths d.scanPaths).get? type handle =
        (Registry.ofFiles u c.blueprintPaths c.scanPaths).get? type handle := by
      intro type handle
      rw [Registry.get?_ofFiles, Registry.get?_ofFiles, same.winner?_eq listed]
    have stands := fun type name => Registry.lookup?_congr (definitions type name)
    refine ⟨stands type, definitions type, ?_, fun cl name => ?_⟩
    · exact Registry.fieldMap_congr (Registry.indexed_ofFiles u _ _) (Registry.indexed_ofFiles u _ _)
        (definitions type)
    · simp only [Registry.property?, stands, same.customFieldtypes_eq]

/-- A tree with two bases that define a handle each, and two scripts that register one each. -/
def twoBases : FileTree :=
  ⟨[(["a"], .directory), (["a", "globals"], .directory),
    (["a", "globals", "site.yaml"], .file "fields: [{handle: motto}]".toUTF8),
    (["b"], .directory), (["b", "globals"], .directory),
    (["b", "globals", "site.yaml"], .file "fields: [{handle: slogan}]".toUTF8),
    (["one.php"], .file "<?php Collection::computed('a', 'brand');".toUTF8),
    (["two.php"], .file "<?php Collection::computed('a', 'shares');".toUTF8)]⟩

theorem motto_found_whichever_base_is_first :
    let c : Config := { blueprintPaths := ["a", "b"], scanPaths := ["one.php", "two.php"] }
    let d : Config := { c with blueprintPaths := ["b", "a", "b"], scanPaths := ["two.php", "one.php"] }
    let e : Config := { c with scanPaths := ["two.php", "one.php", "two.php"] }
    (c.SamePaths d ∧ c.SamePaths e ∧ e.blueprintPaths = c.blueprintPaths) ∧
    ((start d twoBases).run []).answer (.has .global "motto") =
      ((start c twoBases).run []).answer (.has .global "motto") ∧
    (((start c twoBases).run []).answer (.fields .global)).map Field.handle = ["motto", "slogan"] ∧
    (((start d twoBases).run []).answer (.fields .global)).map Field.handle =
      ["slogan", "motto", "slogan"] ∧
    ((start e twoBases).run []).answer (.lookup .entry "shares") =
      ((start c twoBases).run []).answer (.lookup .entry "shares") ∧
    (((start e twoBases).run []).answer (.fields .entry)).map Field.handle =
      ["shares", "brand", "shares"] := by
  intro c d e
  have reordered : c.SamePaths d := ⟨by simp [c, d, or_comm], by simp [c, d, or_comm], rfl⟩
  have repeated : c.SamePaths e := ⟨fun _ => Iff.rfl, by simp [c, e, or_comm], rfl⟩
  have names := (paths_count_as_sets reordered twoBases []).1
  have definitions := (paths_count_as_sets repeated twoBases []).2.2.2 rfl .entry
  exact ⟨⟨reordered, repeated, rfl⟩, names .global "motto", by decide +kernel, by decide +kernel,
    definitions.1 "shares", by decide +kernel⟩

end Session

end BlueprintSchema
