import BlueprintSchema.Proofs.Answers
import BlueprintSchema.Proofs.Discovery
import BlueprintSchema.Proofs.FileTree.Growth

/-! Files written where there was nothing. They may lie anywhere among those that are looked at, break
off, or declare handles once more, but they take no field away: the old fields all stay and stay in
order, no report is added, and what cannot be declared over keeps its type. Main statement:
`Session.additions_take_nothing`. -/

namespace BlueprintSchema

variable {t u : FileTree} {c : Config}

namespace FileTree

theorem Grown.keeps (h : t.Grown u) (free : t.LinkFree) (path : String) : t.Keeps u path :=
  fun _ file => h.within.lookup? free h.linkFree file

end FileTree

section Grown

variable (wf : t.WellFormed) (free : t.LinkFree) (grown : t.Grown u)
include wf free grown

theorem Config.discovered_sublist_of_grown (type : ContentType) :
    (c.discovered t type).Sublist (c.discovered u type) :=
  c.discovered_sublist wf free grown.wellFormed grown.linkFree fun path _ => grown.keeps free path

theorem ComputedField.declares_of_grown {handle : String}
    (declared : Field.declares handle (discover t c.scanPaths) = true) :
    Field.declares handle (discover u c.scanPaths) = true :=
  Field.declares_mono (discover_sublist wf free grown.wellFormed grown.linkFree fun path _ =>
    grown.keeps free path).subset declared

theorem Registry.isSome_lookup?_of_grown (type : ContentType) (name : String)
    (found : ((ofFiles t c.blueprintPaths c.scanPaths).lookup? type name).isSome = true) :
    ((ofFiles u c.blueprintPaths c.scanPaths).lookup? type name).isSome = true := by
  rw [isSome_lookup? (indexed_ofFiles _ _ _), fields_ofFiles, Bool.or_eq_true] at found ⊢
  have fields := (c.discovered_sublist_of_grown wf free grown type).subset
  exact found.imp_right fun declared => Field.declares_mono fields declared

theorem Registry.hasProperty_of_grown (cl : ClassInfo) (name : String)
    (found : (ofFiles t c.blueprintPaths c.scanPaths).hasProperty cl name = true) :
    (ofFiles u c.blueprintPaths c.scanPaths).hasProperty cl name = true := by
  rw [hasProperty_iff] at found ⊢
  obtain ⟨type, holds, found⟩ := found
  exact ⟨type, holds, isSome_lookup?_of_grown wf free grown type name found⟩

end Grown

theorem Registry.get?_of_computed {handle : String}
    (declared : Field.declares handle (ComputedField.discover t c.scanPaths) = true) :
    (ofFiles t c.blueprintPaths c.scanPaths).get? .entry handle = some (Field.computed handle) := by
  rw [get?_ofFiles, winner?, if_pos]
  simpa using declared

namespace Session

/-- Two sessions on the same configuration in which nothing is written, on some files and on the same
files with more written besides. The fields found in the first are found in the second in the same
order, so no name is lost, and nothing is reported that was not. Universal properties and handles that
scripts register keep their meaning and their types. -/
theorem additions_take_nothing (c : Config) (wf : t.WellFormed) (free : t.LinkFree)
    (grown : t.Grown u) {asked : List Event} (asks : ∀ e ∈ asked, e.isAsk) :
    let a := (start c t).run asked
    let b := (start c u).run asked
    (∀ type, (a.answer (.fields type)).Sublist (b.answer (.fields type))) ∧
    (∀ type name, a.answer (.has type name) = true → b.answer (.has type name) = true) ∧
    (∀ cl name, a.answer (.hasProperty cl name) = true → b.answer (.hasProperty cl name) = true) ∧
    (∀ fetch, b.answer (.check fetch) ⊆ a.answer (.check fetch)) ∧
    (∀ type name fixed, ContentClass.universalProperty? type name = some fixed →
      a.AnswersFixed type name fixed ∧ b.AnswersFixed type name fixed) ∧
    (∀ handle, Field.declares handle (ComputedField.discover t c.scanPaths) = true →
      a.answer (.field .entry handle) = some (.computed handle) ∧
      b.answer (.field .entry handle) = some (.computed handle) ∧
      b.answer (.lookup .entry handle) = a.answer (.lookup .entry handle) ∧
      ∀ cl, ContentClass.contentType? cl = some .entry →
        b.answer (.property cl handle) = a.answer (.property cl handle)) := by
  intro a b
  have current : a.current = .ofFiles t c.blueprintPaths c.scanPaths := current_run_of_asks c t asks
  have current' : b.current = .ofFiles u c.blueprintPaths c.scanPaths := current_run_of_asks c u asks
  have answers : ∀ {α : Type} (q : Question α), a.answer q = q.answerIn c a.current :=
    fun q => answer_run_eq c t asked q
  have answers' : ∀ {α : Type} (q : Question α), b.answer q = q.answerIn c b.current :=
    fun q => answer_run_eq c u asked q
  have hasProperty := fun cl name => Registry.hasProperty_of_grown (c := c) wf free grown cl name
  simp only [answers, answers', current, current', Question.answerIn]
  refine ⟨fun type => ?_, fun type name => Registry.isSome_lookup?_of_grown wf free grown type name,
    hasProperty, fun fetch => Registry.reports_subset hasProperty,
    fun type name fixed h => ⟨answersFixed_of_universal h a, answersFixed_of_universal h b⟩,
    fun handle declared => ?_⟩
  · rw [Registry.fields_ofFiles, Registry.fields_ofFiles]
    exact c.discovered_sublist_of_grown wf free grown type
  · have wins := Registry.get?_of_computed declared
    have wins' := Registry.get?_of_computed
      (ComputedField.declares_of_grown wf free grown declared)
    have same := Registry.lookup?_congr (wins'.trans wins.symm)
    exact ⟨wins, wins', same, fun cl holds => Registry.property?_congr holds same⟩

def mottoAndBrand : FileTree :=
  ⟨[(["site"], .directory), (["site", "globals"], .directory),
    (["site", "globals", "seo.yaml"], .file "fields: [{handle: motto}]".toUTF8),
    (["app"], .directory),
    (["app", "b.php"], .file "<?php Collection::computed('a', 'brand');".toUTF8)]⟩

theorem motto_and_brand_stay :
    let c : Config := { blueprintPaths := ["theme", "site"], scanPaths := ["app"] }
    let files : List (String × ByteArray) :=
      [("site/collections/blog/post.yaml", "fields: [{handle: brand}]".toUTF8),
        ("theme/globals/about.yaml", "fields: [{handle: lead}]".toUTF8)]
    let a := (start c mottoAndBrand).run []
    let b := (start c (mottoAndBrand.writeAll files)).run []
    (a.answer (.fields .global)).Sublist (b.answer (.fields .global)) ∧
    (a.answer (.fields .global)).map Field.handle = ["motto"] ∧
    (b.answer (.fields .global)).map Field.handle = ["lead", "motto"] ∧
    b.answer (.lookup .entry "brand") = a.answer (.lookup .entry "brand") := by
  intro c files a b
  have wf : mottoAndBrand.WellFormed := by decide +kernel
  have free : mottoAndBrand.LinkFree := wf.linkFree (by decide +kernel)
  have vacant : ∀ file ∈ files, mottoAndBrand.Vacant file.1 := by
    have new : ∀ file ∈ files, file.1 ≠ "" ∧ (∀ n ∈ FileTree.steps file.1, Path.IsName n) ∧
        mottoAndBrand.contains file.1 = false := by decide +kernel
    exact fun file member => ⟨(new file member).1, (new file member).2.1, (new file member).2.2⟩
  have grown := FileTree.grown_writeAll wf free vacant
  obtain ⟨fields, -, -, -, -, computed⟩ := @additions_take_nothing _ _ c wf free grown []
    (by simp)
  exact ⟨fields .global, by decide +kernel, by decide +kernel,
    (computed "brand" (by decide +kernel)).2.2.1⟩

end Session

end BlueprintSchema
