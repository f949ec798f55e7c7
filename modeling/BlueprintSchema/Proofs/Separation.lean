import BlueprintSchema.Proofs.Answers
import BlueprintSchema.Proofs.Discovery

/-! Content types do not leak into each other. Two trees of files without links may differ in
everything but the files within reach of one content type; no question about this type tells them
apart. Scripts are in reach of entries alone. Main statement: `Session.content_types_apart`. -/

namespace BlueprintSchema

variable {t u : FileTree} {c : Config} {type : ContentType}

def FileTree.AgreeOn (t u : FileTree) (paths : String → Prop) : Prop :=
  ∀ path, paths path → ∀ content,
    t.lookup? path = some (.file content) ↔ u.lookup? path = some (.file content)

theorem Config.discovered_eq (wf : t.WellFormed) (free : t.LinkFree) (wf' : u.WellFormed)
    (free' : u.LinkFree) (agree : t.AgreeOn u (c.Reaches type)) :
    c.discovered t type = c.discovered u type := by
  have there := c.discovered_sublist wf free wf' free' fun path reached content =>
    (agree path reached content).1
  have back := c.discovered_sublist wf' free' wf free fun path reached content =>
    (agree path reached content).2
  exact there.antisymm back

theorem Config.Reaches.not_isScript {path : String} (reached : c.Reaches type path)
    (other : type ≠ .entry) : ComputedField.isScript path = false := by
  cases reached with
  | script => exact absurd rfl other
  | blueprint _ _ _ _ blueprint =>
    rw [Location.isBlueprint, Bool.and_eq_true, beq_iff_eq] at blueprint
    rw [ComputedField.isScript, blueprint.1]
    decide

namespace Session

structure AnswerAlike (a b : Session) (type : ContentType) : Prop where
  fields : a.answer (.fields type) = b.answer (.fields type)
  fieldMap : a.answer (.fieldMap type) = b.answer (.fieldMap type)
  field : ∀ handle, a.answer (.field type handle) = b.answer (.field type handle)
  has : ∀ name, a.answer (.has type name) = b.answer (.has type name)
  lookup : ∀ name, a.answer (.lookup type name) = b.answer (.lookup type name)
  hasProperty : ∀ cl name, ContentClass.contentType? cl = some type →
    a.answer (.hasProperty cl name) = b.answer (.hasProperty cl name)
  property : ∀ cl name, ContentClass.contentType? cl = some type →
    a.answer (.property cl name) = b.answer (.property cl name)
  check : ∀ cl fetch, ContentClass.contentType? cl = some type →
    ContentClass.IsFirst cl fetch.receivers → a.answer (.check fetch) = b.answer (.check fetch)

theorem answerAlike_of_discovered_eq (same : c.discovered t type = c.discovered u type)
    {asked : List Event} (asks : ∀ e ∈ asked, e.isAsk) :
    ((start c t).run asked).AnswerAlike ((start c u).run asked) type := by
  have get : ∀ handle, (Registry.ofFiles t c.blueprintPaths c.scanPaths).get? type handle =
      (Registry.ofFiles u c.blueprintPaths c.scanPaths).get? type handle := fun handle => by
    rw [Registry.get?_ofFiles_eq_last?, Registry.get?_ofFiles_eq_last?, same]
  have stands := fun name => Registry.lookup?_congr (get name)
  have owns : ∀ cl name, ContentClass.contentType? cl = some type →
      (Registry.ofFiles t c.blueprintPaths c.scanPaths).hasProperty cl name =
        (Registry.ofFiles u c.blueprintPaths c.scanPaths).hasProperty cl name := by
    intro cl name holds
    rw [Registry.hasProperty_eq holds, Registry.hasProperty_eq holds, stands]
  constructor <;>
    simp only [answer_run_eq, current_run_of_asks c _ asks, Question.answerIn]
  case fields => rw [Registry.fields_ofFiles, Registry.fields_ofFiles]; exact same
  case fieldMap =>
    exact Registry.fieldMap_congr (Registry.indexed_ofFiles t _ _) (Registry.indexed_ofFiles u _ _) get
  case field => exact get
  case has => exact fun name => by rw [stands]
  case lookup => exact stands
  case hasProperty => exact owns
  case property => exact fun cl name holds => Registry.property?_congr holds (stands name)
  case check =>
    intro cl fetch holds first
    refine Registry.reports_congr fun cl' name first' => ?_
    have found := ContentClass.find?_eq_some_iff_isFirst.2 first
    rw [ContentClass.find?_eq_some_iff_isFirst.2 first'] at found
    cases found
    exact owns _ name holds

/-- Two sessions on the same configuration, in which nothing is written, answer alike about a content
type as soon as their files agree within its reach. About terms, globals and assets they do so even if
they only agree on files that are no scripts. -/
theorem content_types_apart (c : Config) (wf : t.WellFormed) (free : t.LinkFree)
    (wf' : u.WellFormed) (free' : u.LinkFree) {asked : List Event} (asks : ∀ e ∈ asked, e.isAsk)
    (type : ContentType) :
    (t.AgreeOn u (c.Reaches type) →
      ((start c t).run asked).AnswerAlike ((start c u).run asked) type) ∧
    (type ≠ .entry → t.AgreeOn u (fun path => ComputedField.isScript path = false) →
      ((start c t).run asked).AnswerAlike ((start c u).run asked) type) := by
  have apart : t.AgreeOn u (c.Reaches type) →
      ((start c t).run asked).AnswerAlike ((start c u).run asked) type := fun agree =>
    answerAlike_of_discovered_eq (c.discovered_eq wf free wf' free' agree) asks
  exact ⟨apart, fun other agree => apart fun path reached =>
    agree path (reached.not_isScript other)⟩

end Session

theorem FileTree.agreeOn_without {gone : List Place} {paths : String → Prop}
    (files : t.HoldsFiles gone) (wf : t.WellFormed) (free : t.LinkFree)
    (kept : ∀ path p, paths path → t.resolve path = .ok p → p ∉ gone) :
    t.AgreeOn (t.without gone) paths := by
  intro path asked content
  rw [lookup?_eq_some_iff, lookup?_eq_some_iff]
  constructor
  · rintro ⟨p, leads, file⟩
    have stays := kept path p asked leads
    exact ⟨p, (resolve_without files wf free).2 ⟨leads, stays⟩,
      by rw [get?_without files, if_neg stays, file]⟩
  · rintro ⟨p, leads, file⟩
    obtain ⟨leads, stays⟩ := (resolve_without files wf free).1 leads
    rw [get?_without files, if_neg stays] at file
    exact ⟨p, leads, file⟩

namespace Session

def globalAndEntries : FileTree :=
  ⟨[(["site"], .directory), (["site", "globals"], .directory),
    (["site", "globals", "seo.yaml"], .file "fields: [{handle: motto}]".toUTF8),
    (["site", "collections"], .directory), (["site", "collections", "blog"], .directory),
    (["site", "collections", "blog", "post.yaml"], .file "fields: [{handle: lead}]".toUTF8),
    (["app"], .directory),
    (["app", "b.php"], .file "<?php Collection::computed('a', 'brand');".toUTF8)]⟩

theorem motto_apart_from_entries :
    let c : Config := { blueprintPaths := ["site"], scanPaths := ["app"] }
    let gone : List Place := [["site", "collections", "blog", "post.yaml"], ["app", "b.php"]]
    let a := (start c globalAndEntries).run []
    let b := (start c (globalAndEntries.without gone)).run []
    let unscripted := (start c (globalAndEntries.without [["app", "b.php"]])).run []
    a.AnswerAlike b .global ∧ a.AnswerAlike unscripted .term ∧
    (a.answer (.fields .global)).map Field.handle = ["motto"] ∧
    (a.answer (.fields .entry)).map Field.handle = ["lead", "brand"] ∧
    (b.answer (.fields .entry)).map Field.handle = [] := by
  intro c gone a b unscripted
  have wf : globalAndEntries.WellFormed := by decide +kernel
  have free : globalAndEntries.LinkFree := wf.linkFree (by decide +kernel)
  have files : globalAndEntries.HoldsFiles gone :=
    List.forall_mem_cons.2 ⟨⟨_, rfl⟩, List.forall_mem_cons.2 ⟨⟨_, rfl⟩, List.forall_mem_nil _⟩⟩
  have agree : globalAndEntries.AgreeOn (globalAndEntries.without gone) (c.Reaches .global) := by
    refine FileTree.agreeOn_without files wf free fun path p reached leads => ?_
    -- A path to a global goes down from the directory of the globals.
    have below : ∃ names, (∀ n ∈ names, Path.IsName n) ∧
        path = Path.descend (Path.join "site" "globals") names := by
      generalize typed : ContentType.global = type at reached
      cases reached with
      | script => cases typed
      | @blueprint base k names given convened some named =>
        obtain rfl := List.mem_singleton.1 given
        have globals : ∀ k ∈ Location.conventions, ContentType.global = k.contentType →
            k.directory = "globals" := by decide
        exact ⟨names, named, by rw [globals k convened typed]⟩
    obtain ⟨names, named, rfl⟩ := below
    obtain ⟨q, reached, rfl, -⟩ := (FileTree.resolve_descend wf free.linksDangle named
      (by decide +kernel)).1 leads
    have there : globalAndEntries.resolve (Path.join "site" "globals") = .ok ["site", "globals"] := by
      decide +kernel
    rw [there] at reached
    cases reached
    simp [gone]
  have files' : globalAndEntries.HoldsFiles [["app", "b.php"]] :=
    List.forall_mem_singleton.2 ⟨_, rfl⟩
  have agree' : globalAndEntries.AgreeOn (globalAndEntries.without [["app", "b.php"]])
      (fun path => ComputedField.isScript path = false) := by
    refine FileTree.agreeOn_without files' wf free fun path p asked leads gone => ?_
    rw [List.mem_singleton.1 gone] at leads
    obtain ⟨q, name, split, last⟩ := FileTree.fileName?_of_file wf free.linksDangle leads rfl
    obtain ⟨-, ⟨⟩⟩ := List.append_inj' (show ["app"] ++ ["b.php"] = q ++ [name] from split) rfl
    have script : (Path.splitName "b.php").2 = some ComputedField.extension := by decide +kernel
    rw [ComputedField.isScript, Path.extension?, last, Option.bind_some, script] at asked
    cases asked
  have apart := @content_types_apart _ _ c wf free (wf.without files) (free.without files) []
    (by simp) .global
  have unread := @content_types_apart _ _ c wf free (wf.without files') (free.without files') []
    (by simp) .term
  exact ⟨apart.1 agree, unread.2 (by decide) agree', by decide +kernel, by decide +kernel,
    by decide +kernel⟩

end Session

end BlueprintSchema
