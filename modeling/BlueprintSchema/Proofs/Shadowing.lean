import BlueprintSchema.Proofs.Agreement
import BlueprintSchema.Proofs.Merge
import BlueprintSchema.Proofs.Snapshot
import Mathlib.Data.List.TakeWhile

/-! Universal properties come before fields on every way to ask for a name, whatever the files hold and
whatever happened before, so no two analysers differ on them. The fields that they hide stay visible to
the questions about fields alone. Main statement: `Session.universal_not_influenced`. -/

namespace BlueprintSchema

/-- What the files hold for a content type: the fields of its documents by location, and on entries
the computed fields. -/
def Config.discovered (c : Config) (t : FileTree) (type : ContentType) : List Field :=
  (Location.ofType t c.blueprintPaths type).flatMap (fun l => Blueprint.fields t l.path) ++
    if type = .entry then ComputedField.discover t c.scanPaths else []

namespace Registry

theorem lookup?_of_universal {type : ContentType} {name : String} {fixed : SemanticType}
    (h : ContentClass.universalProperty? type name = some fixed) (g : Registry) :
    g.lookup? type name = some (.universal fixed) := by
  rw [lookup?, h]

theorem lookup?_of_not_universal {type : ContentType} {name : String}
    (h : ContentClass.universalProperty? type name = none) (g : Registry) :
    g.lookup? type name = (g.get? type name).map .field := by
  rw [lookup?, h]

theorem get?_ofFiles_eq_last? (c : Config) (t : FileTree) (type : ContentType) (handle : String) :
    (ofFiles t c.blueprintPaths c.scanPaths).get? type handle =
      Field.last? handle (c.discovered t type) := by
  rw [(indexed_ofFiles t c.blueprintPaths c.scanPaths).get?_eq, fields_ofFiles, Config.discovered]

end Registry

namespace Session

theorem config_step (s : Session) (e : Event) : (s.step e).analyzer.config = s.analyzer.config := by
  cases e with
  | edit e => rfl
  | ask q => rw [step_ask]

theorem config_run (s : Session) (events : List Event) :
    (s.run events).analyzer.config = s.analyzer.config := by
  induction events generalizing s with
  | nil => rfl
  | cons e events ih => exact (ih (s.step e)).trans (config_step s e)

theorem answer_run_eq (c : Config) (t : FileTree) (events : List Event) {α : Type} (q : Question α) :
    ((start c t).run events).answer q = q.answerIn c ((start c t).run events).current := by
  rw [answer_eq, config_run]
  rfl

theorem current_run (c : Config) (t : FileTree) (events : List Event) :
    ((start c t).run events).current =
      .ofFiles ((start c t).run (events.takeWhile fun e => !e.reaches c)).files c.blueprintPaths
        c.scanPaths := by
  have unasked : ∀ before : List Event, (∀ e ∈ before, e.reaches c = false) →
      ((start c t).run before).analyzer = .ofConfig c := fun _ quiet => run_of_quiet _ quiet
  cases first : events.find? (Event.reaches c) with
  | none =>
    have quiet : ∀ e ∈ events, e.reaches c = false := by simpa using List.find?_eq_none.1 first
    have all : events.takeWhile (fun e => !e.reaches c) = events :=
      List.takeWhile_eq_self_iff.2 (by simpa using quiet)
    rw [all, current, unasked events quiet]
    rfl
  | some e =>
    obtain ⟨reaching, before, after, rfl, quiet⟩ := List.find?_eq_some_iff_append.1 first
    have until_ : (before ++ e :: after).takeWhile (fun e => !e.reaches c) = before := by
      rw [List.takeWhile_append_of_pos quiet, List.takeWhile_cons_of_neg (by simp [reaching]),
        List.append_nil]
    rw [until_]
    cases e with
    | edit e => exact absurd reaching Bool.false_ne_true
    | ask q =>
      have fixed := snapshot_step_ask (unasked before (by simpa using quiet)) reaching
      have kept := run_of_snapshot (by rw [fixed]) after
      have all : ((start c t).run (before ++ .ask q :: after)).analyzer =
          (((start c t).run before).step (.ask q)).analyzer := by
        rw [run_append]
        exact kept
      rw [current, all, fixed, Analyzer.current, Repository.current_of_snapshot rfl]
      rfl

/-- Whatever happens in a session, it answers by what the files held at some moment of it: now, if no
question has reached the registry, and else at the first one that did. -/
theorem exists_moment (c : Config) (t : FileTree) (events : List Event) :
    ∃ before after, events = before ++ after ∧ ((start c t).run events).current =
      .ofFiles ((start c t).run before).files c.blueprintPaths c.scanPaths :=
  ⟨_, _, List.takeWhile_append_dropWhile.symm, current_run c t events⟩

structure AnswersFixed (s : Session) (type : ContentType) (name : String) (fixed : SemanticType) :
    Prop where
  has : s.answer (.has type name) = true
  lookup : s.answer (.lookup type name) = some (.universal fixed)
  hasProperty : ∀ cl, ContentClass.contentType? cl = some type →
    s.answer (.hasProperty cl name) = true
  property : ∀ cl, ContentClass.contentType? cl = some type →
    s.answer (.property cl name) = some ⟨cl.name, fixed⟩
  check : ∀ cl receivers line, ContentClass.contentType? cl = some type →
    ContentClass.IsFirst cl receivers → s.answer (.check ⟨.known name, receivers, line⟩) = []

theorem answersFixed_of_universal {type : ContentType} {name : String} {fixed : SemanticType}
    (h : ContentClass.universalProperty? type name = some fixed) (s : Session) :
    s.AnswersFixed type name fixed := by
  have stands := Registry.lookup?_of_universal h s.current
  have owns : ∀ cl, ContentClass.contentType? cl = some type →
      s.current.hasProperty cl name = true := by
    intro cl holds
    exact (Registry.hasProperty_iff _ cl name).2 ⟨type, holds, by rw [stands]; rfl⟩
  constructor
  case has => rw [answer_eq, Question.answerIn, stands]; rfl
  case lookup => rw [answer_eq, Question.answerIn, stands]
  case hasProperty => exact fun cl holds => by rw [answer_eq, Question.answerIn, owns cl holds]
  case property =>
    intro cl holds
    rw [answer_eq, Question.answerIn, Registry.property?, holds, Option.bind_some, stands]
    rfl
  case check =>
    intro cl receivers line holds first
    rw [answer_eq, Question.answerIn]
    exact (Registry.reports_eq_nil_iff _ name line).2 (.inr (.inr ⟨cl, first, owns cl holds⟩))

/-- Two sessions answer alike about a universal property, whatever their configurations and files are
and whatever happened in them. The definitions that it hides are still listed and found among the
fields, as the files held them. Any other name stands for a field or for nothing. -/
theorem universal_not_influenced (c d : Config) (t u : FileTree) (events events' : List Event)
    (type : ContentType) (name : String) :
    (∀ fixed, ContentClass.universalProperty? type name = some fixed →
      ((start c t).run events).AnswersFixed type name fixed ∧
        ((start d u).run events').AnswersFixed type name fixed) ∧
    (∃ before after, events = before ++ after ∧
      let found := c.discovered ((start c t).run before).files type
      ((start c t).run events).answer (.fields type) = found ∧
      ∀ handle, ((start c t).run events).answer (.field type handle) = Field.last? handle found ∧
        (((start c t).run events).answer (.fieldMap type)).get? handle =
          Field.last? handle found) ∧
    (ContentClass.universalProperty? type name = none →
      ((start c t).run events).answer (.lookup type name) =
        (((start c t).run events).answer (.field type name)).map .field ∧
      ∀ l, ((start c t).run events).answer (.lookup type name) = some l → l.isUniversal = false) := by
  refine ⟨fun fixed h => ⟨answersFixed_of_universal h _, answersFixed_of_universal h _⟩, ?_,
    fun h => ?_⟩
  · obtain ⟨before, after, split, held⟩ := exists_moment c t events
    refine ⟨before, after, split, ?_, fun handle => ⟨?_, ?_⟩⟩
    · rw [answer_eq, Question.answerIn, held, Registry.fields_ofFiles, Config.discovered]
    · rw [answer_eq, Question.answerIn, held, Registry.get?_ofFiles_eq_last?]
    · rw [answer_eq, Question.answerIn, Registry.get?_fieldMap, held, Registry.fields_ofFiles,
        Config.discovered]
  · have stands := Registry.lookup?_of_not_universal h ((start c t).run events).current
    refine ⟨?_, fun l found => ?_⟩
    · rw [answer_eq, answer_eq, Question.answerIn, Question.answerIn, stands]
    · rw [answer_eq, Question.answerIn, stands] at found
      obtain ⟨f, -, rfl⟩ := Option.map_eq_some_iff.1 found
      rfl

theorem hidden_title_still_listed :
    let c : Config := { blueprintPaths := ["/b"], scanPaths := [] }
    let t := (⟨[]⟩ : FileTree).write "/b/collections/posts/post.yaml"
      "fields: [{handle: title}]".toUTF8
    let a := (start c t).run [.ask .registry]
    let b := (start {} ⟨[]⟩).run []
    let entry := ClassInfo.ofName "Statamic\\Entries\\Entry"
    ContentClass.universalProperty? .entry "title" = some .string ∧
    (a.AnswersFixed .entry "title" .string ∧ b.AnswersFixed .entry "title" .string) ∧
    ContentClass.contentType? entry = some .entry ∧
    a.answer (.property entry "title") = b.answer (.property entry "title") ∧
    (a.answer (.fields .entry)).map Field.handle = ["title"] ∧
    ContentClass.universalProperty? .entry "motto" = none ∧
    a.answer (.lookup .entry "motto") = (a.answer (.field .entry "motto")).map .field := by
  intro c t a b entry
  have fixed : ContentClass.universalProperty? .entry "title" = some .string := rfl
  have free : ContentClass.universalProperty? .entry "motto" = none := rfl
  have holds : ContentClass.contentType? entry = some .entry := by decide +kernel
  have title := universal_not_influenced c {} t ⟨[]⟩ [.ask .registry] [] .entry "title"
  have motto := universal_not_influenced c {} t ⟨[]⟩ [.ask .registry] [] .entry "motto"
  have same := title.1 .string fixed
  exact ⟨fixed, same, holds, (same.1.property entry holds).trans (same.2.property entry holds).symm,
    by decide +kernel, free, (motto.2.2 free).1⟩

end Session

end BlueprintSchema
