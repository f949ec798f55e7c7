import BlueprintSchema.FileTree.Edit
import BlueprintSchema.Proofs.Query

/-! Runs in which the files change between the questions to an analyser. The first question that
reaches the registry fixes it; from then on every answer is the one that a new analyser would give on
the files of that moment, and before it every answer is up to date. A scanner likewise keeps what its
first scan found. Main statement: `Session.answer_run`. -/

namespace BlueprintSchema

inductive Edit
  | write (path : String) (content : ByteArray)
  | makeDirectory (path : String)
  | makeLink (path target : String)
  | remove (path : String)

def FileTree.edit (t : FileTree) : Edit → FileTree
  | .write path content => t.write path content
  | .makeDirectory path => t.makeDirectory path
  | .makeLink path target => t.makeLink path target
  -- Removing what is not there changes nothing.
  | .remove path => (t.remove? path).getD t

inductive Question : Type → Type
  | registry : Question Registry
  | fields (type : ContentType) : Question (List Field)
  | fieldMap (type : ContentType) : Question (Dict Field)
  | field (type : ContentType) (handle : String) : Question (Option Field)
  | lookup (type : ContentType) (name : String) : Question (Option Lookup)
  | has (type : ContentType) (name : String) : Question Bool
  | hasProperty (c : ClassInfo) (name : String) : Question Bool
  | property (c : ClassInfo) (name : String) : Question (Option Property)
  | check (fetch : Fetch) : Question (List Diagnostic)

namespace Question

def query (a : Analyzer) : {α : Type} → Question α → Query α
  | _, registry => Repository.registry
  | _, fields type => Repository.fields type
  | _, fieldMap type => Repository.fieldMap type
  | _, field type handle => Repository.field? type handle
  | _, lookup type name => Repository.lookup? type name
  | _, has type name => Repository.has type name
  | _, hasProperty c name => Property.has c name
  | _, property c name => a.property? c name
  | _, check fetch => a.check fetch

/-- Whether a question reaches the registry. A universal name, a class without content, a name that
is not known and a rule that is switched off decide without it. -/
def reaches (c : Config) : {α : Type} → Question α → Bool
  | _, registry => true
  | _, fields _ => true
  | _, fieldMap _ => true
  | _, field _ _ => true
  | _, lookup type name => ContentClass.needsFields type name
  | _, has type name => ContentClass.needsFields type name
  | _, hasProperty cl name => ContentClass.needsFieldsOf cl name
  | _, property cl name => ContentClass.needsFieldsOf cl name
  | _, check fetch => (Analyzer.ofConfig c).rule.needsFields fetch

def answerIn (c : Config) (g : Registry) : {α : Type} → Question α → α
  | _, registry => g
  | _, fields type => g.fields type
  | _, fieldMap type => g.fieldMap type
  | _, field type handle => g.get? type handle
  | _, lookup type name => g.lookup? type name
  | _, has type name => (g.lookup? type name).isSome
  | _, hasProperty cl name => g.hasProperty cl name
  | _, property cl name => g.property? c.customFieldtypes cl name
  | _, check fetch => g.reports (Analyzer.ofConfig c).rule fetch

theorem reads_query (a : Analyzer) {α : Type} (q : Question α) :
    Query.Reads (q.query a) (q.reaches a.config) fun g => q.answerIn a.config g := by
  cases q with
  | registry => exact Query.reads_registry
  | fields type => exact Query.reads_fields type
  | fieldMap type => exact Query.reads_fieldMap type
  | field type handle => exact Query.reads_field? type handle
  | lookup type name => exact Query.reads_lookup? type name
  | has type name => exact Query.reads_has type name
  | hasProperty c name => exact Query.reads_hasProperty c name
  | property c name => exact Query.reads_property? a.customFieldtypes c name
  | check fetch => exact Query.reads_check a.rule fetch

end Question

inductive Event : Type 1
  | edit (e : Edit)
  | ask {α : Type} (q : Question α)

def Event.reaches (c : Config) : Event → Bool
  | edit _ => false
  | ask q => q.reaches c

structure Session where
  files : FileTree
  analyzer : Analyzer

namespace Session

def start (c : Config) (t : FileTree) : Session := ⟨t, .ofConfig c⟩

def answer (s : Session) {α : Type} (q : Question α) : α :=
  (s.analyzer.ask s.files (q.query s.analyzer)).1

def step (s : Session) : Event → Session
  | .edit e => { s with files := s.files.edit e }
  | .ask q => { s with analyzer := (s.analyzer.ask s.files (q.query s.analyzer)).2 }

def run (s : Session) (events : List Event) : Session := events.foldl step s

def current (s : Session) : Registry := s.analyzer.current s.files

theorem answer_eq (s : Session) {α : Type} (q : Question α) :
    s.answer q = q.answerIn s.analyzer.config s.current :=
  Analyzer.answer_of_reads (q.reads_query s.analyzer) s.analyzer s.files

theorem step_ask (s : Session) {α : Type} (q : Question α) :
    s.step (.ask q) = ⟨s.files, ⟨s.analyzer.config,
      if q.reaches s.analyzer.config then s.analyzer.repository.settled s.files
      else s.analyzer.repository⟩⟩ := by
  rw [step, Analyzer.ask_of_reads (q.reads_query s.analyzer)]

theorem step_of_quiet (s : Session) {e : Event} (h : e.reaches s.analyzer.config = false) :
    (s.step e).analyzer = s.analyzer := by
  cases e with
  | edit e => rfl
  | ask q =>
    have quiet : q.reaches s.analyzer.config = false := h
    rw [step_ask, quiet]
    rfl

theorem step_of_snapshot {s : Session} {g : Registry}
    (h : s.analyzer.repository.snapshot = some g) (e : Event) :
    (s.step e).analyzer = s.analyzer := by
  cases e with
  | edit e => rfl
  | ask q =>
    rw [step_ask, Repository.settled_of_snapshot h, ite_self]

theorem run_of_quiet (s : Session) {events : List Event}
    (h : ∀ e ∈ events, e.reaches s.analyzer.config = false) :
    (s.run events).analyzer = s.analyzer := by
  induction events generalizing s with
  | nil => rfl
  | cons e events ih =>
    have first := step_of_quiet s (h e List.mem_cons_self)
    have rest : ∀ d ∈ events, d.reaches (s.step e).analyzer.config = false := by
      intro d hd
      rw [first]
      exact h d (List.mem_cons_of_mem _ hd)
    exact (ih (s.step e) rest).trans first

theorem run_of_snapshot {s : Session} {g : Registry}
    (h : s.analyzer.repository.snapshot = some g) (events : List Event) :
    (s.run events).analyzer = s.analyzer := by
  induction events generalizing s with
  | nil => rfl
  | cons e events ih =>
    have first := step_of_snapshot h e
    exact (ih (first ▸ h)).trans first

theorem run_append (s : Session) (before after : List Event) :
    s.run (before ++ after) = (s.run before).run after := by
  simp [run, List.foldl_append]

theorem answer_of_fresh {s : Session} {c : Config} (h : s.analyzer = .ofConfig c) {α : Type}
    (q : Question α) : s.answer q = (start c s.files).answer q := by
  cases s
  cases h
  rfl

theorem snapshot_step_ask {s : Session} {c : Config} (h : s.analyzer = .ofConfig c) {α : Type}
    {q : Question α} (hq : q.reaches c = true) :
    (s.step (.ask q)).analyzer =
      ⟨c, ⟨c.blueprintPaths, c.scanPaths, (start c s.files).current⟩⟩ := by
  cases s
  cases h
  rw [step_ask, if_pos hq]
  rfl

end Session

namespace ComputedField

inductive ScanEvent
  | edit (e : Edit)
  | scan

def ScanEvent.isScan : ScanEvent → Bool
  | edit _ => false
  | scan => true

namespace Scanner

def scans (s : Scanner) (t : FileTree) : List ScanEvent → List (List Field)
  | [] => []
  | .edit e :: events => s.scans (t.edit e) events
  | .scan :: events => (s.scan t).1 :: (s.scan t).2.scans t events

theorem scans_of_found {s : Scanner} {fs : List Field} (h : s.found = some fs) (t : FileTree)
    (events : List ScanEvent) :
    s.scans t events = List.replicate (events.countP ScanEvent.isScan) fs := by
  have again : ∀ u, s.scan u = (fs, s) := by simp [scan, h]
  induction events generalizing t with
  | nil => rfl
  | cons e events ih =>
    cases e with
    | edit e => exact ih (t.edit e)
    | scan => rw [scans, again, ih, List.countP_cons_of_pos rfl, List.replicate_succ]

theorem scans_eq_replicate (paths : List String) (t : FileTree) (edits : List Edit)
    (events : List ScanEvent) :
    scans ⟨paths, none⟩ t (edits.map .edit ++ .scan :: events) =
      List.replicate (events.countP ScanEvent.isScan + 1)
        (discover (edits.foldl FileTree.edit t) paths) := by
  induction edits generalizing t with
  | nil =>
    have rest := scans_of_found (s := ⟨paths, some (discover t paths)⟩) rfl t events
    exact congrArg (discover t paths :: ·) rest
  | cons e edits ih => exact ih (t.edit e)

end Scanner

end ComputedField

namespace Session

/-- Before a question reaches the registry every answer is that of a new analyser on the files as they
are; from the first such question on it is that of a new analyser on the files of that moment. A
question reaches the registry exactly if it leaves a snapshot. The scans of a scanner all find the
same. -/
theorem answer_run (c : Config) (t : FileTree) :
    (∀ events : List Event, (∀ e ∈ events, e.reaches c = false) → ∀ {α : Type} (q : Question α),
      ((start c t).run events).answer q =
        (start c ((start c t).run events).files).answer q) ∧
    (∀ (before : List Event) {α : Type} (q : Question α) (after : List Event),
      (∀ e ∈ before, e.reaches c = false) → q.reaches c = true → ∀ {β : Type} (later : Question β),
      ((start c t).run (before ++ .ask q :: after)).answer later =
        (start c ((start c t).run before).files).answer later) ∧
    (∀ {α : Type} (q : Question α), q.reaches c = true ↔
      ((start c t).step (.ask q)).analyzer.repository.snapshot.isSome) ∧
    (∀ (paths : List String) (edits : List Edit) (events : List ComputedField.ScanEvent),
      ComputedField.Scanner.scans ⟨paths, none⟩ t (edits.map .edit ++ .scan :: events) =
        List.replicate (events.countP ComputedField.ScanEvent.isScan + 1)
          (ComputedField.discover (edits.foldl FileTree.edit t) paths)) := by
  have unasked : ∀ events : List Event, (∀ e ∈ events, e.reaches c = false) →
      ((start c t).run events).analyzer = .ofConfig c := fun _ quiet => run_of_quiet _ quiet
  refine ⟨fun events quiet α q => answer_of_fresh (unasked events quiet) q,
    fun before α q after quiet hq β later => ?_, fun {α} q => ?_,
    fun paths edits events => ComputedField.Scanner.scans_eq_replicate paths t edits events⟩
  -- The reaching question is the last event that touches the analyser.
  · have fixed := snapshot_step_ask (unasked before quiet) hq
    have kept := run_of_snapshot (by rw [fixed]) after
    have all : ((start c t).run (before ++ .ask q :: after)).analyzer =
        (((start c t).run before).step (.ask q)).analyzer := by
      rw [run_append]
      exact kept
    rw [answer_eq, answer_eq, current, all, fixed, Analyzer.current,
      Repository.current_of_snapshot rfl]
    rfl
  · rw [step_ask]
    by_cases hq : q.reaches c = true
    · simp [start, Analyzer.ofConfig, hq, Repository.settled]
    · simp [start, Analyzer.ofConfig, hq]

theorem removed_site_still_answered :
    let c : Config := { blueprintPaths := ["/b"], scanPaths := [] }
    let before : List Event :=
      [.ask (.has .entry "title"),
        .edit (.write "/b/globals/settings.yaml" "fields: [{handle: site}]".toUTF8),
        .ask (.check ⟨.dynamic, [.ofName "Statamic\\Entries\\Entry"], none⟩)]
    let after : List Event := [.edit (.remove "/b"), .ask .registry]
    (∀ e ∈ before, e.reaches c = false) ∧ (Question.has .global "site").reaches c = true ∧
    ((start c ⟨[]⟩).run before).answer (.has .global "site") =
      (start c ((start c ⟨[]⟩).run before).files).answer (.has .global "site") ∧
    ((start c ⟨[]⟩).run (before ++ .ask (.has .global "site") :: after)).answer (.fields .global) =
      (start c ((start c ⟨[]⟩).run before).files).answer (.fields .global) ∧
    ((start c ((start c ⟨[]⟩).run before).files).answer (.fields .global)).map Field.handle =
      ["site"] := by
  intro c before after
  have quiet : ∀ e ∈ before, e.reaches c = false := by
    intro e he
    simp only [before, List.mem_cons, List.not_mem_nil, or_false] at he
    rcases he with rfl | rfl | rfl <;> decide +kernel
  have reaching : (Question.has .global "site").reaches c = true := by decide +kernel
  obtain ⟨current, fixed, _⟩ := answer_run c ⟨[]⟩
  exact ⟨quiet, reaching, current before quiet (.has .global "site"),
    fixed before (.has .global "site") after quiet reaching (.fields .global), by decide +kernel⟩

end Session

end BlueprintSchema
