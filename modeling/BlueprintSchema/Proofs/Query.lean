import BlueprintSchema.Analyzer

/-! What the questions to a repository answer and what they leave behind. Every question answers by a
function of the registry that it sees, and either settles that registry or leaves the repository as
it is; which of the two depends on the question alone. `Query.Reads` states both at once, and there is
one lemma of that form for every question. -/

namespace BlueprintSchema

namespace Registry

def lookup? (g : Registry) (type : ContentType) (name : String) : Option Lookup :=
  match ContentClass.universalProperty? type name with
  | some u => some (.universal u)
  | none => (g.get? type name).map .field

def property? (g : Registry) (custom : Dict String) (c : ClassInfo) (name : String) :
    Option Property :=
  (ContentClass.contentType? c).bind fun type =>
    (g.lookup? type name).map fun l => ⟨c.name, l.type custom⟩

def hasProperty (g : Registry) (c : ClassInfo) (name : String) : Bool :=
  (ContentClass.contentType? c).any fun type => (g.lookup? type name).isSome

/-- The reports of a rule on a fetch, if these are the fields: the first content class decides. -/
def reports (g : Registry) (rule : UndefinedField) (fetch : Fetch) : List Diagnostic :=
  match rule.isEnabled, fetch.name with
  | true, .known name =>
    match fetch.receivers.find? ContentClass.isContentClass with
    | some c => if g.hasProperty c name then [] else [rule.report name c fetch.line]
    | none => []
  | _, _ => []

end Registry

/-- Whether it takes the fields to say what a name stands for on a content type. -/
def ContentClass.needsFields (type : ContentType) (name : String) : Bool :=
  (universalProperty? type name).isNone

def ContentClass.needsFieldsOf (c : ClassInfo) (name : String) : Bool :=
  (contentType? c).any fun type => needsFields type name

def UndefinedField.needsFields (rule : UndefinedField) (fetch : Fetch) : Bool :=
  match rule.isEnabled, fetch.name with
  | true, .known name =>
    (fetch.receivers.find? ContentClass.isContentClass).any fun c =>
      ContentClass.needsFieldsOf c name
  | _, _ => false

namespace Repository

/-- The registry that a question sees: the snapshot, or else what the files hold now. -/
def current (r : Repository) (t : FileTree) : Registry := r.snapshot.getD (r.build t)

def settled (r : Repository) (t : FileTree) : Repository := { r with snapshot := some (r.current t) }

theorem current_of_snapshot {r : Repository} {g : Registry} (h : r.snapshot = some g)
    (t : FileTree) : r.current t = g := by
  rw [current, h, Option.getD_some]

theorem settled_of_snapshot {r : Repository} {g : Registry} (h : r.snapshot = some g)
    (t : FileTree) : r.settled t = r := by
  rw [settled, current_of_snapshot h, ← h]

end Repository

namespace Query

/-- A question answers by `f` of the registry that it sees; it settles that registry if it reaches for
it, and else leaves the repository as it is. -/
def Reads {α : Type} (q : Query α) (reaches : Bool) (f : Registry → α) : Prop :=
  ∀ t r, (q.run t).run r = (f (r.current t), if reaches then r.settled t else r)

theorem reads_pure {α : Type} (x : α) : Reads (pure x : Query α) false fun _ => x :=
  fun _ _ => rfl

theorem reads_registry : Reads Repository.registry true fun g => g := by
  intro t r
  rw [Repository.run_registry]
  cases h : r.snapshot with
  | none => simp [Repository.current, Repository.settled, h]
  | some g => simp [Repository.current_of_snapshot h, Repository.settled_of_snapshot h]

theorem Reads.map {α β : Type} {q : Query α} {reaches : Bool} {f : Registry → α}
    (h : Reads q reaches f) (g : α → β) : Reads (g <$> q) reaches fun r => g (f r) := by
  intro t r
  have run := h t r
  simp only [ReaderT.run_map, StateT.run_map, run]
  rfl

theorem reads_fields (type : ContentType) :
    Reads (Repository.fields type) true fun g => g.fields type :=
  reads_registry.map fun g => g.fields type

theorem reads_fieldMap (type : ContentType) :
    Reads (Repository.fieldMap type) true fun g => g.fieldMap type :=
  reads_registry.map fun g => g.fieldMap type

theorem reads_field? (type : ContentType) (handle : String) :
    Reads (Repository.field? type handle) true fun g => g.get? type handle :=
  reads_registry.map fun g => g.get? type handle

theorem reads_lookup? (type : ContentType) (name : String) :
    Reads (Repository.lookup? type name) (ContentClass.needsFields type name)
      fun g => g.lookup? type name := by
  unfold Repository.lookup? Registry.lookup? ContentClass.needsFields
  cases ContentClass.universalProperty? type name with
  | some u => exact reads_pure _
  | none => exact (reads_field? type name).map (Option.map Lookup.field)

theorem reads_has (type : ContentType) (name : String) :
    Reads (Repository.has type name) (ContentClass.needsFields type name)
      fun g => (g.lookup? type name).isSome :=
  (reads_lookup? type name).map Option.isSome

theorem reads_hasProperty (c : ClassInfo) (name : String) :
    Reads (Property.has c name) (ContentClass.needsFieldsOf c name)
      fun g => g.hasProperty c name := by
  unfold Property.has Registry.hasProperty ContentClass.needsFieldsOf
  cases ContentClass.contentType? c with
  | some type => exact reads_has type name
  | none => exact reads_pure _

theorem reads_property? (custom : Dict String) (c : ClassInfo) (name : String) :
    Reads (Property.get? custom c name) (ContentClass.needsFieldsOf c name)
      fun g => g.property? custom c name := by
  unfold Property.get? Registry.property? ContentClass.needsFieldsOf
  cases ContentClass.contentType? c with
  | some type => exact (reads_lookup? type name).map _
  | none => exact reads_pure _

theorem checkName_eq (rule : UndefinedField) (name : String) (line : Option Nat)
    (cs : List ClassInfo) :
    rule.checkName name line cs =
      match cs.find? ContentClass.isContentClass with
      | some c => (fun found => if found then [] else [rule.report name c line]) <$>
          Property.has c name
      | none => pure [] := by
  induction cs with
  | nil => rfl
  | cons c cs ih =>
    rw [UndefinedField.checkName]
    cases hc : ContentClass.contentType? c with
    | none => simpa [ContentClass.isContentClass, hc] using ih
    | some type =>
      simp only [List.find?_cons, ContentClass.isContentClass, hc, Option.isSome_some, Property.has]
      rfl

theorem reads_check (rule : UndefinedField) (fetch : Fetch) :
    Reads (rule.check fetch) (rule.needsFields fetch) fun g => g.reports rule fetch := by
  unfold UndefinedField.check UndefinedField.needsFields Registry.reports
  cases rule.isEnabled with
  | false => exact reads_pure _
  | true =>
    cases fetch.name with
    | dynamic => exact reads_pure _
    | known name =>
      simp only [checkName_eq]
      cases fetch.receivers.find? ContentClass.isContentClass with
      | none => exact reads_pure _
      | some c => exact (reads_hasProperty c name).map _

end Query

namespace Analyzer

def current (a : Analyzer) (t : FileTree) : Registry := a.repository.current t

theorem ask_of_reads {α : Type} {q : Query α} {reaches : Bool} {f : Registry → α}
    (h : Query.Reads q reaches f) (a : Analyzer) (t : FileTree) :
    a.ask t q = (f (a.current t),
      { a with repository := if reaches then a.repository.settled t else a.repository }) := by
  simp only [ask, h t a.repository]
  rfl

theorem answer_of_reads {α : Type} {q : Query α} {reaches : Bool} {f : Registry → α}
    (h : Query.Reads q reaches f) (a : Analyzer) (t : FileTree) :
    (a.ask t q).1 = f (a.current t) := by
  rw [ask_of_reads h]

end Analyzer

end BlueprintSchema
