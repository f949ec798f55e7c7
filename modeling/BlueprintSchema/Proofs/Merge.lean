import BlueprintSchema.FileTree.Edit
import BlueprintSchema.Proofs.Query
import BlueprintSchema.Proofs.Registry

/-! What the registry of a project holds. The locations of all content types come mixed; each bucket
nevertheless holds the documents of its own type in their order, with the computed fields at the end
of the entries. Of several definitions of a handle the computed one wins, and else the last one in the
last document that has any. Main statement: `Analyzer.merges_documents`. -/

namespace BlueprintSchema

namespace Field

def declares (handle : String) (fs : List Field) : Bool := fs.any fun f => f.handle == handle

theorem last?_eq_none_iff_declares {handle : String} {fs : List Field} :
    last? handle fs = none ↔ declares handle fs = false := by
  simp [last?_eq_none_iff, declares]

theorem last?_flatten (handle : String) (docs : List (List Field)) :
    last? handle docs.flatten =
      (docs.filter (declares handle)).getLast?.bind (last? handle) := by
  induction docs with
  | nil => rfl
  | cons doc docs ih =>
    rw [List.flatten_cons, last?_append, ih]
    cases hd : declares handle doc with
    | false =>
      rw [last?_eq_none_iff_declares.2 hd, Option.or_none,
        List.filter_cons_of_neg (by simp [hd])]
    -- This document declares the handle, but a later one that does comes before it.
    | true =>
      rw [List.filter_cons_of_pos hd, List.getLast?_cons]
      cases hl : (docs.filter (declares handle)).getLast? with
      | none => rfl
      | some last =>
        have declared := (List.mem_filter.1 (List.mem_of_getLast? hl)).2
        cases hf : last? handle last with
        | none => simp [last?_eq_none_iff_declares.1 hf] at declared
        | some f => simp [hf]

theorem last?_computed {handle : String} {fs : List Field}
    (h : ∀ f ∈ fs, f = computed f.handle) (declared : declares handle fs = true) :
    last? handle fs = some (computed handle) := by
  cases hf : last? handle fs with
  | none => simp [last?_eq_none_iff_declares.1 hf] at declared
  | some f =>
    obtain ⟨member, named⟩ := handle_of_last? hf
    rw [h f member, named]

end Field

namespace ComputedField

theorem computed_of_mem_ofScript {path source : String} {fs : List Field}
    (h : ofScript path source = .ok fs) : ∀ f ∈ fs, f = Field.computed f.handle := by
  intro f hf
  unfold ofScript at h
  split at h
  · split at h
    · obtain rfl := Except.ok.inj h
      obtain ⟨handle, _, rfl⟩ := List.mem_map.1 hf
      rfl
    · nomatch h
  · obtain rfl := Except.ok.inj h
    nomatch hf

theorem computed_of_mem_discover {t : FileTree} {paths : List String} :
    ∀ f ∈ discover t paths, f = Field.computed f.handle := by
  intro f hf
  obtain ⟨path, _, hf⟩ := List.mem_flatMap.1 hf
  cases hs : ofFile t path with
  | error e => simp [hs] at hf
  | ok fs =>
    simp only [hs] at hf
    unfold ofFile at hs
    split at hs
    · exact computed_of_mem_ofScript hs f hf
    · nomatch hs

end ComputedField

namespace Registry

/-- What a project's registry is extended by: each document at its location, then what scripts
register. -/
def batches (t : FileTree) (blueprintPaths scanPaths : List String) :
    List (ContentType × List Field) :=
  (Location.all t blueprintPaths).map (fun l => (l.contentType, Blueprint.fields t l.path)) ++
    [(.entry, ComputedField.discover t scanPaths)]

theorem ofFiles_eq_extendAll (t : FileTree) (blueprintPaths scanPaths : List String) :
    ofFiles t blueprintPaths scanPaths = empty.extendAll (batches t blueprintPaths scanPaths) := by
  simp only [ofFiles, extendAll, batches, List.foldl_append, List.foldl_map, List.foldl_cons,
    List.foldl_nil]

theorem given_batches (t : FileTree) (blueprintPaths scanPaths : List String)
    (type : ContentType) :
    given (batches t blueprintPaths scanPaths) type =
      (Location.ofType t blueprintPaths type).flatMap (fun l => Blueprint.fields t l.path) ++
        if type = .entry then ComputedField.discover t scanPaths else [] := by
  simp only [given, batches, List.filter_append, List.flatMap_append, List.filter_map,
    List.flatMap_map, Location.ofType]
  congr 1
  cases type <;> simp

theorem fields_ofFiles (t : FileTree) (blueprintPaths scanPaths : List String)
    (type : ContentType) :
    (ofFiles t blueprintPaths scanPaths).fields type =
      (Location.ofType t blueprintPaths type).flatMap (fun l => Blueprint.fields t l.path) ++
        if type = .entry then ComputedField.discover t scanPaths else [] := by
  have nothing : empty.fields type = [] := by cases type <;> rfl
  rw [ofFiles_eq_extendAll, fields_extendAll, nothing, List.nil_append, given_batches]

theorem indexed_ofFiles (t : FileTree) (blueprintPaths scanPaths : List String) :
    (ofFiles t blueprintPaths scanPaths).Indexed := by
  rw [ofFiles_eq_extendAll]
  exact indexed_empty.extendAll _

/-- The definition that wins for a handle: the computed one on entries that have it, else the last one
in the last document of the content type that declares the handle. -/
def winner? (t : FileTree) (blueprintPaths scanPaths : List String) (type : ContentType)
    (handle : String) : Option Field :=
  if type = .entry ∧ Field.declares handle (ComputedField.discover t scanPaths) then
    some (.computed handle)
  else
    (((Location.ofType t blueprintPaths type).map fun l => Blueprint.fields t l.path).filter
      (Field.declares handle)).getLast?.bind (Field.last? handle)

theorem get?_ofFiles (t : FileTree) (blueprintPaths scanPaths : List String) (type : ContentType)
    (handle : String) :
    (ofFiles t blueprintPaths scanPaths).get? type handle =
      winner? t blueprintPaths scanPaths type handle := by
  rw [(indexed_ofFiles t blueprintPaths scanPaths).get?_eq, fields_ofFiles, Field.last?_append,
    List.flatMap_def, Field.last?_flatten, winner?]
  by_cases found : type = .entry ∧ Field.declares handle (ComputedField.discover t scanPaths)
  · rw [if_pos found.1, if_pos found,
      Field.last?_computed ComputedField.computed_of_mem_discover found.2]
    rfl
  · have absent : Field.last? handle
        (if type = .entry then ComputedField.discover t scanPaths else []) = none := by
      rw [Field.last?_eq_none_iff_declares]
      by_cases entry : type = .entry
      · simpa [entry] using found
      · simp [entry, Field.declares]
    rw [absent, if_neg found, Option.none_or]

end Registry

namespace Analyzer

/-- A new analyser sees, for every content type, the fields of its documents in the order of their
locations and, on entries, what the scanner found after them. A name that is no universal property
stands for the definition that wins among these, and properties have its type. -/
theorem merges_documents (c : Config) (t : FileTree) (type : ContentType) :
    ((ofConfig c).ask t (Repository.fields type)).1 =
      (Location.ofType t c.blueprintPaths type).flatMap (fun l => Blueprint.fields t l.path) ++
        (if type = .entry then (ComputedField.Scanner.scan ⟨c.scanPaths, none⟩ t).1 else []) ∧
    ∀ handle, ContentClass.universalProperty? type handle = none →
      ((ofConfig c).ask t (Repository.lookup? type handle)).1 =
        (Registry.winner? t c.blueprintPaths c.scanPaths type handle).map .field ∧
      ∀ cl, ContentClass.contentType? cl = some type →
        ((ofConfig c).ask t ((ofConfig c).property? cl handle)).1 =
          (Registry.winner? t c.blueprintPaths c.scanPaths type handle).map fun f =>
            ⟨cl.name, Fieldtype.typeOf c.customFieldtypes f⟩ := by
  have sees : (ofConfig c).current t = .ofFiles t c.blueprintPaths c.scanPaths := rfl
  refine ⟨?_, fun handle free => ?_⟩
  · rw [answer_of_reads (Query.reads_fields type), sees, Registry.fields_ofFiles]
    rfl
  have stands : ((ofConfig c).current t).lookup? type handle =
      (Registry.winner? t c.blueprintPaths c.scanPaths type handle).map .field := by
    rw [Registry.lookup?, free, sees, Registry.get?_ofFiles]
  refine ⟨?_, fun cl holds => ?_⟩
  · rw [answer_of_reads (Query.reads_lookup? type handle), stands]
  · rw [property?, answer_of_reads (Query.reads_property? _ cl handle), Registry.property?, holds,
      Option.bind_some, stands, Option.map_map]
    rfl

theorem last_motto_wins :
    let c : Config := { blueprintPaths := ["/b"], scanPaths := [] }
    let t := (⟨[]⟩ : FileTree).write "/b/globals/site.yaml"
      "fields: [{handle: motto}, {handle: motto}]".toUTF8
    let cl := ClassInfo.ofName "Statamic\\Globals\\Variables"
    ContentClass.universalProperty? .global "motto" = none ∧
    ContentClass.contentType? cl = some .global ∧
    ((ofConfig c).ask t (Repository.lookup? .global "motto")).1 =
      (Registry.winner? t ["/b"] [] .global "motto").map .field ∧
    ((ofConfig c).ask t ((ofConfig c).property? cl "motto")).1 =
      ((Registry.winner? t ["/b"] [] .global "motto").map fun f =>
        ⟨"Statamic\\Globals\\Variables", Fieldtype.typeOf ∅ f⟩) ∧
    (Registry.winner? t ["/b"] [] .global "motto").map Field.kind = some "text" := by
  intro c t cl
  have free : (ContentClass.universalProperty? .global "motto").isNone := by decide +kernel
  have holds : ContentClass.contentType? cl = some .global := by decide +kernel
  have free := Option.isNone_iff_eq_none.1 free
  obtain ⟨stands, property⟩ := (merges_documents c t .global).2 "motto" free
  exact ⟨free, holds, stands, property cl holds, by decide +kernel⟩

end Analyzer

end BlueprintSchema
