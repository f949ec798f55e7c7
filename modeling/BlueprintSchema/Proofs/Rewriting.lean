import BlueprintSchema.Proofs.Entries

/-! Documents with entries rewritten, each by its address, and with nothing else changed. A rewriting
that leaves what every entry describes as it was leaves the fields of the document as they were. Main
statement: `Blueprint.parse?_rewrite`. -/

namespace BlueprintSchema

namespace Yaml

def Value.mapMembers (g : Nat → Value → Value) : Value → Value
  | .sequence items => .sequence (items.mapIdx g)
  | .mapping entries => .mapping (entries.mapIdx fun i e => (e.1, g i e.2))
  | v => v

def Mapping.mapAt (key : String) (g : Value → Value) (m : Mapping) : Mapping :=
  m.map fun
    | (.string k, v) => (.string k, if k = key then g v else v)
    | e => e

def Value.mapAt (key : String) (g : Value → Value) : Value → Value
  | .mapping m => .mapping (Mapping.mapAt key g m)
  | .tagged tag v => .tagged tag (mapAt key g v)
  | v => v

theorem Value.members_mapMembers (g : Nat → Value → Value) (v : Value) :
    (v.mapMembers g).members = v.members.mapIdx g := by
  cases v with
  | mapping entries => simp [mapMembers, members, List.mapIdx_eq_zipIdx_map, List.zipIdx_map]
  | _ => simp [mapMembers, members]

theorem Mapping.get?_string_cons (k : String) (v : Value) (m : Mapping) (key : String) :
    get? ((.string k, v) :: m) key = if k = key then some v else get? m key := by
  by_cases found : k = key <;> simp [get?, found]

theorem Mapping.get?_append (m n : Mapping) (key : String) :
    get? (m ++ n) key = (get? m key).or (get? n key) := List.findSome?_append

theorem Mapping.get?_mapAt (key k : String) (g : Value → Value) (m : Mapping) :
    get? (mapAt key g m) k = if k = key then (get? m k).map g else get? m k := by
  induction m with
  | nil => simp [mapAt, get?]
  | cons e m ih =>
    obtain ⟨name, v⟩ := e
    cases name with
    | string name =>
      rw [get?_string_cons, mapAt, List.map_cons, get?_string_cons, ← mapAt, ih]
      by_cases named : name = k
      · by_cases changed : k = key <;> simp [named, changed]
      · simp [named]
    | _ => exact ih

theorem Mapping.get?_mapAt_of_ne {key k : String} (other : k ≠ key) (g : Value → Value)
    (m : Mapping) : get? (mapAt key g m) k = get? m k := by
  rw [get?_mapAt, if_neg other]

theorem Value.untagged_mapAt (key : String) (g : Value → Value) :
    ∀ v : Value, (v.mapAt key g).untagged = v.untagged.mapAt key g
  | .tagged _ v => untagged_mapAt key g v
  | .null | .bool _ | .int _ | .float _ | .string _ | .sequence _ | .mapping _ => rfl

theorem Value.get?_mapAt (key : String) (g : Value → Value) (v : Value) :
    (v.mapAt key g).get? key = (v.get? key).map g := by
  rw [get?, untagged_mapAt, get?]
  cases v.untagged with
  | mapping m => simp [mapAt, Mapping.get?_mapAt]
  | _ => rfl

end Yaml

namespace Blueprint

open Yaml (Value Mapping)

def rewriteList (g : Address → Value → Value) (list : Value) : Value :=
  list.mapMembers fun k => g [k]

def rewriteSections (g : Address → Value → Value) (sections : Value) : Value :=
  sections.mapMembers fun j => Value.mapAt "fields" (rewriteList fun a => g (j :: a))

/-- A mapping with sections and a list of its own, with each entry rewritten. The entries of the
sections have one mark before their addresses, and those of the list another. -/
def rewritePart (sectionMark listMark : Nat) (g : Address → Value → Value) (part : Mapping) :
    Mapping :=
  Mapping.mapAt "fields" (rewriteList fun a => g (listMark :: a))
    (Mapping.mapAt "sections" (rewriteSections fun a => g (sectionMark :: a)) part)

def rewriteTab (g : Address → Value → Value) : Value → Value
  | .mapping tab => .mapping (rewritePart 0 1 g tab)
  | v => v

def rewrite (g : Address → Value → Value) (root : Mapping) : Mapping :=
  rewritePart 1 2 g <|
    Mapping.mapAt "tabs" (Value.mapMembers fun i => rewriteTab fun a => g (0 :: i :: a)) root

def rewritten (g : Address → Value → Value) (entries : List (Address × Value)) :
    List (Address × Value) :=
  entries.map fun (a, entry) => (a, g a entry)

variable {g : Address → Value → Value}

theorem rewritten_append (before after : List (Address × Value)) :
    rewritten g (before ++ after) = rewritten g before ++ rewritten g after :=
  List.map_append

theorem rewritten_under (mark : Nat) (entries : List (Address × Value)) :
    rewritten g (under mark entries) = under mark (rewritten (fun a => g (mark :: a)) entries) := by
  simp [rewritten, under, Function.comp_def]

theorem numbered_mapIdx {h : Nat → Value → Value} {f : Value → List (Address × Value)}
    (each : ∀ i x, f (h i x) = rewritten (fun a => g (i :: a)) (f x)) (members : List Value) :
    numbered (members.mapIdx h) f = rewritten g (numbered members f) := by
  have numbers : (members.mapIdx h).zipIdx = members.zipIdx.map fun p => (h p.2 p.1, p.2) := by
    refine List.ext_getElem? fun i => ?_
    cases found : members[i]? <;> simp [found]
  rw [numbered, numbers, List.flatMap_map, rewritten, numbered, List.map_flatMap]
  refine List.flatMap_congr fun p _ => ?_
  change under p.2 (f (h p.2 p.1)) = rewritten g (under p.2 (f p.1))
  rw [each, ← rewritten_under]

theorem membersOf_mapMembers (h : Nat → Value → Value) (v : Option Value) :
    membersOf (v.map (Value.mapMembers h)) = (membersOf v).mapIdx h := by
  cases v <;> simp [membersOf, Value.members_mapMembers]

theorem entriesOfList_rewriteList (list : Option Value) :
    entriesOfList (list.map (rewriteList g)) = rewritten g (entriesOfList list) := by
  change entriesOfList (list.map (Value.mapMembers _)) = _
  rw [entriesOfList, membersOf_mapMembers, entriesOfList]
  exact numbered_mapIdx (fun _ _ => rfl) _

theorem entriesOfSections_rewriteSections (sections : Option Value) :
    entriesOfSections (sections.map (rewriteSections g)) = rewritten g (entriesOfSections sections) := by
  change entriesOfSections (sections.map (Value.mapMembers _)) = _
  rw [entriesOfSections, membersOf_mapMembers, entriesOfSections]
  refine numbered_mapIdx (fun j part => ?_) _
  rw [Value.get?_mapAt, entriesOfList_rewriteList]

theorem entriesOfTab_rewriteTab (tab : Value) :
    entriesOfTab (rewriteTab g tab) = rewritten g (entriesOfTab tab) := by
  cases tab with
  | mapping tab =>
    simp [rewriteTab, entriesOfTab, rewritePart, Mapping.get?_mapAt, entriesOfList_rewriteList,
      entriesOfSections_rewriteSections, rewritten_append, rewritten_under]
  | _ => rfl

theorem entriesOfDocument_rewrite (g : Address → Value → Value) (root : Mapping) :
    entriesOfDocument (rewrite g root) = rewritten g (entriesOfDocument root) := by
  have tabs : ∀ tabs : Option Value, numbered (membersOf (tabs.map (Value.mapMembers fun i =>
      rewriteTab fun a => g (0 :: i :: a)))) entriesOfTab =
      rewritten (fun a => g (0 :: a)) (numbered (membersOf tabs) entriesOfTab) := by
    intro tabs
    rw [membersOf_mapMembers]
    exact numbered_mapIdx (g := fun a => g (0 :: a)) (fun _ tab => entriesOfTab_rewriteTab tab) _
  simp [rewrite, entriesOfDocument, rewritePart, Mapping.get?_mapAt, entriesOfList_rewriteList,
    entriesOfSections_rewriteSections, rewritten_append, rewritten_under, tabs]

theorem fieldsOfDocument_rewrite {root : Mapping}
    (same : ∀ a entry, EntryAt root a entry → fieldOf? (g a entry) = fieldOf? entry) :
    fieldsOfDocument (.mapping (rewrite g root)) = fieldsOfDocument (.mapping root) := by
  rw [← fieldsOf_entriesOfDocument, entriesOfDocument_rewrite, ← fieldsOf_entriesOfDocument, fieldsOf,
    rewritten, List.filterMap_map, fieldsOf]
  refine List.filterMap_congr fun p member => ?_
  exact same p.1 p.2 (mem_entriesOfDocument.1 member)

theorem parse?_rewrite {content content' : String} {root : Mapping}
    (read : Yaml.parse content = some (.mapping root))
    (read' : Yaml.parse content' = some (.mapping (rewrite g root)))
    (same : ∀ a entry, EntryAt root a entry → fieldOf? (g a entry) = fieldOf? entry) :
    parse? content' = parse? content := by
  rw [parse?_of_parse read', parse?_of_parse read, fieldsOfDocument_rewrite same]

end Blueprint

end BlueprintSchema
