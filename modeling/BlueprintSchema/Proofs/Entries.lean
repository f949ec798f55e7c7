import BlueprintSchema.Blueprint
import BlueprintSchema.Proofs.Lists
import BlueprintSchema.Proofs.Yaml.BlankText
import Mathlib.Data.List.Basic

/-! Which entries of a document become fields, and in which order. An entry has an address, which counts
the members on the way to it, and the four places of entries differ in the shape of their addresses.
The fields of a document are those that the entries at its addresses describe, by increasing address.
Main statement: `Blueprint.parse?_entries`. -/

namespace BlueprintSchema.Blueprint

abbrev Address := List Nat

/-- An entry stands at an address of a document: in a section of a tab, in the list of a tab, in a
section, or in the list of the document. Only a mapping is a tab, and a section may be tagged. -/
inductive EntryAt (root : Yaml.Mapping) : Address → Yaml.Value → Prop
  | tabSection {tabs sections part list entry : Yaml.Value} {tab : Yaml.Mapping} {i j k : Nat}
      (tabs_eq : Yaml.Mapping.get? root "tabs" = some tabs)
      (tab_eq : tabs.members[i]? = some (.mapping tab))
      (sections_eq : Yaml.Mapping.get? tab "sections" = some sections)
      (part_eq : sections.members[j]? = some part)
      (list_eq : part.get? "fields" = some list)
      (entry_eq : list.members[k]? = some entry) : EntryAt root [0, i, 0, j, k] entry
  | tab {tabs list entry : Yaml.Value} {tab : Yaml.Mapping} {i k : Nat}
      (tabs_eq : Yaml.Mapping.get? root "tabs" = some tabs)
      (tab_eq : tabs.members[i]? = some (.mapping tab))
      (list_eq : Yaml.Mapping.get? tab "fields" = some list)
      (entry_eq : list.members[k]? = some entry) : EntryAt root [0, i, 1, k] entry
  | part {sections part list entry : Yaml.Value} {j k : Nat}
      (sections_eq : Yaml.Mapping.get? root "sections" = some sections)
      (part_eq : sections.members[j]? = some part)
      (list_eq : part.get? "fields" = some list)
      (entry_eq : list.members[k]? = some entry) : EntryAt root [1, j, k] entry
  | own {list entry : Yaml.Value} {k : Nat}
      (list_eq : Yaml.Mapping.get? root "fields" = some list)
      (entry_eq : list.members[k]? = some entry) : EntryAt root [2, k] entry

/-- A key is absent, or its value is null without a tag. -/
def Unset (m : Yaml.Mapping) (key : String) : Prop :=
  Yaml.Mapping.get? m key = none ∨ Yaml.Mapping.get? m key = some .null

/-- The value of a key is a string, perhaps a tagged one. -/
def HasText (m : Yaml.Mapping) (key text : String) : Prop :=
  ∃ v, Yaml.Mapping.get? m key = some v ∧ v.untagged = .string text

inductive DataOf (entry : Yaml.Mapping) : Yaml.Mapping → Prop
  | own (unset : Unset entry "field") : DataOf entry entry
  | field {data : Yaml.Mapping} (set : Yaml.Mapping.get? entry "field" = some (.mapping data)) :
      DataOf entry data

inductive KindOf (data : Yaml.Mapping) : String → Prop
  | unnamed (unset : Unset data "type") : KindOf data "text"
  | named {kind : String} (set : HasText data "type" kind) : KindOf data kind

inductive Describes : Yaml.Value → Field → Prop
  | intro {entry data : Yaml.Mapping} {handle kind : String}
      (noImport : Yaml.Mapping.get? entry "import" = none) (named : HasText entry "handle" handle)
      (chosen : DataOf entry data) (typed : KindOf data kind) :
      Describes (.mapping entry) ⟨handle, kind, options data⟩

theorem asString?_eq_some_iff {v : Yaml.Value} {s : String} :
    v.asString? = some s ↔ v.untagged = .string s := by
  unfold Yaml.Value.asString?
  split
  · next r h => simp [h]
  · next h => simpa using h s

theorem hasText_iff {m : Yaml.Mapping} {key text : String} :
    HasText m key text ↔ (Yaml.Mapping.get? m key).bind Yaml.Value.asString? = some text := by
  simp [HasText, Option.bind_eq_some_iff, asString?_eq_some_iff]

theorem dataOf_iff {entry data : Yaml.Mapping} : DataOf entry data ↔ fieldData? entry = some data := by
  unfold fieldData?
  constructor
  · rintro (h | set)
    · rcases h with h | h <;> rw [h]
    · rw [set]
  · intro h
    split at h
    · next none => cases h; exact .own (.inl none)
    · next null => cases h; exact .own (.inr null)
    · next set => cases h; exact .field set
    · nomatch h

theorem kindOf_iff {data : Yaml.Mapping} {kind : String} :
    KindOf data kind ↔ kind? data = some kind := by
  unfold kind?
  constructor
  · rintro (h | ⟨v, set, text⟩)
    · rcases h with h | h <;> rw [h] <;> rfl
    · have named := asString?_eq_some_iff.2 text
      rw [set]
      cases v with
      | null => nomatch text
      | _ => exact named
  · intro h
    split at h
    · next none => cases h; exact .unnamed (.inl none)
    · next null => cases h; exact .unnamed (.inr null)
    · next v _ set => exact .named ⟨v, set, asString?_eq_some_iff.1 h⟩

theorem describes_iff {entry : Yaml.Value} {f : Field} :
    Describes entry f ↔ fieldOf? entry = some f := by
  constructor
  · rintro ⟨noImport, named, chosen, typed⟩
    rw [hasText_iff] at named
    rw [dataOf_iff] at chosen
    rw [kindOf_iff] at typed
    simp [fieldOf?, Yaml.Mapping.contains, noImport, named, chosen, typed]
  · intro h
    cases entry with
    | mapping entry =>
      simp only [fieldOf?, Yaml.Mapping.contains, Option.bind_eq_bind] at h
      cases noImport : Yaml.Mapping.get? entry "import" with
      | some v => simp [noImport] at h
      | none =>
        simp only [noImport, Option.isSome_none, Bool.false_eq_true, if_false,
          Option.bind_eq_some_iff, Option.some.injEq] at h
        obtain ⟨handle, named, data, chosen, kind, typed, rfl⟩ := h
        exact .intro noImport (hasText_iff.2 (Option.bind_eq_some_iff.2 named))
          (dataOf_iff.2 chosen) (kindOf_iff.2 typed)
    | _ => nomatch h

theorem fieldOf?_of_data {entry data : Yaml.Mapping} (chosen : fieldData? entry = some data) :
    fieldOf? (.mapping entry) =
      if Yaml.Mapping.contains entry "import" then none
      else ((Yaml.Mapping.get? entry "handle").bind Yaml.Value.asString?).bind fun handle =>
        (kind? data).map fun kind => ⟨handle, kind, options data⟩ := by
  rw [fieldOf?, chosen]
  simp only [Option.map_eq_bind]
  rfl

def under {α : Type} (mark : Nat) (entries : List (Address × α)) : List (Address × α) :=
  entries.map fun (a, x) => (mark :: a, x)

/-- What `f` finds in some members, with the number of the member put before each address. -/
def numbered {α β : Type} (members : List α) (f : α → List (Address × β)) : List (Address × β) :=
  members.zipIdx.flatMap fun (x, i) => under i (f x)

theorem mem_under {α : Type} {mark : Nat} {entries : List (Address × α)} {a : Address} {x : α} :
    (a, x) ∈ under mark entries ↔ ∃ b, a = mark :: b ∧ (b, x) ∈ entries := by
  simp only [under, List.mem_map, Prod.mk.injEq, Prod.exists]
  constructor
  · rintro ⟨b, y, h, rfl, rfl⟩
    exact ⟨b, rfl, h⟩
  · rintro ⟨b, rfl, h⟩
    exact ⟨b, x, h, rfl, rfl⟩

theorem mem_numbered {α β : Type} {members : List α} {f : α → List (Address × β)} {a : Address}
    {y : β} : (a, y) ∈ numbered members f ↔
      ∃ i x b, members[i]? = some x ∧ a = i :: b ∧ (b, y) ∈ f x := by
  simp only [numbered, List.mem_flatMap, Prod.exists, List.mem_zipIdx_iff_getElem?, mem_under]
  constructor
  · rintro ⟨x, i, hx, b, rfl, hy⟩
    exact ⟨i, x, b, hx, rfl, hy⟩
  · rintro ⟨i, x, b, hx, rfl, hy⟩
    exact ⟨x, i, hx, b, rfl, hy⟩

def Increasing {α : Type} (entries : List (Address × α)) : Prop :=
  entries.Pairwise fun p q => p.1 < q.1

theorem Increasing.under {α : Type} {entries : List (Address × α)} (h : Increasing entries)
    (mark : Nat) : Increasing (under mark entries) := by
  refine List.pairwise_map.2 (h.imp fun {p q} less => ?_)
  exact List.cons_lt_cons_iff.2 (.inr ⟨rfl, less⟩)

theorem increasing_append_under {α : Type} {m n : Nat} {before after : List (Address × α)}
    (hb : Increasing before) (first : ∀ p ∈ before, ∃ i a, p.1 = i :: a ∧ i ≤ m) (less : m < n)
    (ha : Increasing after) : Increasing (before ++ under n after) := by
  refine List.pairwise_append.2 ⟨hb, ha.under n, fun p hp q hq => ?_⟩
  obtain ⟨i, a, hi, le⟩ := first p hp
  obtain ⟨b, hb, -⟩ := mem_under.1 hq
  rw [hi, hb]
  exact List.cons_lt_cons_iff.2 (.inl (Nat.lt_of_le_of_lt le less))

theorem increasing_numbered {α β : Type} (members : List α) {f : α → List (Address × β)}
    (h : ∀ x, Increasing (f x)) : Increasing (numbered members f) := by
  refine List.pairwise_flatMap.2 ⟨fun p _ => (h p.1).under p.2, ?_⟩
  refine (pairwise_zipIdx members).imp fun {p q} less e he g hg => ?_
  obtain ⟨a, ha, -⟩ := mem_under.1 he
  obtain ⟨b, hb, -⟩ := mem_under.1 hg
  rw [ha, hb]
  exact List.cons_lt_cons_iff.2 (.inl less)

def membersOf (v : Option Yaml.Value) : List Yaml.Value := (v.map Yaml.Value.members).getD []

def entriesOfList (list : Option Yaml.Value) : List (Address × Yaml.Value) :=
  numbered (membersOf list) fun entry => [([], entry)]

def entriesOfSections (sections : Option Yaml.Value) : List (Address × Yaml.Value) :=
  numbered (membersOf sections) fun part => entriesOfList (part.get? "fields")

def entriesOfTab : Yaml.Value → List (Address × Yaml.Value)
  | .mapping tab =>
    under 0 (entriesOfSections (Yaml.Mapping.get? tab "sections")) ++
      under 1 (entriesOfList (Yaml.Mapping.get? tab "fields"))
  | _ => []

def entriesOfDocument (root : Yaml.Mapping) : List (Address × Yaml.Value) :=
  under 0 (numbered (membersOf (Yaml.Mapping.get? root "tabs")) entriesOfTab) ++
    under 1 (entriesOfSections (Yaml.Mapping.get? root "sections")) ++
    under 2 (entriesOfList (Yaml.Mapping.get? root "fields"))

theorem getElem?_membersOf {v : Option Yaml.Value} {i : Nat} {x : Yaml.Value} :
    (membersOf v)[i]? = some x ↔ ∃ w, v = some w ∧ w.members[i]? = some x := by
  cases v <;> simp [membersOf]

theorem mem_entriesOfList {list : Option Yaml.Value} {a : Address} {entry : Yaml.Value} :
    (a, entry) ∈ entriesOfList list ↔
      ∃ l k, list = some l ∧ l.members[k]? = some entry ∧ a = [k] := by
  simp only [entriesOfList, mem_numbered, getElem?_membersOf, List.mem_singleton, Prod.mk.injEq]
  constructor
  · rintro ⟨k, x, b, ⟨l, hl, hx⟩, rfl, rfl, rfl⟩
    exact ⟨l, k, hl, hx, rfl⟩
  · rintro ⟨l, k, hl, hx, rfl⟩
    exact ⟨k, entry, [], ⟨l, hl, hx⟩, rfl, rfl, rfl⟩

theorem mem_entriesOfSections {sections : Option Yaml.Value} {a : Address} {entry : Yaml.Value} :
    (a, entry) ∈ entriesOfSections sections ↔ ∃ s j part l k, sections = some s ∧
      s.members[j]? = some part ∧ part.get? "fields" = some l ∧ l.members[k]? = some entry ∧
        a = [j, k] := by
  simp only [entriesOfSections, mem_numbered, getElem?_membersOf, mem_entriesOfList]
  constructor
  · rintro ⟨j, part, b, ⟨s, hs, hp⟩, rfl, l, k, hl, he, rfl⟩
    exact ⟨s, j, part, l, k, hs, hp, hl, he, rfl⟩
  · rintro ⟨s, j, part, l, k, hs, hp, hl, he, rfl⟩
    exact ⟨j, part, [k], ⟨s, hs, hp⟩, rfl, l, k, hl, he, rfl⟩

theorem mem_entriesOfDocument {root : Yaml.Mapping} {a : Address} {entry : Yaml.Value} :
    (a, entry) ∈ entriesOfDocument root ↔ EntryAt root a entry := by
  simp only [entriesOfDocument, List.mem_append, mem_under, mem_numbered, getElem?_membersOf,
    mem_entriesOfSections, mem_entriesOfList]
  constructor
  · rintro ((⟨_, rfl, i, tab, b, ⟨tabs, ht, htab⟩, rfl, he⟩ | ⟨_, rfl, he⟩) | ⟨_, rfl, he⟩)
    · cases tab with
      | mapping tab =>
        simp only [entriesOfTab, List.mem_append, mem_under, mem_entriesOfSections,
          mem_entriesOfList] at he
        rcases he with ⟨_, rfl, s, j, part, l, k, hs, hp, hl, he, rfl⟩ | ⟨_, rfl, l, k, hl, he, rfl⟩
        · exact .tabSection ht htab hs hp hl he
        · exact .tab ht htab hl he
      | _ => simp [entriesOfTab] at he
    · obtain ⟨s, j, part, l, k, hs, hp, hl, he, rfl⟩ := he
      exact .part hs hp hl he
    · obtain ⟨l, k, hl, he, rfl⟩ := he
      exact .own hl he
  -- One case for each place of entries, by its mark.
  · intro h
    cases h with
    | @tabSection tabs s part l _ tab i j k ht htab hs hp hl he =>
      refine .inl (.inl ⟨_, rfl, i, .mapping tab, _, ⟨tabs, ht, htab⟩, rfl, ?_⟩)
      exact List.mem_append_left _
        (mem_under.2 ⟨_, rfl, mem_entriesOfSections.2 ⟨s, j, part, l, k, hs, hp, hl, he, rfl⟩⟩)
    | @tab tabs l _ tab i k ht htab hl he =>
      refine .inl (.inl ⟨_, rfl, i, .mapping tab, _, ⟨tabs, ht, htab⟩, rfl, ?_⟩)
      exact List.mem_append_right _
        (mem_under.2 ⟨_, rfl, mem_entriesOfList.2 ⟨l, k, hl, he, rfl⟩⟩)
    | @part s part l _ j k hs hp hl he =>
      exact .inl (.inr ⟨_, rfl, s, j, part, l, k, hs, hp, hl, he, rfl⟩)
    | @own l _ k hl he => exact .inr ⟨_, rfl, l, k, hl, he, rfl⟩

theorem increasing_entriesOfList (list : Option Yaml.Value) : Increasing (entriesOfList list) :=
  increasing_numbered _ fun _ => List.pairwise_singleton _ _

theorem increasing_entriesOfSections (sections : Option Yaml.Value) :
    Increasing (entriesOfSections sections) :=
  increasing_numbered _ fun _ => increasing_entriesOfList _

theorem increasing_entriesOfTab (tab : Yaml.Value) : Increasing (entriesOfTab tab) := by
  cases tab with
  | mapping tab =>
    refine increasing_append_under (m := 0) ((increasing_entriesOfSections _).under 0)
      (fun p hp => ?_) Nat.zero_lt_one (increasing_entriesOfList _)
    obtain ⟨a, ha, -⟩ := mem_under.1 hp
    exact ⟨0, a, ha, Nat.le_refl 0⟩
  | _ => exact .nil

theorem increasing_entriesOfDocument (root : Yaml.Mapping) :
    Increasing (entriesOfDocument root) := by
  have marked : ∀ {n m : Nat} {entries : List (Address × Yaml.Value)}, n ≤ m →
      ∀ p ∈ under n entries, ∃ i a, p.1 = i :: a ∧ i ≤ m := by
    intro n m entries le p hp
    obtain ⟨a, ha, -⟩ := mem_under.1 hp
    exact ⟨n, a, ha, le⟩
  refine increasing_append_under (m := 1)
    (increasing_append_under (m := 0) ((increasing_numbered _ increasing_entriesOfTab).under 0)
      (marked (Nat.le_refl 0)) Nat.zero_lt_one (increasing_entriesOfSections _))
    (fun p hp => ?_) Nat.one_lt_two (increasing_entriesOfList _)
  rcases List.mem_append.1 hp with hp | hp
  · exact marked (Nat.zero_le 1) p hp
  · exact marked (Nat.le_refl 1) p hp

def described (entries : List (Address × Yaml.Value)) : List (Address × Field) :=
  entries.filterMap fun (a, entry) => (fieldOf? entry).map fun f => (a, f)

theorem mem_described {entries : List (Address × Yaml.Value)} {a : Address} {f : Field} :
    (a, f) ∈ described entries ↔ ∃ entry, (a, entry) ∈ entries ∧ Describes entry f := by
  simp only [described, List.mem_filterMap, Prod.exists, Option.map_eq_some_iff, Prod.mk.injEq,
    describes_iff]
  constructor
  · rintro ⟨b, entry, he, g, hg, rfl, rfl⟩
    exact ⟨entry, he, hg⟩
  · rintro ⟨entry, he, hg⟩
    exact ⟨a, entry, he, f, hg, rfl, rfl⟩

theorem Increasing.described {entries : List (Address × Yaml.Value)} (h : Increasing entries) :
    Increasing (described entries) := by
  refine List.pairwise_filterMap.2 (h.imp fun {p q} less b hb c hc => ?_)
  obtain ⟨f, -, rfl⟩ := Option.map_eq_some_iff.1 hb
  obtain ⟨g, -, rfl⟩ := Option.map_eq_some_iff.1 hc
  exact less

def fieldsOf (entries : List (Address × Yaml.Value)) : List Field :=
  entries.filterMap fun p => fieldOf? p.2

theorem map_described (entries : List (Address × Yaml.Value)) :
    (described entries).map (·.2) = fieldsOf entries := by
  simp [described, fieldsOf, List.map_filterMap, Function.comp_def]

theorem fieldsOf_append (before after : List (Address × Yaml.Value)) :
    fieldsOf (before ++ after) = fieldsOf before ++ fieldsOf after :=
  List.filterMap_append

theorem fieldsOf_under (mark : Nat) (entries : List (Address × Yaml.Value)) :
    fieldsOf (under mark entries) = fieldsOf entries :=
  List.filterMap_map

theorem fieldsOf_numbered {α : Type} (members : List α) (f : α → List (Address × Yaml.Value)) :
    fieldsOf (numbered members f) = members.flatMap fun x => fieldsOf (f x) := by
  rw [← flatMap_zipIdx members, fieldsOf, numbered, List.filterMap_flatMap]
  exact List.flatMap_congr fun p _ => fieldsOf_under p.2 (f p.1)

theorem fieldsOf_entriesOfList (list : Option Yaml.Value) :
    fieldsOf (entriesOfList list) = listed list := by
  rw [entriesOfList, fieldsOf_numbered]
  cases list with
  | none => rfl
  | some list =>
    rw [listed, fieldsOfList, List.filterMap_eq_flatMap_toList]
    refine List.flatMap_congr fun entry _ => ?_
    cases h : fieldOf? entry <;> simp [fieldsOf, h]

theorem fieldsOf_entriesOfSections (sections : Option Yaml.Value) :
    fieldsOf (entriesOfSections sections) = fieldsOfSections sections := by
  simp only [entriesOfSections, fieldsOf_numbered, fieldsOf_entriesOfList]
  cases sections <;> rfl

theorem fieldsOf_entriesOfTab (tab : Yaml.Value) : fieldsOf (entriesOfTab tab) = fieldsOfTab tab := by
  cases tab with
  | mapping tab =>
    rw [entriesOfTab, fieldsOf_append, fieldsOf_under, fieldsOf_under, fieldsOf_entriesOfSections,
      fieldsOf_entriesOfList]
    rfl
  | _ => rfl

theorem fieldsOf_entriesOfDocument (root : Yaml.Mapping) :
    fieldsOf (entriesOfDocument root) = fieldsOfDocument (.mapping root) := by
  simp only [entriesOfDocument, fieldsOf_append, fieldsOf_under, fieldsOf_numbered,
    fieldsOf_entriesOfTab, fieldsOf_entriesOfSections, fieldsOf_entriesOfList]
  rw [fieldsOfDocument, fieldsOfPart, List.append_assoc]
  cases Yaml.Mapping.get? root "tabs" <;> rfl

/-- A text that denotes a value is read as the fields of that value, also where it is taken for blank
without being read. -/
theorem parse?_of_parse {content : String} {document : Yaml.Value}
    (read : Yaml.parse content = some document) :
    parse? content = some (fieldsOfDocument document) := by
  unfold parse?
  split
  · next blank =>
    have noMapping := Yaml.parse_ne_mapping_of_isAllBlank blank read
    cases document with
    | mapping entries => exact absurd rfl (noMapping entries)
    | _ => rfl
  · rw [read, Option.map_some]

/-- A document that is no mapping has no fields. The fields of one that is are those that its entries
describe, each at the address of its entry, by increasing address. -/
theorem parse?_entries {content : String} {document : Yaml.Value}
    (read : Yaml.parse content = some document) :
    ((∀ root, document ≠ .mapping root) → parse? content = some []) ∧
    ∀ root, document = .mapping root → ∃ found : List (Address × Field),
      parse? content = some (found.map (·.2)) ∧
      found.Pairwise (fun p q => p.1 < q.1) ∧
      ∀ a f, (a, f) ∈ found ↔ ∃ entry, EntryAt root a entry ∧ Describes entry f := by
  rw [parse?_of_parse read]
  refine ⟨fun noMapping => ?_, ?_⟩
  · cases document with
    | mapping entries => exact absurd rfl (noMapping entries)
    | _ => rfl
  · rintro root rfl
    refine ⟨described (entriesOfDocument root), ?_, (increasing_entriesOfDocument root).described,
      fun a f => ?_⟩
    · rw [map_described, fieldsOf_entriesOfDocument]
    · simp only [mem_described, mem_entriesOfDocument]

theorem own_list_of_first_tab_first :
    let content := "tabs: [{fields: [{handle: a}, x]}, {sections: [!o {fields: [{handle: b}]}]}]"
    (∃ list, Yaml.parse "- a" = some list ∧ (∀ root, list ≠ .mapping root) ∧
      parse? "- a" = some []) ∧
    ∃ root, Yaml.parse content = some (.mapping root) ∧ ∃ found : List (Address × Field),
      parse? content = some (found.map (·.2)) ∧
      found.Pairwise (fun p q => p.1 < q.1) ∧
      (∀ a f, (a, f) ∈ found ↔ ∃ entry, EntryAt root a entry ∧ Describes entry f) ∧
      found.map (fun p => p.2.handle) = ["a", "b"] := by
  intro content
  have noMapping : (Yaml.parse "- a").any fun v => !(v matches .mapping _) := by decide +kernel
  have handles : (Yaml.parse content).any fun v =>
      (v matches .mapping _) && (fieldsOfDocument v).map Field.handle == ["a", "b"] := by
    decide +kernel
  obtain ⟨list, readList, noMapping⟩ := (Option.any_eq_true _ _).1 noMapping
  obtain ⟨document, read, handles⟩ := (Option.any_eq_true _ _).1 handles
  refine ⟨⟨list, readList, ?_, ?_⟩, ?_⟩
  · rintro root rfl
    nomatch noMapping
  · refine (parse?_entries readList).1 ?_
    rintro root rfl
    nomatch noMapping
  · cases document with
    | mapping root =>
      obtain ⟨found, fields, increasing, exact⟩ := (parse?_entries read).2 root rfl
      refine ⟨root, read, found, fields, increasing, exact, ?_⟩
      rw [parse?_of_parse read] at fields
      have same := congrArg (Option.map (List.map Field.handle)) fields
      simpa [← beq_iff_eq.1 handles, Function.comp_def] using same.symm
    | _ => simp at handles
end BlueprintSchema.Blueprint
