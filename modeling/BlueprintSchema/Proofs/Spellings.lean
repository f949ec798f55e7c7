import BlueprintSchema.Proofs.Rewriting
import BlueprintSchema.Proofs.Yaml.Equality

/-! The two spellings of a field: an entry that carries its data itself, with the handle among them,
and an entry that names the handle and holds the data under a key of their own. Both describe the same
field or neither does, so a document may change from one to the other at any of its entries. Main
statement: `Blueprint.spellings_agree`. -/

namespace BlueprintSchema.Blueprint

open Yaml (Value Mapping)

structure Plain (data : Mapping) : Prop where
  unnamed : Mapping.get? data "handle" = none
  flat : Mapping.get? data "field" = none
  own : Mapping.get? data "import" = none

inductive Inline (handle : String) (data : Mapping) : Value → Prop
  | intro {before after : Mapping} (among : data = before ++ after) :
      Inline handle data (.mapping (before ++ (.string "handle", .string handle) :: after))

/-- An entry that names the handle and holds the data under `field`. Other keys may stand beside
these, but for `import`. -/
inductive Reference (handle : String) (data : Mapping) : Value → Prop
  | intro {entry : Mapping} (named : Mapping.get? entry "handle" = some (.string handle))
      (held : Mapping.get? entry "field" = some (.mapping data))
      (noImport : Mapping.get? entry "import" = none) : Reference handle data (.mapping entry)

def Respelt (entry entry' : Value) : Prop :=
  ∃ handle data, Plain data ∧ (Inline handle data entry ∧ Reference handle data entry' ∨
    Reference handle data entry ∧ Inline handle data entry')

variable {handle : String} {data : Mapping} {entry entry' : Value}

theorem get?_handle_among (before after : Mapping) (v : Value) (key : String) :
    Mapping.get? (before ++ (.string "handle", v) :: after) key =
      if key = "handle" then (Mapping.get? before key).or (some v)
      else Mapping.get? (before ++ after) key := by
  rw [Mapping.get?_append, Mapping.get?_string_cons, Mapping.get?_append]
  by_cases named : key = "handle"
  · rw [if_pos named, if_pos named.symm]
  · rw [if_neg named, if_neg (Ne.symm named)]

theorem options_handle_among (before after : Mapping) (v : Value) :
    options (before ++ (.string "handle", v) :: after) = options (before ++ after) := by
  simp [options, optionName?, bookkeepingKeys]

theorem fieldOf?_of_named {entry data : Mapping} (noImport : Mapping.get? entry "import" = none)
    (named : Mapping.get? entry "handle" = some (.string handle))
    (chosen : fieldData? entry = some data) :
    fieldOf? (.mapping entry) = (kind? data).map fun kind => ⟨handle, kind, options data⟩ := by
  rw [fieldOf?_of_data chosen, Mapping.contains, noImport, named]
  rfl

theorem fieldOf?_of_inline (plain : Plain data) (inline : Inline handle data entry) :
    fieldOf? entry = (kind? data).map fun kind => ⟨handle, kind, options data⟩ := by
  obtain @⟨before, after, rfl⟩ := inline
  have unnamed := plain.unnamed
  rw [Mapping.get?_append, Option.or_eq_none_iff] at unnamed
  have kind : kind? (before ++ (.string "handle", .string handle) :: after) =
      kind? (before ++ after) := by
    rw [kind?, get?_handle_among, if_neg (by decide), ← kind?]
  rw [← kind, ← options_handle_among before after (.string handle)]
  refine fieldOf?_of_named ?noImport ?named ?chosen
  case noImport => rw [get?_handle_among, if_neg (by decide), plain.own]
  case named => rw [get?_handle_among, if_pos rfl, unnamed.1, Option.none_or]
  case chosen => rw [fieldData?, get?_handle_among, if_neg (by decide), plain.flat]

theorem fieldOf?_of_reference (reference : Reference handle data entry) :
    fieldOf? entry = (kind? data).map fun kind => ⟨handle, kind, options data⟩ := by
  obtain ⟨named, held, noImport⟩ := reference
  exact fieldOf?_of_named noImport named (by rw [fieldData?, held])

theorem Respelt.fieldOf?_eq (respelt : Respelt entry entry') : fieldOf? entry' = fieldOf? entry := by
  obtain ⟨handle, data, plain, ⟨inline, reference⟩ | ⟨reference, inline⟩⟩ := respelt
  · rw [fieldOf?_of_reference reference, fieldOf?_of_inline plain inline]
  · rw [fieldOf?_of_reference reference, fieldOf?_of_inline plain inline]

/-- Both spellings of a field are passed over or describe the same field. So a document has the same
fields, with the same kinds and options, when at any of its entries one spelling takes the place of the
other. -/
theorem spellings_agree :
    (∀ (handle : String) (data : Mapping) (inline reference : Value), Plain data →
      Inline handle data inline → Reference handle data reference →
      fieldOf? inline = fieldOf? reference) ∧
    ∀ (content content' : String) (root : Mapping) (g : Address → Value → Value),
      Yaml.parse content = some (.mapping root) →
      Yaml.parse content' = some (.mapping (rewrite g root)) →
      (∀ a entry, EntryAt root a entry → g a entry = entry ∨ Respelt entry (g a entry)) →
      ∃ fields, parse? content = some fields ∧ parse? content' = some fields := by
  refine ⟨fun handle data inline reference plain spelt spelt' => ?_, ?_⟩
  · rw [fieldOf?_of_inline plain spelt, fieldOf?_of_reference spelt']
  · intro content content' root g read read' respelt
    refine ⟨_, parse?_of_parse read, ?_⟩
    rw [← parse?_of_parse read]
    refine parse?_rewrite read read' fun a entry place => ?_
    rcases respelt a entry place with kept | other
    · rw [kept]
    · exact other.fieldOf?_eq

theorem numbered_option_respelt :
    let content := "fields: [{1: x, handle: a, type: ~}]"
    let content' := "fields: [{handle: a, field: {1: x, type: ~}}]"
    let data : Mapping := [(.int 1, .string "x"), (.string "type", .null)]
    let inline : Value :=
      .mapping [(.int 1, .string "x"), (.string "handle", .string "a"), (.string "type", .null)]
    let reference : Value :=
      .mapping [(.string "handle", .string "a"), (.string "field", .mapping data)]
    let root : Mapping := [(.string "fields", .sequence [inline])]
    Plain data ∧ Inline "a" data inline ∧ Reference "a" data reference ∧
      fieldOf? inline = fieldOf? reference ∧
      Yaml.parse content = some (.mapping root) ∧
      Yaml.parse content' = some (.mapping (rewrite (fun _ _ => reference) root)) ∧
      (∀ a entry, EntryAt root a entry → reference = entry ∨ Respelt entry reference) ∧
      ∃ fields, parse? content = some fields ∧ parse? content' = some fields := by
  intro content content' data inline reference root
  have plain : Plain data := ⟨rfl, rfl, rfl⟩
  have spelt : Inline "a" data inline := @Inline.intro "a" data [(.int 1, .string "x")] _ rfl
  have spelt' : Reference "a" data reference := .intro rfl rfl rfl
  have read : Yaml.parse content = some (.mapping root) := by decide +kernel
  have read' : Yaml.parse content' = some (.mapping (rewrite (fun _ _ => reference) root)) := by
    decide +kernel
  have respelt : ∀ a entry, EntryAt root a entry → reference = entry ∨ Respelt entry reference := by
    intro a entry place
    have member : (a, entry) ∈ [([2, 0], inline)] := mem_entriesOfDocument.2 place
    obtain rfl := congrArg Prod.snd (List.mem_singleton.1 member)
    exact .inr ⟨"a", data, plain, .inl ⟨spelt, spelt'⟩⟩
  exact ⟨plain, spelt, spelt', spellings_agree.1 "a" data inline reference plain spelt spelt', read,
    read', respelt, spellings_agree.2 content content' root _ read read' respelt⟩

end BlueprintSchema.Blueprint
