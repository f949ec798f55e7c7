import BlueprintSchema.Proofs.Rewriting
import BlueprintSchema.Proofs.Yaml.Equality
import Mathlib.Data.List.Induction

/-! The options of a field against the keys of its data. Scalar keys stand for options by their text,
which may be one text for several of them: then the last counts. Where texts differ, the order of the
data does not matter. Main statement: `Blueprint.options_of_scalar_keys`. -/

namespace BlueprintSchema.Blueprint

open Yaml (Value Mapping)

inductive HasLabel : Value → String → Prop
  | string (s : String) : HasLabel (.string s) s
  | int (n : Int) : HasLabel (.int n) (toString n)
  | float (x : Binary64) : HasLabel (.float x) (Yaml.floatText x)
  | true : HasLabel (.bool true) "true"
  | false : HasLabel (.bool false) "false"

def LastAt (data : Mapping) (name : String) (x : Value) : Prop :=
  ∃ before key after, data = before ++ (key, x) :: after ∧ HasLabel key name ∧
    ∀ e ∈ after, ¬ HasLabel e.1 name

structure Configures (data : Mapping) (config : Dict Value) : Prop where
  keys : ∀ name, name ∈ config.keys ↔
    name ∉ ["type", "display", "instructions", "handle"] ∧ ∃ e ∈ data, HasLabel e.1 name
  values : ∀ name x, config.get? name = some x ↔
    name ∉ ["type", "display", "instructions", "handle"] ∧ LastAt data name x

def Distinct (data : Mapping) : Prop :=
  data.Pairwise fun d e => ∀ name, HasLabel d.1 name → ¬ HasLabel e.1 name

inductive Reordered : Value → Value → Prop
  | own {entry entry' : Mapping} (unset : Unset entry "field") (distinct : Distinct entry)
      (perm : entry.Perm entry') : Reordered (.mapping entry) (.mapping entry')
  | field {entry data data' : Mapping} (set : Mapping.get? entry "field" = some (.mapping data))
      (distinct : Distinct data) (perm : data.Perm data') :
      Reordered (.mapping entry) (.mapping (Mapping.mapAt "field" (fun _ => .mapping data') entry))

variable {data data' : Mapping} {key : Value} {name : String} {x y : Value}

theorem hasLabel_iff : HasLabel key name ↔ optionName? key = some name := by
  constructor
  · rintro (_ | _ | _ | _ | _) <;> rfl
  · intro h
    cases key with
    | bool b => cases b <;> cases h <;> constructor
    | null | sequence | mapping | tagged => nomatch h
    | _ => cases h; constructor

instance : Decidable (HasLabel key name) := decidable_of_iff _ hasLabel_iff.symm

theorem distinct_iff_nodup : Distinct data ↔ (data.filterMap fun e => optionName? e.1).Nodup := by
  rw [Distinct, List.Nodup, List.pairwise_filterMap]
  refine List.Pairwise.iff fun d e => ?_
  simp only [hasLabel_iff]
  constructor
  · rintro apart name label name' label' rfl
    exact apart name label label'
  · intro apart name label label'
    exact apart name label name label' rfl

instance : Decidable (Distinct data) := decidable_of_iff _ distinct_iff_nodup.symm

theorem lastAt_concat : LastAt (data ++ [(key, y)]) name x ↔
    (HasLabel key name ∧ y = x) ∨ (¬ HasLabel key name ∧ LastAt data name x) := by
  constructor
  · rintro ⟨before, key', after, split, label, none⟩
    rcases List.eq_nil_or_concat after with rfl | ⟨after, last, rfl⟩
    · obtain ⟨-, same⟩ := List.append_inj' split rfl
      cases same
      exact .inl ⟨label, rfl⟩
    · rw [List.concat_eq_append] at split none
      rw [← List.cons_append, ← List.append_assoc] at split
      obtain ⟨rfl, same⟩ := List.append_inj' split rfl
      cases same
      refine .inr ⟨none (key, y) (by simp), before, key', after, rfl, label, fun e he => ?_⟩
      exact none e (List.mem_append_left _ he)
  · rintro (⟨label, rfl⟩ | ⟨other, before, key', after, rfl, label, none⟩)
    · exact ⟨data, key, [], rfl, label, nofun⟩
    · refine ⟨before, key', after ++ [(key, y)], by simp, label, fun e he => ?_⟩
      rcases List.mem_append.1 he with he | he
      · exact none e he
      · obtain rfl := List.mem_singleton.1 he
        exact other

theorem get?_options_concat : (options (data ++ [(key, y)])).get? name =
    if HasLabel key name ∧ name ∉ bookkeepingKeys then some y else (options data).get? name := by
  unfold options Dict.ofList
  rw [List.filterMap_append, List.foldl_append]
  simp only [hasLabel_iff]
  cases label : optionName? key with
  | none => simp [label]
  | some name' =>
    by_cases reserved : name' ∈ bookkeepingKeys
    · by_cases same : name' = name <;> simp_all
    · by_cases same : name = name'
      · simp [label, reserved, same]
      · simp [label, reserved, same, Ne.symm same]

theorem get?_options : (options data).get? name = some x ↔
    name ∉ bookkeepingKeys ∧ LastAt data name x := by
  induction data using List.reverseRecOn with
  | nil => simp [options, Dict.ofList, LastAt]
  | append_singleton data e ih =>
    obtain ⟨key, y⟩ := e
    rw [get?_options_concat, lastAt_concat]
    by_cases label : HasLabel key name
    · by_cases reserved : name ∈ bookkeepingKeys
      · simp [label, reserved, ih]
      · simp [label, reserved]
    · simp [label, ih]

theorem exists_lastAt_iff : (∃ x, LastAt data name x) ↔ ∃ e ∈ data, HasLabel e.1 name := by
  constructor
  · rintro ⟨x, before, key, after, rfl, label, -⟩
    exact ⟨(key, x), by simp, label⟩
  · induction data using List.reverseRecOn with
    | nil => simp
    | append_singleton data e ih =>
      rintro ⟨d, member, label⟩
      by_cases last : HasLabel e.1 name
      · exact ⟨e.2, lastAt_concat.2 (.inl ⟨last, rfl⟩)⟩
      · rcases List.mem_append.1 member with member | member
        · obtain ⟨x, found⟩ := ih ⟨d, member, label⟩
          exact ⟨x, lastAt_concat.2 (.inr ⟨last, found⟩)⟩
        · exact absurd (List.mem_singleton.1 member ▸ label) last

theorem configures_options (data : Mapping) : Configures data (options data) where
  keys name := by
    rw [Dict.mem_keys_iff, Option.isSome_iff_exists, ← exists_lastAt_iff]
    simp only [get?_options, exists_and_left]
    rfl
  values _ _ := get?_options

theorem Distinct.perm (distinct : Distinct data) (perm : data.Perm data') : Distinct data' := by
  refine (perm.pairwise_iff fun {d e} apart name label label' => ?_).1 distinct
  exact apart name label' label

theorem lastAt_iff_mem (distinct : Distinct data) :
    LastAt data name x ↔ ∃ key, (key, x) ∈ data ∧ HasLabel key name := by
  constructor
  · rintro ⟨before, key, after, rfl, label, -⟩
    exact ⟨key, by simp, label⟩
  · rintro ⟨key, member, label⟩
    obtain ⟨before, after, rfl⟩ := List.append_of_mem member
    have behind := (List.pairwise_cons.1 (List.pairwise_append.1 distinct).2.1).1
    exact ⟨before, key, after, rfl, label, fun e he => behind e he name label⟩

theorem get?_iff_mem (distinct : Distinct data) :
    Mapping.get? data name = some x ↔ (.string name, x) ∈ data := by
  induction data with
  | nil => simp [Mapping.get?]
  | cons e data ih =>
    obtain ⟨key, y⟩ := e
    obtain ⟨apart, rest⟩ := List.pairwise_cons.1 distinct
    cases key with
    | string k =>
      rw [Mapping.get?_string_cons, List.mem_cons]
      by_cases same : k = name
      · have absent : (.string name, x) ∉ data :=
          fun member => apart _ member name (same ▸ .string k) (.string name)
        simp [same, absent, eq_comm]
      · simp [same, Ne.symm same, ih rest]
    | _ => exact (ih rest).trans (by simp)

theorem options_perm (distinct : Distinct data) (perm : data.Perm data') :
    options data' = options data := by
  refine Dict.ext_get? fun name => Option.ext fun x => ?_
  rw [get?_options, get?_options, lastAt_iff_mem distinct, lastAt_iff_mem (distinct.perm perm)]
  simp only [perm.mem_iff]

theorem get?_perm (distinct : Distinct data) (perm : data.Perm data') (name : String) :
    Mapping.get? data' name = Mapping.get? data name := by
  refine Option.ext fun x => ?_
  rw [get?_iff_mem distinct, get?_iff_mem (distinct.perm perm), perm.mem_iff]

theorem kind?_perm (distinct : Distinct data) (perm : data.Perm data') : kind? data' = kind? data := by
  rw [kind?, get?_perm distinct perm, ← kind?]

theorem Reordered.fieldOf?_eq {entry entry' : Value} (reordered : Reordered entry entry') :
    fieldOf? entry' = fieldOf? entry := by
  cases reordered with
  | @own entry entry' unset distinct perm =>
    have unset' : Unset entry' "field" := by rwa [Unset, get?_perm distinct perm]
    have imports : Mapping.contains entry' "import" = Mapping.contains entry "import" := by
      rw [Mapping.contains, get?_perm distinct perm, Mapping.contains]
    rw [fieldOf?_of_data (dataOf_iff.1 (.own unset')), fieldOf?_of_data (dataOf_iff.1 (.own unset)),
      imports, get?_perm distinct perm, kind?_perm distinct perm, options_perm distinct perm]
  | @field entry data data' set distinct perm =>
    have set' : Mapping.get? (Mapping.mapAt "field" (fun _ => .mapping data') entry) "field" =
        some (.mapping data') := by
      rw [Mapping.get?_mapAt, if_pos rfl, set, Option.map_some]
    have imports : Mapping.contains (Mapping.mapAt "field" (fun _ => .mapping data') entry) "import" =
        Mapping.contains entry "import" := by
      rw [Mapping.contains, Mapping.get?_mapAt_of_ne (by decide), Mapping.contains]
    rw [fieldOf?_of_data (dataOf_iff.1 (.field set')), fieldOf?_of_data (dataOf_iff.1 (.field set)),
      imports, Mapping.get?_mapAt_of_ne (by decide), kind?_perm distinct perm,
      options_perm distinct perm]

theorem exists_entry_of_mem {content : String} {fields : List Field} {f : Field}
    (read : parse? content = some fields) (member : f ∈ fields) : ∃ root a entry,
      Yaml.parse content = some (.mapping root) ∧ EntryAt root a entry ∧ Describes entry f := by
  unfold parse? at read
  split at read
  · cases read
    nomatch member
  · obtain ⟨document, parsed, rfl⟩ := Option.map_eq_some_iff.1 read
    cases document with
    | mapping root =>
      rw [← fieldsOf_entriesOfDocument] at member
      obtain ⟨p, place, found⟩ := List.mem_filterMap.1 member
      exact ⟨root, p.1, p.2, parsed, mem_entriesOfDocument.1 place, describes_iff.2 found⟩
    | _ => nomatch member

/-- The configuration of every field of a document has the texts of the scalar keys of its data but for
four, and under each the value of the last key of this text. Data whose scalar keys have different texts
may stand in any other order. -/
theorem options_of_scalar_keys :
    (∀ (content : String) (fields : List Field), parse? content = some fields → ∀ f ∈ fields,
      ∃ root a entry data, Yaml.parse content = some (.mapping root) ∧
        EntryAt root a (.mapping entry) ∧ Describes (.mapping entry) f ∧ DataOf entry data ∧
        Configures data f.config) ∧
    ∀ (content content' : String) (root : Mapping) (g : Address → Value → Value),
      Yaml.parse content = some (.mapping root) →
      Yaml.parse content' = some (.mapping (rewrite g root)) →
      (∀ a entry, EntryAt root a entry → g a entry = entry ∨ Reordered entry (g a entry)) →
      ∃ fields, parse? content = some fields ∧ parse? content' = some fields := by
  refine ⟨fun content fields read f member => ?_, ?_⟩
  · obtain ⟨root, a, entry, parsed, place, described⟩ := exists_entry_of_mem read member
    obtain @⟨entry, data, handle, kind, noImport, named, chosen, typed⟩ := described
    exact ⟨root, a, entry, data, parsed, place, .intro noImport named chosen typed, chosen,
      configures_options data⟩
  · intro content content' root g read read' reordered
    refine ⟨_, parse?_of_parse read, ?_⟩
    rw [← parse?_of_parse read]
    refine parse?_rewrite read read' fun a entry place => ?_
    rcases reordered a entry place with kept | other
    · rw [kept]
    · exact other.fieldOf?_eq

theorem last_of_two_ones_and_any_order :
    let clash := "fields:\n- handle: a\n  1: x\n  '1': y\n"
    let content := "fields:\n- handle: a\n  1: x\n  b: y\n"
    let content' := "fields:\n- b: y\n  handle: a\n  1: x\n"
    let entry : Mapping := [(.string "handle", .string "a"), (.int 1, .string "x"),
      (.string "b", .string "y")]
    let entry' : Value := .mapping [(.string "b", .string "y"), (.string "handle", .string "a"),
      (.int 1, .string "x")]
    let root : Mapping := [(.string "fields", .sequence [.mapping entry])]
    (∃ fields f, parse? clash = some fields ∧ f ∈ fields ∧
      (∃ root a entry data, Yaml.parse clash = some (.mapping root) ∧
        EntryAt root a (.mapping entry) ∧ Describes (.mapping entry) f ∧ DataOf entry data ∧
        Configures data f.config) ∧
      f.config.get? "1" = some (.string "y")) ∧
    Yaml.parse content = some (.mapping root) ∧
      Yaml.parse content' = some (.mapping (rewrite (fun _ _ => entry') root)) ∧
      (∀ a entry, EntryAt root a entry → entry' = entry ∨ Reordered entry entry') ∧
      ∃ fields, parse? content = some fields ∧ parse? content' = some fields := by
  intro clash content content' entry entry' root
  have clashes : (parse? clash).any fun fields => fields.any fun f =>
      f.config.get? "1" == some (.string "y") := by
    decide +kernel
  obtain ⟨fields, read, clashes⟩ := (Option.any_eq_true _ _).1 clashes
  obtain ⟨f, member, later⟩ := List.any_eq_true.1 clashes
  refine ⟨⟨fields, f, read, member, options_of_scalar_keys.1 clash fields read f member,
    beq_iff_eq.1 later⟩, ?_⟩
  have read : Yaml.parse content = some (.mapping root) := by decide +kernel
  have read' : Yaml.parse content' = some (.mapping (rewrite (fun _ _ => entry') root)) := by
    decide +kernel
  have reordered : ∀ a entry, EntryAt root a entry → entry' = entry ∨ Reordered entry entry' := by
    intro a _ place
    have member : (a, _) ∈ [([2, 0], Value.mapping entry)] := mem_entriesOfDocument.2 place
    obtain rfl := congrArg Prod.snd (List.mem_singleton.1 member)
    have moved : (entry.take 2 ++ entry.drop 2).Perm (entry.drop 2 ++ entry.take 2) :=
      List.perm_append_comm
    exact .inr (.own (.inl rfl) (by decide) moved)
  exact ⟨read, read', reordered, options_of_scalar_keys.2 content content' root _ read read' reordered⟩

end BlueprintSchema.Blueprint
