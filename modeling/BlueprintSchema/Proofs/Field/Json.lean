import BlueprintSchema.Field.Json
import BlueprintSchema.Proofs.Json

/-! Field definitions as JSON values. A field that is read from JSON, in whichever form, is written as
one object with its handle, its kind and its options, if it has any. The options stand in it as they
were read, nothing else that was read does, and the object is read as the same field. Main statement:
`Field.survives_json`. -/

namespace BlueprintSchema

namespace Yaml.Value

mutual

theorem toJson?_ofJson : ∀ {j : Json}, j.Ordered → (ofJson j).toJson? = some j
  | .array items, ordered => by rw [ofJson, toJson?, toJsonItems?_ofJsonItems ordered, Option.map_some]
  | .object members, ordered => by
    rw [ofJson, toJson?, toJsonMembers?_ofJsonMembers ordered.2, Option.map_some,
      Json.ofMembers_of_sorted ordered.1]
  | .null, _ | .bool _, _ | .int _, _ | .float _, _ | .string _, _ => rfl

theorem toJsonItems?_ofJsonItems : ∀ {js : List Json}, Json.ItemsOrdered js →
    toJsonItems? (ofJsonItems js) = some js
  | [], _ => rfl
  | j :: js, ordered => by
    rw [ofJsonItems, toJsonItems?, toJson?_ofJson ordered.1, toJsonItems?_ofJsonItems ordered.2]
    rfl

theorem toJsonMembers?_ofJsonMembers : ∀ {ms : List (String × Json)}, Json.MembersOrdered ms →
    toJsonMembers? (ofJsonMembers ms) = some ms
  | [], _ => rfl
  | (k, j) :: ms, ordered => by
    rw [ofJsonMembers, toJsonMembers?, toJson?_ofJson ordered.1, toJsonMembers?_ofJsonMembers ordered.2]
    rfl

end

end Yaml.Value

namespace Field

inductive Form : Json → String → String → List (String × Json) → Prop
  | object {members : List (String × Json)} {handle kind : String} :
    members.lookup "handle" = some (.string handle) → members.lookup "type" = some (.string kind) →
      members.lookup "config" = none → Form (.object members) handle kind []
  | objectWith {members options : List (String × Json)} {handle kind : String} :
    members.lookup "handle" = some (.string handle) → members.lookup "type" = some (.string kind) →
      members.lookup "config" = some (.object options) → Form (.object members) handle kind options
  | pair {handle kind : String} : Form (.array [.string handle, .string kind]) handle kind []
  | triple {handle kind : String} {options : List (String × Json)} :
    Form (.array [.string handle, .string kind, .object options]) handle kind options

def optionsOf (options : List (String × Json)) : Dict Yaml.Value :=
  .ofList (options.map fun (k, j) => (k, .ofJson j))

theorem optionsOf_nil : optionsOf [] = ∅ := rfl

theorem configOfJson?_eq_some_iff {j : Json} {config : Dict Yaml.Value} :
    configOfJson? j = some config ↔ ∃ options, j = .object options ∧ config = optionsOf options := by
  cases j with
  | object options => simp [configOfJson?, optionsOf, eq_comm]
  | _ => simp [configOfJson?]

theorem string?_eq_some_iff {j? : Option Json} {s : String} :
    j?.bind Json.string? = some s ↔ j? = some (.string s) := by
  cases j? with
  | none => simp
  | some j => cases j <;> simp [Json.string?]

theorem ofJson?_eq_some_iff {v : Json} {f : Field} : ofJson? v = some f ↔
    ∃ options, Form v f.handle f.kind options ∧ f.config = optionsOf options := by
  obtain ⟨handle, kind, config⟩ := f
  constructor
  · intro given
    unfold ofJson? at given
    split at given
    · next members =>
      obtain ⟨_, hasHandle, given⟩ := Option.bind_eq_some_iff.1 given
      obtain ⟨_, hasKind, given⟩ := Option.bind_eq_some_iff.1 given
      rw [string?_eq_some_iff] at hasHandle hasKind
      dsimp only at given
      cases configured : members.lookup "config" with
      | none =>
        rw [configured] at given
        cases given
        exact ⟨[], .object hasHandle hasKind configured, rfl⟩
      | some j =>
        rw [configured] at given
        obtain ⟨_, read, given⟩ := Option.bind_eq_some_iff.1 given
        cases given
        obtain ⟨options, rfl, rfl⟩ := configOfJson?_eq_some_iff.1 read
        exact ⟨options, .objectWith hasHandle hasKind configured, rfl⟩
    · cases given
      exact ⟨[], .pair, rfl⟩
    · obtain ⟨_, read, given⟩ := Option.map_eq_some_iff.1 given
      cases given
      obtain ⟨options, rfl, rfl⟩ := configOfJson?_eq_some_iff.1 read
      exact ⟨options, .triple, rfl⟩
    · nomatch given
  · rintro ⟨options, form, rfl⟩
    cases form with
    | object hasHandle hasKind bare =>
      simp [ofJson?, hasHandle, hasKind, bare, Json.string?, optionsOf_nil]
    | objectWith hasHandle hasKind configured =>
      simp [ofJson?, hasHandle, hasKind, configured, Json.string?, configOfJson?, optionsOf]
    | pair => rfl
    | triple => rfl

/-! ### Writing -/

variable {options : List (String × Json)}

theorem entries_optionsOf (ordered : (Json.object options).Ordered) :
    (optionsOf options).entries = options.map fun (k, j) => (k, .ofJson j) :=
  Dict.entries_ofList_of_sorted (List.pairwise_map.2 ordered.1)

theorem isEmpty_optionsOf (ordered : (Json.object options).Ordered) :
    (optionsOf options).isEmpty = options.isEmpty := by
  rw [Dict.isEmpty, entries_optionsOf ordered, List.isEmpty_map]

theorem mapM_toJson? (ordered : Json.MembersOrdered options) :
    (options.map fun (k, j) => (k, Yaml.Value.ofJson j)).mapM
      (fun (k, v) => v.toJson?.map fun j => (k, j)) = some options := by
  induction options with
  | nil => rfl
  | cons m options ih =>
    obtain ⟨k, j⟩ := m
    rw [List.map_cons, List.mapM_cons, ih ordered.2]
    dsimp only
    rw [Yaml.Value.toJson?_ofJson ordered.1]
    rfl

def writtenMembers (handle kind : String) (options : List (String × Json)) : List (String × Json) :=
  (if options.isEmpty then [] else [("config", .object options)]) ++
    [("handle", .string handle), ("type", .string kind)]

theorem form_written (handle kind : String) (options : List (String × Json)) :
    Form (.object (writtenMembers handle kind options)) handle kind options := by
  cases options with
  | nil => exact .object rfl rfl rfl
  | cons m options => exact .objectWith rfl rfl rfl

theorem keys_written (handle kind : String) (options : List (String × Json)) :
    (writtenMembers handle kind options).map Prod.fst =
      (if options.isEmpty then [] else ["config"]) ++ ["handle", "type"] := by
  cases options <;> rfl

theorem sorted_written (handle kind : String) (options : List (String × Json)) :
    (writtenMembers handle kind options).Pairwise (fun a b => a.1 < b.1) := by
  have keys : ((writtenMembers handle kind options).map Prod.fst).Pairwise (· < ·) := by
    rw [keys_written]
    cases options.isEmpty <;> decide
  exact List.pairwise_map.1 keys

theorem ordered_written {handle kind : String} (ordered : (Json.object options).Ordered) :
    (Json.object (writtenMembers handle kind options)).Ordered := by
  refine ⟨sorted_written handle kind options, ?_⟩
  cases options with
  | nil => exact ⟨trivial, trivial, trivial⟩
  | cons m options => exact ⟨ordered, trivial, trivial, trivial⟩

theorem lookup_written (handle kind : String) (options : List (String × Json)) :
    (writtenMembers handle kind options).lookup "handle" = some (.string handle) ∧
    (writtenMembers handle kind options).lookup "type" = some (.string kind) ∧
    (options.isEmpty = false →
      (writtenMembers handle kind options).lookup "config" = some (.object options)) := by
  cases options with
  | nil => exact ⟨rfl, rfl, nofun⟩
  | cons m options => exact ⟨rfl, rfl, fun _ => rfl⟩

theorem Form.ordered {v : Json} {handle kind : String} (form : Form v handle kind options)
    (ordered : v.Ordered) : (Json.object options).Ordered := by
  cases form with
  | object | pair => exact ⟨.nil, trivial⟩
  | objectWith _ _ configured => exact ordered.of_lookup configured
  | triple => exact ordered.2.2.1

theorem toJson?_eq_written {f : Field} (ordered : (Json.object options).Ordered)
    (configured : f.config = optionsOf options) :
    f.toJson? = some (.object (writtenMembers f.handle f.kind options)) := by
  have sorted := Json.ofMembers_of_sorted (sorted_written f.handle f.kind options)
  unfold toJson?
  rw [← sorted, configured, isEmpty_optionsOf ordered]
  cases empty : options.isEmpty with
  | true => simp [writtenMembers, empty]
  | false =>
    have converted := mapM_toJson? ordered.2
    simp [writtenMembers, empty, Dict.toList, entries_optionsOf ordered, converted,
      Json.ofMembers_of_sorted ordered.1]

/-- A field read from JSON is written as an object, and read from this as the same field. The object has
the handle, the kind and, if there are any, the options that were read, and nothing else. -/
theorem survives_json {v : Json} {f : Field} (ordered : v.Ordered) (given : ofJson? v = some f) :
    ∃ options members, Form v f.handle f.kind options ∧
      f.toJson? = some (.object members) ∧ (Json.object members).Ordered ∧
      members.map Prod.fst =
        (if f.config.isEmpty then [] else ["config"]) ++ ["handle", "type"] ∧
      members.lookup "handle" = some (.string f.handle) ∧
      members.lookup "type" = some (.string f.kind) ∧
      (f.config.isEmpty = false → members.lookup "config" = some (.object options)) ∧
      ofJson? (.object members) = some f ∧
      (ofJson? (.object members)).bind toJson? = some (.object members) := by
  obtain ⟨options, form, configured⟩ := ofJson?_eq_some_iff.1 given
  have inOrder : (Json.object options).Ordered := form.ordered ordered
  have written := toJson?_eq_written inOrder configured
  have back : ofJson? (.object (writtenMembers f.handle f.kind options)) = some f :=
    ofJson?_eq_some_iff.2 ⟨options, form_written f.handle f.kind options, configured⟩
  obtain ⟨handle, kind, config⟩ := lookup_written f.handle f.kind options
  rw [configured, isEmpty_optionsOf inOrder]
  refine ⟨options, _, form, written, ordered_written inOrder, keys_written f.handle f.kind options,
    handle, kind, config, back, ?_⟩
  rw [back]
  exact written

def galleryJson : Json :=
  .object [
    ("config", .object [
      ("layout", .array [.null, .object [("gap", .float ⟨0x3FF8000000000000⟩)]]),
      ("max_items", .int 18446744073709551615)]),
    ("handle", .string "gallery"), ("note", .null), ("type", .string "assets")]

theorem gallery_survives_without_note :
    galleryJson.Ordered ∧ ∃ f, ofJson? galleryJson = some f ∧ ∃ members,
      f.toJson? = some (.object members) ∧ members.map Prod.fst = ["config", "handle", "type"] ∧
      members.lookup "config" = galleryJson.member? "config" ∧ ofJson? (.object members) = some f := by
  have ordered : galleryJson.Ordered :=
    ⟨by decide, ⟨by decide, ⟨trivial, ⟨.cons nofun .nil, trivial, trivial⟩, trivial⟩, trivial, trivial⟩,
      trivial, trivial, trivial, trivial⟩
  have read : (ofJson? galleryJson).isSome = true := by decide
  obtain ⟨f, given⟩ := Option.isSome_iff_exists.1 read
  have full : f.config.isEmpty = false := by
    have options : (ofJson? galleryJson).map (·.config.isEmpty) = some false := by decide
    simpa [given] using options
  obtain ⟨options, members, form, written, -, keys, -, -, config, back, -⟩ :=
    survives_json ordered given
  rw [full] at keys
  refine ⟨ordered, f, given, members, written, keys, (config full).trans ?_, back⟩
  cases form with
  | object _ _ bare => nomatch bare
  | objectWith _ _ configured => exact configured.symm

end Field

end BlueprintSchema
