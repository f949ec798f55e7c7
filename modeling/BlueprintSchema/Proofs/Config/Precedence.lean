import BlueprintSchema.Proofs.Config.Loading
import BlueprintSchema.Proofs.Config.Variables

/-! Which source decides a setting. What is no table has the value of the highest source that sets it,
so that lower sources need not even fit; the fieldtypes are put together handle by handle, each with the
class of the highest source that has it. Main statement: `Config.load_takes_highest`. -/

namespace BlueprintSchema.Config

open Setting

variable {α : Type} {t : FileTree} {env : List (String × String)} {root : String} {named : Option String}
  {files : List File} {layers values : List Setting} {c : Config}

/-- Each setting is read off the highest layer that has it, or is as in the defaults if none has; a
severity is, unless that layer has a table there. Fieldtypes that are tables in all layers are those of
all layers, and each has the class of the highest layer that has it. -/
structure FromHighest (layers : List Setting) (c : Config) : Prop where
  blueprintPaths : readOr asPaths ["resources/blueprints"] (highest? "blueprint_paths" layers) =
    .ok c.blueprintPaths
  scanPaths : readOr asPaths ["app"] (highest? "computed_scan_paths" layers) = .ok c.scanPaths
  reportsUndefined : readOr asBool true (highest? "report_undefined_fields" layers) =
    .ok c.reportsUndefined
  severity : (∀ s ∈ highest? "undefined_field_severity" layers, s.isTable = false) →
    readOr asSeverity .error (highest? "undefined_field_severity" layers) = .ok c.severity
  handles : (∀ s ∈ valuesAt "custom_fieldtypes" layers, s.isTable = true) → ∀ handle,
    c.customFieldtypes.contains handle = true ↔
      ∃ s ∈ valuesAt "custom_fieldtypes" layers, (s.at? handle).isSome = true
  classes : (∀ s ∈ valuesAt "custom_fieldtypes" layers, s.isTable = true) → ∀ handle class_,
    c.customFieldtypes.get? handle = some class_ ↔
      ∃ s, highest? handle (valuesAt "custom_fieldtypes" layers) = some s ∧
        s.asText "a string" = .ok class_

theorem overlay_eq_getLast? (h : ∀ s ∈ values.getLast?, s.isTable = false) :
    overlay values = values.getLast? := by
  cases last : values.getLast? with
  | none => exact overlay_eq_none_iff.2 (List.getLast?_eq_none_iff.1 last)
  | some s => exact (overlay_eq_some_iff (h s last)).2 last

/-- What refuses tables is read off the last of some settings over one another. -/
theorem readOr_overlay {as : Setting → Except Mismatch α} {default x : α}
    (refuses : ∀ s, s.isTable = true → as s ≠ .ok x) :
    readOr as default (overlay values) = .ok x ↔ readOr as default values.getLast? = .ok x := by
  rcases List.eq_nil_or_concat values with rfl | ⟨front, v, rfl⟩
  · exact Iff.rfl
  · rw [List.concat_eq_append, overlay_concat, List.getLast?_concat]
    cases kind : v.isTable with
    | true =>
      -- A table on top makes a table of the whole, and both are refused.
      exact iff_of_false (refuses _ ((isTable_atop _ v).trans kind)) (refuses v kind)
    | false => rw [atop_of_not_table kind]

theorem asPaths_ne_ok {s : Setting} {x : List String} (h : s.isTable = true) : s.asPaths ≠ .ok x := by
  cases s with
  | table => nofun
  | _ => nomatch h

theorem asBool_ne_ok {s : Setting} {x : Bool} (h : s.isTable = true) : s.asBool ≠ .ok x := by
  cases s with
  | table => nofun
  | _ => nomatch h

theorem textAt?_overlay {o : Option String} :
    textAt? (overlay values) = .ok o ↔ textAt? values.getLast? = .ok o := by
  refine readOr_overlay fun s h => ?_
  cases s with
  | table => nofun
  | _ => nomatch h

theorem readOr_asTexts_overlay {d : Dict String} (tables : AreTables values) :
    readOr asTexts ∅ (overlay values) = .ok d ↔
      ∀ handle, textAt? (highest? handle values) = .ok (d.get? handle) := by
  -- First the merged table as it is, then each of its keys through the layers.
  have merged : readOr asTexts ∅ (overlay values) = .ok d ↔
      ∀ handle, textAt? ((overlay values).bind (at? handle)) = .ok (d.get? handle) := by
    cases found : overlay values with
    | none =>
      constructor
      · intro h _
        cases h
        rfl
      · intro h
        have empty : d = ∅ := Dict.ext_get? fun k => (Except.ok.inj (h k)).symm
        rw [empty]
        rfl
    | some s =>
      obtain ⟨table, ordered⟩ := tables.overlay s found
      cases s with
      | table es => exact asTexts_table_eq_ok_iff ordered.1
      | _ => nomatch table
  rw [merged]
  exact forall_congr' fun handle => by rw [at?_overlay tables, textAt?_overlay, highest?]

theorem isSome_highest?_iff {key : String} :
    (highest? key layers).isSome = true ↔ ∃ s ∈ layers, (s.at? key).isSome = true := by
  rw [highest?, List.getLast?_isSome, valuesAt, ne_eq, List.filterMap_eq_nil_iff, not_forall]
  simp [Option.isSome_iff_ne_none]

theorem areTables_valuesAt {key : String} (layered : AreTables layers)
    (tables : ∀ s ∈ valuesAt key layers, s.isTable = true) : AreTables (valuesAt key layers) := by
  intro s member
  exact ⟨tables s member, ordered_of_mem_valuesAt (fun layer within => (layered layer within).2) s member⟩

theorem FromHighest.fits (layered : AreTables layers)
    (plain : ∀ s ∈ highest? "undefined_field_severity" layers, s.isTable = false)
    (tables : ∀ s ∈ valuesAt "custom_fieldtypes" layers, s.isTable = true) (h : FromHighest layers c) :
    Fits {} (fun key => overlay (valuesAt key layers)) c where
  blueprintPaths := (readOr_overlay fun _ => asPaths_ne_ok).2 h.blueprintPaths
  scanPaths := (readOr_overlay fun _ => asPaths_ne_ok).2 h.scanPaths
  reportsUndefined := (readOr_overlay fun _ => asBool_ne_ok).2 h.reportsUndefined
  severity := by
    rw [overlay_eq_getLast? plain]
    exact h.severity plain
  customFieldtypes := by
    refine (readOr_asTexts_overlay (areTables_valuesAt layered tables)).2 fun handle => ?_
    cases found : c.customFieldtypes.get? handle with
    | none =>
      have missing : ¬ c.customFieldtypes.contains handle = true := by rw [Dict.contains, found]; nofun
      rw [h.handles tables handle, ← isSome_highest?_iff, Option.not_isSome_iff_eq_none] at missing
      exact textAt?_eq_ok_none_iff.2 missing
    | some class_ => exact textAt?_eq_ok_some_iff.2 ((h.classes tables handle class_).1 found)

theorem Layered.last (h : Layered t env files layers) :
    ∃ below, layers = below ++ [Environment.settings env] := by
  obtain ⟨below, above, rfl, -, last⟩ := List.map_eq_append_iff.1 h.symm
  obtain ⟨s, rfl, same⟩ := List.map_eq_singleton_iff.1 last
  cases same
  exact ⟨below, rfl⟩

end BlueprintSchema.Config
