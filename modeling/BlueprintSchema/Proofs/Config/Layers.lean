import BlueprintSchema.Config.Setting
import BlueprintSchema.Proofs.Dict
import Mathlib.Data.List.Induction

/-! Tables of settings over one another. At each key, the merged table holds what the layers that set
the key hold there, each over those before: anything but a table replaces all below it, and two tables
are merged again. So what is no table comes from the highest layer that sets the key. Main statements:
`Setting.at?_stack`, `Setting.overlay_eq_some_iff` and `Setting.at?_overlay`. -/

namespace BlueprintSchema.Setting

def at? (key : String) : Setting → Option Setting
  | table entries => entries.lookup key
  | _ => none

def isTable : Setting → Bool
  | table _ => true
  | _ => false

mutual

/-- In a table, and in the tables in it, keys strictly increase. -/
def Ordered : Setting → Prop
  | table entries => entries.Pairwise (fun a b => a.1 < b.1) ∧ AllOrdered entries
  | _ => True

def AllOrdered : List (String × Setting) → Prop
  | [] => True
  | (_, s) :: es => Ordered s ∧ AllOrdered es

end

theorem allOrdered_iff {es : List (String × Setting)} : AllOrdered es ↔ ∀ e ∈ es, Ordered e.2 := by
  induction es with
  | nil => simp [AllOrdered]
  | cons e es ih => rw [AllOrdered, ih, List.forall_mem_cons]

theorem Ordered.place {k : String} {v : Setting} {es : List (String × Setting)} (hv : Ordered v)
    (h : Ordered (table es)) : Ordered (table (Dict.place k v es)) := by
  refine ⟨Dict.sorted_place h.1, allOrdered_iff.2 fun e member => ?_⟩
  rcases Dict.mem_place member with rfl | member
  · exact hv
  · exact allOrdered_iff.1 h.2 e member

theorem ordered_ofEntries {es : List (String × Setting)} (h : ∀ e ∈ es, Ordered e.2) :
    Ordered (ofEntries es) := by
  rw [ofEntries, ← Dict.entries_ofList]
  exact ⟨(Dict.ofList es).sorted, allOrdered_iff.2 fun e member =>
    h e (Dict.mem_of_mem_entries_ofList member)⟩

theorem ordered_at? {s v : Setting} {key : String} (h : Ordered s) (found : s.at? key = some v) :
    Ordered v := by
  cases s with
  | table es =>
    have member : (key, v) ∈ es := by
      obtain ⟨before, after, rfl, -⟩ := List.lookup_eq_some_iff.1 found
      simp
    exact allOrdered_iff.1 h.2 _ member
  | _ => nomatch found

def atop (below : Option Setting) (v : Setting) : Setting :=
  match below with
  | some old => old.merge v
  | none => v

theorem merge_of_not_table {s v : Setting} (h : v.isTable = false) : s.merge v = v := by
  cases v with
  | table => nomatch h
  | _ => cases s <;> rfl

theorem isTable_merge (s v : Setting) : (s.merge v).isTable = v.isTable := by
  cases v with
  | table => cases s <;> rfl
  | _ => rw [merge_of_not_table rfl]

theorem atop_of_not_table {below : Option Setting} {v : Setting} (h : v.isTable = false) :
    atop below v = v := by
  cases below with
  | none => rfl
  | some s => exact merge_of_not_table h

theorem isTable_atop (below : Option Setting) (v : Setting) : (atop below v).isTable = v.isTable := by
  cases below with
  | none => rfl
  | some s => exact isTable_merge s v

theorem mergeEntries_cons (below : List (String × Setting)) (k : String) (v : Setting)
    (es : List (String × Setting)) :
    mergeEntries below ((k, v) :: es) =
      mergeEntries (Dict.place k (atop (below.lookup k) v) below) es := by
  rw [mergeEntries]
  cases below.lookup k <;> rfl

mutual

theorem Ordered.merge : ∀ {s v : Setting}, Ordered s → Ordered v → Ordered (s.merge v)
  | s, table above, hs, hv => by
    cases s with
    | table below => exact hs.mergeEntries hv.2
    | _ => exact hv
  | s, empty, _, hv | s, bool _, _, hv | s, unsigned _, _, hv | s, signed _, _, hv | s, wide _, _, hv
  | s, float _, _, hv | s, char _, _, hv | s, string _, _, hv | s, list _, _, hv => by
    rw [merge_of_not_table rfl]
    exact hv

theorem Ordered.mergeEntries : ∀ {below above : List (String × Setting)}, Ordered (table below) →
    AllOrdered above → Ordered (table (Setting.mergeEntries below above))
  | below, [], hb, _ => hb
  | below, (k, v) :: above, hb, ha => by
    have placed : Ordered (atop (below.lookup k) v) := by
      cases found : below.lookup k with
      | none => exact ha.1
      | some old => exact (ordered_at? hb found).merge ha.1
    rw [mergeEntries_cons]
    exact (placed.place hb).mergeEntries ha.2

end

theorem ordered_atop {below : Option Setting} {v : Setting} (hb : ∀ s ∈ below, Ordered s)
    (hv : Ordered v) : Ordered (atop below v) := by
  cases below with
  | none => exact hv
  | some s => exact (hb s rfl).merge hv

theorem lookup_eq_none_of_lt {es : List (String × Setting)} {k : String}
    (h : ∀ e ∈ es, k < e.1) : es.lookup k = none := by
  refine List.lookup_eq_none_iff.2 fun e member => bne_iff_ne.2 ?_
  rintro rfl
  exact String.lt_irrefl _ (h e member)

theorem lookup_mergeEntries {below above : List (String × Setting)} (hb : Ordered (table below))
    (ha : Ordered (table above)) (key : String) :
    (mergeEntries below above).lookup key =
      match above.lookup key with
      | some v => some (atop (below.lookup key) v)
      | none => below.lookup key := by
  induction above generalizing below with
  | nil => rw [mergeEntries, List.lookup_nil]
  | cons e above ih =>
    obtain ⟨k, v⟩ := e
    obtain ⟨first, rest⟩ := List.pairwise_cons.1 ha.1
    have here : ∀ s ∈ below.lookup k, Ordered s := fun s found => ordered_at? hb found
    have placed := (ordered_atop here ha.2.1).place (k := k) hb
    rw [mergeEntries_cons, ih placed ⟨rest, ha.2.2⟩, Dict.lookup_place _ _ _ _ hb.1,
      Dict.lookup_cons_eq_ite]
    by_cases same : key = k
    · subst same
      simp [lookup_eq_none_of_lt first]
    · simp [same]

theorem at?_atop {below : Option Setting} {v : Setting} {key : String}
    (hb : ∀ s ∈ below, s.isTable = true ∧ Ordered s) (hv : v.isTable = true ∧ Ordered v) :
    (atop below v).at? key =
      match v.at? key with
      | some x => some (atop (below.bind (at? key)) x)
      | none => below.bind (at? key) := by
  cases below with
  | none =>
    rw [atop]
    cases v.at? key <;> rfl
  | some s =>
    obtain ⟨ts, os⟩ := hb s rfl
    cases s with
    | table below =>
      cases v with
      | table above => exact lookup_mergeEntries os hv.2 key
      | _ => nomatch hv.1
    | _ => nomatch ts

def valuesAt (key : String) (layers : List Setting) : List Setting := layers.filterMap (at? key)

theorem ordered_of_mem_valuesAt {key : String} {layers : List Setting} (h : ∀ s ∈ layers, Ordered s) :
    ∀ v ∈ valuesAt key layers, Ordered v := by
  intro v member
  obtain ⟨s, layer, found⟩ := List.mem_filterMap.1 member
  exact ordered_at? (h s layer) found

def highest? (key : String) (layers : List Setting) : Option Setting := (valuesAt key layers).getLast?

def overlay (values : List Setting) : Option Setting := values.foldl (fun b v => some (atop b v)) none

def stack (layers : List Setting) : Setting := layers.foldl merge (table [])

theorem overlay_concat (values : List Setting) (v : Setting) :
    overlay (values ++ [v]) = some (atop (overlay values) v) := by
  rw [overlay, List.foldl_append]
  rfl

theorem overlay_eq_none_iff {values : List Setting} : overlay values = none ↔ values = [] := by
  rcases List.eq_nil_or_concat values with rfl | ⟨front, v, rfl⟩
  · simp [overlay]
  · rw [List.concat_eq_append, overlay_concat]
    simp

theorem overlay_eq_some_iff {values : List Setting} {v : Setting} (h : v.isTable = false) :
    overlay values = some v ↔ values.getLast? = some v := by
  rcases List.eq_nil_or_concat values with rfl | ⟨front, last, rfl⟩
  · simp [overlay]
  · rw [List.concat_eq_append, overlay_concat, List.getLast?_concat, Option.some_inj, Option.some_inj]
    constructor
    · intro same
      -- Whether the whole is a table is up to the last setting alone.
      have noTable : last.isTable = false := by rw [← isTable_atop (overlay front), same, h]
      rwa [atop_of_not_table noTable] at same
    · rintro rfl
      exact atop_of_not_table h

def AreTables (values : List Setting) : Prop := ∀ v ∈ values, v.isTable = true ∧ Ordered v

theorem AreTables.overlay {values : List Setting} (h : AreTables values) :
    ∀ s ∈ overlay values, s.isTable = true ∧ Ordered s := by
  induction values using List.reverseRecOn with
  | nil => nofun
  | append_singleton values v ih =>
    have front := ih fun s member => h s (List.mem_append_left _ member)
    have last := h v (by simp)
    intro s found
    rw [overlay_concat] at found
    cases found
    exact ⟨(isTable_atop _ v).trans last.1, ordered_atop (fun s found => (front s found).2) last.2⟩

theorem at?_overlay {values : List Setting} (h : AreTables values) (key : String) :
    (overlay values).bind (at? key) = overlay (valuesAt key values) := by
  induction values using List.reverseRecOn with
  | nil => rfl
  | append_singleton values v ih =>
    have front : AreTables values := fun s member => h s (List.mem_append_left _ member)
    have here : valuesAt key (values ++ [v]) = valuesAt key values ++ (v.at? key).toList := by
      rw [valuesAt, List.filterMap_append]
      cases found : v.at? key <;> simp [found, valuesAt]
    rw [overlay_concat, here, Option.bind_some, at?_atop front.overlay (h v (by simp)), ih front]
    cases v.at? key with
    | none => rw [Option.toList_none, List.append_nil]
    | some x => rw [Option.toList_some, overlay_concat]

theorem overlay_cons (v : Setting) (values : List Setting) :
    overlay (v :: values) = some (values.foldl merge v) := by
  induction values using List.reverseRecOn with
  | nil => rfl
  | append_singleton values w ih =>
    rw [← List.cons_append, overlay_concat, ih, List.foldl_append]
    rfl

theorem AreTables.on_empty {layers : List Setting} (h : AreTables layers) :
    AreTables (table [] :: layers) :=
  List.forall_mem_cons.2 ⟨⟨rfl, .nil, trivial⟩, h⟩

theorem AreTables.stack {layers : List Setting} (h : AreTables layers) :
    (stack layers).isTable = true ∧ Ordered (stack layers) :=
  h.on_empty.overlay _ (overlay_cons _ layers)

end BlueprintSchema.Setting
