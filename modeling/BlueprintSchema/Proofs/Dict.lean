import BlueprintSchema.Dict
import BlueprintSchema.Proofs.Lists

/-! Maps made of lists of entries. Putting an entry at its place brings in no other one, and entries that
are in key order already are the map as they stand. Main statement: `Dict.entries_ofList_of_sorted`. -/

namespace BlueprintSchema.Dict

variable {β : Type} {es : List (String × β)} {e : String × β}

theorem mem_place {k : String} {x : β} (h : e ∈ place k x es) : e = (k, x) ∨ e ∈ es := by
  induction es with
  | nil => exact .inl (List.mem_singleton.1 h)
  | cons a es ih =>
    unfold place at h
    split at h
    · exact List.mem_cons.1 h
    · split at h
      · exact (List.mem_cons.1 h).imp_right (List.mem_cons_of_mem _)
      · rcases List.mem_cons.1 h with rfl | h
        · exact .inr List.mem_cons_self
        · exact (ih h).imp_right (List.mem_cons_of_mem _)

theorem entries_ofList (es : List (String × β)) :
    (ofList es).entries = es.foldl (fun l e => place e.1 e.2 l) [] := by
  have step : ∀ d : Dict β, (es.foldl (fun d e => d.insert e.1 e.2) d).entries =
      es.foldl (fun l e => place e.1 e.2 l) d.entries := by
    induction es with
    | nil => exact fun _ => rfl
    | cons e es ih => exact fun d => ih (d.insert e.1 e.2)
  exact step empty

theorem mem_foldl_place {below : List (String × β)}
    (h : e ∈ es.foldl (fun l e => place e.1 e.2 l) below) : e ∈ es ∨ e ∈ below := by
  induction es generalizing below with
  | nil => exact .inr h
  | cons a es ih =>
    rcases ih h with member | member
    · exact .inl (List.mem_cons_of_mem _ member)
    · rcases mem_place member with rfl | member
      · exact .inl List.mem_cons_self
      · exact .inr member

theorem mem_of_mem_entries_ofList (h : e ∈ (ofList es).entries) : e ∈ es := by
  rw [entries_ofList] at h
  exact (mem_foldl_place h).resolve_right List.not_mem_nil

theorem keys_ne_of_sorted (sorted : es.Pairwise (fun a b => a.1 < b.1)) :
    es.Pairwise fun a b => a.1 ≠ b.1 :=
  sorted.imp fun {a b} (less : a.1 < b.1) (same : a.1 = b.1) => String.lt_irrefl b.1 (same ▸ less)

theorem get?_ofList_of_sorted (sorted : es.Pairwise (fun a b => a.1 < b.1)) (k : String) :
    (ofList es).get? k = es.lookup k := by
  rw [get?_ofList]
  cases last : (es.filter fun e => e.1 == k).getLast? with
  | none =>
    have absent : es.filter (fun e => e.1 == k) = [] := List.getLast?_eq_none_iff.1 last
    rw [Option.map_none, eq_comm, List.lookup_eq_none_iff]
    exact fun e member => bne_iff_ne.2 fun same =>
      List.filter_eq_nil_iff.1 absent e member (beq_iff_eq.2 same.symm)
  | some e =>
    obtain ⟨member, same⟩ := List.mem_filter.1 (List.mem_of_getLast? last)
    rw [← beq_iff_eq.1 same, (lookup_eq_some_iff_mem (keys_ne_of_sorted sorted)).2 member, Option.map_some]

theorem entries_ofList_of_sorted (sorted : es.Pairwise (fun a b => a.1 < b.1)) :
    (ofList es).entries = es :=
  entries_eq_of_lookup (ofList es).sorted sorted (get?_ofList_of_sorted sorted)

end BlueprintSchema.Dict
