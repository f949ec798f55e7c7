/-!
Finite maps from names to values, kept in increasing key order, so that two maps with the same
look-ups are the same value. Main statements: `Dict.get?_insert` and `Dict.ext_get?`.
-/

namespace BlueprintSchema

universe u

structure Dict (β : Type u) where
  entries : List (String × β)
  sorted : entries.Pairwise (fun a b => a.1 < b.1)

namespace Dict

/-- Put an entry at its place in key order, over any entry with the same key. -/
def place {β : Type u} (k : String) (x : β) : List (String × β) → List (String × β)
  | [] => [(k, x)]
  | e :: r =>
    if k < e.1 then (k, x) :: e :: r
    else if k = e.1 then (k, x) :: r
    else e :: place k x r

theorem key_of_mem_place {β : Type u} {k : String} {x : β} {l : List (String × β)}
    {e : String × β} (h : e ∈ place k x l) : e.1 = k ∨ e ∈ l := by
  induction l with
  | nil => simp_all [place]
  | cons a r ih =>
    unfold place at h
    split at h
    · rcases List.mem_cons.1 h with rfl | h
      · exact .inl rfl
      · exact .inr h
    · split at h
      · rcases List.mem_cons.1 h with rfl | h
        · exact .inl rfl
        · exact .inr (List.mem_cons_of_mem _ h)
      · rcases List.mem_cons.1 h with rfl | h
        · exact .inr List.mem_cons_self
        · exact (ih h).imp_right (List.mem_cons_of_mem _)

theorem sorted_place {β : Type u} {k : String} {x : β} {l : List (String × β)}
    (h : l.Pairwise (fun a b => a.1 < b.1)) : (place k x l).Pairwise (fun a b => a.1 < b.1) := by
  induction l with
  | nil => simp [place]
  | cons a r ih =>
    have ⟨ha, hr⟩ := List.pairwise_cons.1 h
    unfold place
    split
    · next hk =>
      refine List.pairwise_cons.2 ⟨fun e he => ?_, h⟩
      rcases List.mem_cons.1 he with rfl | he
      · exact hk
      · exact String.lt_trans hk (ha e he)
    · next hk =>
      split
      · next he => exact List.pairwise_cons.2 ⟨fun e h' => he ▸ ha e h', hr⟩
      · next he =>
        refine List.pairwise_cons.2 ⟨fun e h' => ?_, ih hr⟩
        rcases key_of_mem_place h' with h' | h'
        · have : a.1 ≤ k := String.not_lt.1 hk
          rcases Decidable.em (a.1 < k) with hlt | hge
          · exact h' ▸ hlt
          · exact absurd (String.le_antisymm (String.not_lt.1 hge) this) he
        · exact ha e h'

variable {β : Type u}

def empty : Dict β := ⟨[], .nil⟩

instance : EmptyCollection (Dict β) := ⟨empty⟩

instance : Inhabited (Dict β) := ⟨empty⟩

def insert (d : Dict β) (k : String) (x : β) : Dict β :=
  ⟨place k x d.entries, sorted_place d.sorted⟩

def get? (d : Dict β) (k : String) : Option β := d.entries.lookup k

def contains (d : Dict β) (k : String) : Bool := (d.get? k).isSome

def toList (d : Dict β) : List (String × β) := d.entries

def keys (d : Dict β) : List String := d.entries.map (·.1)

def isEmpty (d : Dict β) : Bool := d.entries.isEmpty

/-- The map of a list of entries; of entries with one key the last counts. -/
def ofList (l : List (String × β)) : Dict β := l.foldl (fun d e => d.insert e.1 e.2) empty

theorem lookup_cons_eq_ite (e : String × β) (l : List (String × β)) (k : String) :
    (e :: l).lookup k = if k = e.1 then some e.2 else l.lookup k := by
  by_cases h : k = e.1
  · subst h
    rw [if_pos rfl]
    exact List.lookup_cons_self
  · rw [if_neg h, List.lookup_cons, beq_false_of_ne h]

theorem lookup_place (k k' : String) (x : β) (l : List (String × β))
    (h : l.Pairwise (fun a b => a.1 < b.1)) :
    (place k x l).lookup k' = if k' = k then some x else l.lookup k' := by
  induction l with
  | nil => simp [place, lookup_cons_eq_ite]
  | cons a r ih =>
    have ⟨_, hr⟩ := List.pairwise_cons.1 h
    unfold place
    split
    · rw [lookup_cons_eq_ite]
    · split
      · next he =>
        subst he
        simp only [lookup_cons_eq_ite]
        split <;> rfl
      · next he =>
        simp only [lookup_cons_eq_ite, ih hr]
        by_cases hk : k' = k
        · subst hk
          simp [he]
        · simp [hk]

@[simp] theorem get?_insert (d : Dict β) (k k' : String) (x : β) :
    (d.insert k x).get? k' = if k' = k then some x else d.get? k' :=
  lookup_place k k' x d.entries d.sorted

@[simp] theorem get?_empty (k : String) : (empty : Dict β).get? k = none := rfl

theorem entries_eq_of_lookup {l m : List (String × β)}
    (hl : l.Pairwise (fun a b => a.1 < b.1)) (hm : m.Pairwise (fun a b => a.1 < b.1))
    (h : ∀ k, l.lookup k = m.lookup k) : l = m := by
  induction l generalizing m with
  | nil =>
    cases m with
    | nil => rfl
    | cons b s =>
      have := h b.1
      rw [lookup_cons_eq_ite, if_pos rfl, List.lookup_nil] at this
      nomatch this
  | cons a r ih =>
    cases m with
    | nil =>
      have := h a.1
      rw [lookup_cons_eq_ite, if_pos rfl, List.lookup_nil] at this
      nomatch this
    | cons b s =>
      have ⟨ha, hr⟩ := List.pairwise_cons.1 hl
      have ⟨hb, hs⟩ := List.pairwise_cons.1 hm
      have none_below : ∀ {c : String × β} {t : List (String × β)} {k : String},
          (∀ e ∈ t, c.1 < e.1) → (k < c.1 ∨ k = c.1) → t.lookup k = none := by
        intro c t k ht hk
        refine List.lookup_eq_none_iff.2 fun e he => ?_
        have := ht e he
        refine bne_iff_ne.2 fun heq => ?_
        rcases hk with hk | hk
        · exact String.lt_irrefl _ (String.lt_trans (heq ▸ this) hk)
        · exact String.lt_irrefl _ (hk ▸ heq ▸ this)
      have hkey : a.1 = b.1 := by
        rcases Decidable.em (a.1 < b.1) with hlt | hge
        · have := h a.1
          have hne : a.1 ≠ b.1 := fun e => String.lt_irrefl _ (e ▸ hlt)
          rw [lookup_cons_eq_ite, lookup_cons_eq_ite, if_pos rfl, if_neg hne,
            none_below hb (.inl hlt)] at this
          nomatch this
        · rcases Decidable.em (b.1 < a.1) with hgt | hle
          · have := h b.1
            have hne : b.1 ≠ a.1 := fun e => String.lt_irrefl _ (e ▸ hgt)
            rw [lookup_cons_eq_ite, lookup_cons_eq_ite, if_pos rfl, if_neg hne,
              none_below ha (.inl hgt)] at this
            nomatch this
          · exact String.le_antisymm (String.not_lt.1 hle) (String.not_lt.1 hge)
      have hval : a.2 = b.2 := by
        have := h a.1
        rw [lookup_cons_eq_ite, lookup_cons_eq_ite, if_pos rfl, if_pos hkey] at this
        exact Option.some.inj this
      have hab : a = b := Prod.ext hkey hval
      refine hab ▸ congrArg (a :: ·) (ih hr hs fun k => ?_)
      by_cases hk : k = a.1
      · rw [none_below ha (.inr hk), none_below hb (.inr (hkey ▸ hk))]
      · have := h k
        rwa [lookup_cons_eq_ite, lookup_cons_eq_ite, if_neg hk, if_neg (hkey ▸ hk)] at this

theorem ext_get? {d e : Dict β} (h : ∀ k, d.get? k = e.get? k) : d = e := by
  have := entries_eq_of_lookup d.sorted e.sorted h
  cases d; cases e; simp_all

theorem get?_foldl_insert (l : List (String × β)) (d : Dict β) (k : String) :
    (l.foldl (fun d e => d.insert e.1 e.2) d).get? k =
      (((l.filter fun e => e.1 == k).getLast?).map (·.2)).or (d.get? k) := by
  induction l generalizing d with
  | nil => rfl
  | cons e l ih =>
    rw [List.foldl_cons, ih, get?_insert]
    by_cases h : e.1 = k
    · cases hl : (l.filter fun e => e.1 == k).getLast? <;> simp [h, hl, List.getLast?_cons]
    · simp [h, Ne.symm h]

theorem get?_ofList (l : List (String × β)) (k : String) :
    (ofList l).get? k = ((l.filter fun e => e.1 == k).getLast?).map (·.2) := by
  rw [ofList, get?_foldl_insert, get?_empty, Option.or_none]

theorem mem_keys_iff (d : Dict β) (k : String) : k ∈ d.keys ↔ (d.get? k).isSome := by
  rw [← Option.not_isNone, Bool.not_eq_true', ← Bool.not_eq_true, Option.isNone_iff_eq_none, get?,
    List.lookup_eq_none_iff]
  simp [keys]

end Dict

end BlueprintSchema
