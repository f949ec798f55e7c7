import BlueprintSchema.Registry

/-! The registry under any sequence of extensions. The invariant is that the index of a bucket leads
from each handle to its last occurrence; from it the answers through the index and those through the
list of fields are the same. Main statement: `Registry.answers_extendAll`. -/

namespace BlueprintSchema

namespace Field

def last? (handle : String) (fs : List Field) : Option Field :=
  (fs.filter fun f => f.handle == handle).getLast?

theorem last?_append (handle : String) (fs gs : List Field) :
    last? handle (fs ++ gs) = (last? handle gs).or (last? handle fs) := by
  simp only [last?, List.filter_append, List.getLast?_append]

theorem last?_singleton (handle : String) (f : Field) :
    last? handle [f] = if f.handle = handle then some f else none := by
  by_cases h : f.handle = handle <;> simp [last?, h]

theorem last?_eq_none_iff {handle : String} {fs : List Field} :
    last? handle fs = none ↔ ∀ f ∈ fs, f.handle ≠ handle := by
  simp [last?]

theorem last?_of_split {handle : String} {f : Field} {before after : List Field}
    (hf : f.handle = handle) (ha : ∀ g ∈ after, g.handle ≠ handle) :
    last? handle (before ++ f :: after) = some f := by
  rw [List.append_cons, last?_append, last?_append, last?_eq_none_iff.2 ha, last?_singleton,
    if_pos hf]
  rfl

theorem handle_of_last? {handle : String} {f : Field} {fs : List Field}
    (h : last? handle fs = some f) : f ∈ fs ∧ f.handle = handle := by
  have member := List.mem_of_getLast? h
  simpa using member

end Field

namespace Bucket

/-- Every entry of the index is the place of the last field of its handle, and every handle has one. -/
structure Indexed (b : Bucket) : Prop where
  last : ∀ handle i, b.index[handle]? = some i → ∃ before f after,
    b.fields.toList = before ++ f :: after ∧ before.length = i ∧ f.handle = handle ∧
      ∀ g ∈ after, g.handle ≠ handle
  covers : ∀ f ∈ b.fields.toList, f.handle ∈ b.index

theorem indexed_empty : empty.Indexed where
  last handle i h := by simp [empty] at h
  covers f h := by simp [empty] at h

theorem toList_push (b : Bucket) (f : Field) :
    (b.push f).fields.toList = b.fields.toList ++ [f] := by
  simp [push]

theorem index_push (b : Bucket) (f : Field) (handle : String) :
    (b.push f).index[handle]? =
      if f.handle = handle then some b.fields.size else b.index[handle]? := by
  simp [push, Std.HashMap.getElem?_insert]

theorem Indexed.push {b : Bucket} (h : b.Indexed) (f : Field) : (b.push f).Indexed where
  last handle i hi := by
    rw [index_push] at hi
    rw [toList_push]
    split at hi
    -- The handle of the new field: its entry is the new place, and nothing follows it.
    · next same => exact ⟨b.fields.toList, f, [], rfl, by simpa using hi, same, by simp⟩
    · next other =>
      obtain ⟨before, g, after, hs, hl, hg, ha⟩ := h.last handle i hi
      refine ⟨before, g, after ++ [f], by simp [hs], hl, hg, fun e he => ?_⟩
      rcases List.mem_append.1 he with he | he
      · exact ha e he
      · rwa [List.mem_singleton.1 he]
  covers g hg := by
    rw [toList_push] at hg
    rcases List.mem_append.1 hg with hg | hg
    · exact Std.HashMap.mem_insert.2 (.inr (h.covers g hg))
    · rw [List.mem_singleton.1 hg]
      exact Std.HashMap.mem_insert_self

theorem Indexed.append {b : Bucket} (h : b.Indexed) (fs : List Field) : (b.append fs).Indexed := by
  induction fs generalizing b with
  | nil => exact h
  | cons f fs ih => exact ih (h.push f)

theorem toList_append (b : Bucket) (fs : List Field) :
    (b.append fs).fields.toList = b.fields.toList ++ fs := by
  induction fs generalizing b with
  | nil => simp [append]
  | cons f fs ih =>
    have rest := ih (b.push f)
    rw [toList_push, List.append_assoc] at rest
    exact rest

theorem Indexed.get?_eq {b : Bucket} (h : b.Indexed) (handle : String) :
    b.get? handle = Field.last? handle b.fields.toList := by
  unfold get?
  cases hi : b.index[handle]? with
  | none =>
    refine (Field.last?_eq_none_iff.2 fun f hf same => ?_).symm
    have found := Std.HashMap.mem_iff_isSome_getElem?.1 (h.covers f hf)
    rw [same, hi] at found
    nomatch found
  | some i =>
    obtain ⟨before, f, after, hs, hl, hf, ha⟩ := h.last handle i hi
    rw [hs, Field.last?_of_split hf ha, Option.bind_some, ← Array.getElem?_toList, hs, ← hl]
    simp

end Bucket

namespace Registry

/-- Every bucket is indexed; a content type without one has nothing to index. -/
def Indexed (r : Registry) : Prop := ∀ t b, r.bucket? t = some b → b.Indexed

theorem indexed_bare : bare.Indexed := by
  intro t b h
  cases t <;> nomatch h

theorem indexed_empty : empty.Indexed := by
  intro t b h
  cases t <;> exact Option.some.inj h ▸ Bucket.indexed_empty

theorem Indexed.extend {r : Registry} (h : r.Indexed) (t : ContentType) (fs : List Field) :
    (r.extend t fs).Indexed := by
  intro u b hb
  rw [Registry.extend, bucket?_put] at hb
  split at hb
  · rw [← Option.some.inj hb]
    refine Bucket.Indexed.append ?_ fs
    cases ht : r.bucket? t with
    | none => exact Bucket.indexed_empty
    | some c => exact h t c ht
  · exact h u b hb

theorem fields_extend (r : Registry) (t u : ContentType) (fs : List Field) :
    (r.extend t fs).fields u = if u = t then r.fields u ++ fs else r.fields u := by
  simp only [fields, extend, bucket?_put]
  by_cases h : u = t
  · subst h
    cases r.bucket? u <;> simp [Bucket.toList_append, Bucket.empty]
  · simp [h]

theorem Indexed.get?_eq {r : Registry} (h : r.Indexed) (t : ContentType) (handle : String) :
    r.get? t handle = Field.last? handle (r.fields t) := by
  unfold get? fields
  cases hb : r.bucket? t with
  | none => rfl
  | some b => exact (h t b hb).get?_eq handle

theorem get?_fieldMap (r : Registry) (t : ContentType) (handle : String) :
    (r.fieldMap t).get? handle = Field.last? handle (r.fields t) := by
  rw [fieldMap, Dict.get?_ofList, Field.last?, List.filter_map, List.getLast?_map, Option.map_map]
  exact Option.map_id'

theorem size_eq (r : Registry) :
    r.size = (r.fields .entry).length + (r.fields .term).length + (r.fields .asset).length +
      (r.fields .global).length := by
  simp [size, ContentType.all, Nat.add_assoc]

theorem size_extend (r : Registry) (t : ContentType) (fs : List Field) :
    (r.extend t fs).size = r.size + fs.length := by
  cases t <;> simp [size_eq, fields_extend] <;> omega

def extendAll (r : Registry) (batches : List (ContentType × List Field)) : Registry :=
  batches.foldl (fun r batch => r.extend batch.1 batch.2) r

def given (batches : List (ContentType × List Field)) (t : ContentType) : List Field :=
  (batches.filter fun batch => batch.1 == t).flatMap (·.2)

theorem Indexed.extendAll {r : Registry} (h : r.Indexed)
    (batches : List (ContentType × List Field)) : (r.extendAll batches).Indexed := by
  induction batches generalizing r with
  | nil => exact h
  | cons batch batches ih => exact ih (h.extend batch.1 batch.2)

theorem fields_extendAll (r : Registry) (batches : List (ContentType × List Field))
    (t : ContentType) : (r.extendAll batches).fields t = r.fields t ++ given batches t := by
  induction batches generalizing r with
  | nil => simp [Registry.extendAll, given]
  | cons batch batches ih =>
    have rest := ih (r.extend batch.1 batch.2)
    rw [fields_extend] at rest
    by_cases h : t = batch.1
    · simpa [Registry.extendAll, given, h] using rest
    · simpa [Registry.extendAll, given, h, Ne.symm h] using rest

theorem size_extendAll (r : Registry) (batches : List (ContentType × List Field)) :
    (r.extendAll batches).size = r.size + (batches.flatMap fun batch => batch.2).length := by
  induction batches generalizing r with
  | nil => rfl
  | cons batch batches ih =>
    have rest := ih (r.extend batch.1 batch.2)
    rw [size_extend, Nat.add_assoc, ← List.length_append] at rest
    exact rest

structure Answers (r : Registry) (batches : List (ContentType × List Field)) : Prop where
  fields : ∀ t, r.fields t = given batches t
  get? : ∀ t handle, r.get? t handle = Field.last? handle (r.fields t)
  fieldMap : ∀ t handle, (r.fieldMap t).get? handle = r.get? t handle
  keys : ∀ t handle, handle ∈ (r.fieldMap t).keys ↔ (r.get? t handle).isSome
  size : r.size = (batches.flatMap fun batch => batch.2).length
  isEmpty : r.isEmpty ↔ (batches.flatMap fun batch => batch.2).length = 0

theorem answers_of_indexed {start : Registry} (indexed : start.Indexed)
    (nothing : ∀ t, start.fields t = []) (batches : List (ContentType × List Field)) :
    Answers (start.extendAll batches) batches := by
  have through := (indexed.extendAll batches).get?_eq
  have total : (start.extendAll batches).size = (batches.flatMap fun batch => batch.2).length := by
    rw [size_extendAll, size_eq]
    simp [nothing]
  have byHandle : ∀ t handle, ((start.extendAll batches).fieldMap t).get? handle =
      (start.extendAll batches).get? t handle := by
    intro t handle
    rw [get?_fieldMap, through]
  refine ⟨fun t => ?_, through, byHandle, fun t handle => ?_, total, ?_⟩
  · rw [fields_extendAll, nothing, List.nil_append]
  · rw [Dict.mem_keys_iff, byHandle]
  · rw [Registry.isEmpty, total, beq_iff_eq]

/-- Whatever a registry is extended by, the index, the map and the list of fields answer alike, and
a registry that started without buckets answers as one that started with empty ones. -/
theorem answers_extendAll (batches : List (ContentType × List Field)) :
    Answers (empty.extendAll batches) batches ∧ Answers (bare.extendAll batches) batches ∧
    (∀ t, (empty.extendAll batches).fields t = (bare.extendAll batches).fields t) ∧
    (∀ t handle, (empty.extendAll batches).get? t handle = (bare.extendAll batches).get? t handle) ∧
    (∀ t, (empty.extendAll batches).fieldMap t = (bare.extendAll batches).fieldMap t) ∧
    (empty.extendAll batches).size = (bare.extendAll batches).size ∧
    (empty.extendAll batches).isEmpty = (bare.extendAll batches).isEmpty := by
  have full := answers_of_indexed indexed_empty (fun t => by cases t <;> rfl) batches
  have none := answers_of_indexed indexed_bare (fun t => by cases t <;> rfl) batches
  have same : ∀ t, (empty.extendAll batches).fields t = (bare.extendAll batches).fields t :=
    fun t => (full.fields t).trans (none.fields t).symm
  have total := full.size.trans none.size.symm
  refine ⟨full, none, same, fun t handle => ?_, fun t => ?_, total, ?_⟩
  · rw [full.get?, none.get?, same]
  · rw [fieldMap, fieldMap, same]
  · rw [isEmpty, isEmpty, total]

example : ((bare.extend .entry [⟨"intro", "text", ∅⟩, ⟨"intro", "markdown", ∅⟩]).get? .entry
    "intro").map Field.kind = some "markdown" := by
  cbv

end Registry

end BlueprintSchema
