import Mathlib.Data.List.Nodup
import Mathlib.Data.List.Perm.Subperm

/-! Facts about lists that several parts of the theory share: lists in strict order, lists with the
numbers of their members, `flatMap` over some of the members, and look-ups by key. -/

namespace BlueprintSchema

variable {α β : Type}

theorem eq_of_pairwise_of_mem_iff {r : α → α → Prop} (asymm : ∀ {a b}, r a b → ¬ r b a)
    {xs ys : List α} (hx : xs.Pairwise r) (hy : ys.Pairwise r) (h : ∀ a, a ∈ xs ↔ a ∈ ys) :
    xs = ys := by
  have distinct : ∀ {a b}, r a b → a ≠ b := fun less same => asymm less (same ▸ less)
  have perm := (List.perm_ext_iff_of_nodup (hx.imp distinct) (hy.imp distinct)).2 h
  exact List.Perm.eq_of_pairwise (fun a b _ _ less more => absurd more (asymm less)) hx hy perm

theorem sublist_of_pairwise_of_subset {r : α → α → Prop} (asymm : ∀ {a b}, r a b → ¬ r b a)
    {xs ys : List α} (hx : xs.Pairwise r) (hy : ys.Pairwise r) (h : xs ⊆ ys) : xs.Sublist ys := by
  have distinct : ∀ {a b}, r a b → a ≠ b := fun less same => asymm less (same ▸ less)
  obtain ⟨part, perm, within⟩ := List.subperm_of_subset (hx.imp distinct) h
  have same := eq_of_pairwise_of_mem_iff asymm (hy.sublist within) hx fun _ => perm.mem_iff
  exact same ▸ within

theorem pairwise_zipIdx (xs : List α) : xs.zipIdx.Pairwise fun p q => p.2 < q.2 := by
  have range := List.pairwise_lt_range' (s := 0) (n := xs.length)
  rw [← List.zipIdx_map_snd] at range
  exact List.pairwise_map.1 range

theorem flatMap_zipIdx (xs : List α) (f : α → List β) :
    xs.zipIdx.flatMap (fun p => f p.1) = xs.flatMap f := by
  conv => rhs; rw [← List.zipIdx_map_fst 0 xs]
  rw [List.flatMap_map]

theorem flatMap_filter (keep : α → Bool) (f : α → List β) (xs : List α) :
    (xs.filter keep).flatMap f = xs.flatMap fun x => if keep x then f x else [] := by
  induction xs with
  | nil => rfl
  | cons x xs ih => cases kept : keep x <;> simp [kept, ih]

theorem infix_flatMap {f : α → List β} {xs : List α} {x : α} (h : x ∈ xs) :
    f x <:+: xs.flatMap f := by
  obtain ⟨before, after, rfl⟩ := List.append_of_mem h
  exact ⟨before.flatMap f, after.flatMap f, by simp⟩

theorem lookup_eq_some_iff_mem [BEq α] [LawfulBEq α] {entries : List (α × β)} {k : α} {x : β}
    (unique : entries.Pairwise fun a b => a.1 ≠ b.1) :
    entries.lookup k = some x ↔ (k, x) ∈ entries := by
  induction entries with
  | nil => simp
  | cons e entries ih =>
    obtain ⟨k', x'⟩ := e
    obtain ⟨other, rest⟩ := List.pairwise_cons.1 unique
    rw [List.lookup_cons]
    by_cases same : k = k'
    · subst same
      have absent : (k, x) ∉ entries := fun found => other _ found rfl
      simp [absent, eq_comm]
    · have differs : (k == k') = false := beq_eq_false_iff_ne.2 same
      simp [differs, ih rest, same]

end BlueprintSchema
