import BlueprintSchema.Proofs.Entries
import BlueprintSchema.Script.Tree

/-! Where the nodes of a script stand. The address of a tree counts the parts on the way down to it, and
what stands at an address is spelled in the script as it is in the tree. The nodes in document order
are those at all addresses, by increasing address: an outer node comes before those in it, and what is
in an earlier part before what is in a later one. Main statements: `Tree.mem_addressed`,
`Tree.increasing_addressed` and `Tree.infix_of_at?`. -/

namespace BlueprintSchema.Script.Tree

open Blueprint (Address under mem_under Increasing)

def at? : Tree → Address → Option Tree
  | t, [] => some t
  | t, i :: a => t.parts[i]?.bind (at? · a)

mutual

def addressed : Tree → List (Address × Kind × List Tree)
  | .token _ _ => []
  | .node kind parts => ([], kind, parts) :: addressedFrom 0 parts

/-- All nodes of several trees in document order; the first tree has the given number. -/
def addressedFrom (i : Nat) : List Tree → List (Address × Kind × List Tree)
  | [] => []
  | t :: ts => under i t.addressed ++ addressedFrom (i + 1) ts

end

mutual

theorem map_addressed : ∀ t : Tree, t.addressed.map Prod.snd = t.nodes
  | .token _ _ => rfl
  | .node kind parts => by
    rw [addressed, nodes, List.map_cons, map_addressedFrom 0 parts]

theorem map_addressedFrom (i : Nat) : ∀ ts : List Tree,
    (addressedFrom i ts).map Prod.snd = nodesOf ts
  | [] => rfl
  | t :: ts => by
    have own : (under i t.addressed).map Prod.snd = t.addressed.map Prod.snd := by
      simp [under, Function.comp_def]
    rw [addressedFrom, nodesOf, List.map_append, own, map_addressed t, map_addressedFrom (i + 1) ts]

end

theorem mem_addressedFrom {i : Nat} {ts : List Tree} {a : Address} {n : Kind × List Tree} :
    (a, n) ∈ addressedFrom i ts ↔
      ∃ j b t, ts[j]? = some t ∧ a = (i + j) :: b ∧ (b, n) ∈ t.addressed := by
  induction ts generalizing i with
  | nil => simp [addressedFrom]
  | cons t ts ih =>
    rw [addressedFrom, List.mem_append, mem_under, ih]
    constructor
    · rintro (⟨b, rfl, inside⟩ | ⟨j, b, u, found, rfl, inside⟩)
      · exact ⟨0, b, t, rfl, rfl, inside⟩
      · exact ⟨j + 1, b, u, found, by rw [Nat.add_assoc, Nat.add_comm 1], inside⟩
    · rintro ⟨j, b, u, found, rfl, inside⟩
      cases j with
      | zero =>
        cases found
        exact .inl ⟨b, rfl, inside⟩
      | succ j => exact .inr ⟨j, b, u, found, by rw [Nat.add_assoc, Nat.add_comm 1], inside⟩

theorem mem_addressed {t : Tree} {a : Address} {kind : Kind} {parts : List Tree} :
    (a, kind, parts) ∈ t.addressed ↔ t.at? a = some (.node kind parts) := by
  induction a generalizing t with
  | nil =>
    cases t with
    | token => simp [addressed, at?]
    | node k ps => simp [addressed, at?, mem_addressedFrom, eq_comm]
  | cons i a ih =>
    cases t with
    | token => simp [addressed, at?, Tree.parts]
    | node k ps =>
      simp only [addressed, at?, Tree.parts, List.mem_cons, Prod.mk.injEq, reduceCtorEq, false_and,
        false_or, mem_addressedFrom, Option.bind_eq_some_iff, ← ih]
      constructor
      · rintro ⟨j, b, u, found, same, inside⟩
        obtain ⟨rfl, rfl⟩ := List.cons.inj same
        exact ⟨u, by rwa [Nat.zero_add], inside⟩
      · rintro ⟨u, found, inside⟩
        exact ⟨i, a, u, found, by rw [Nat.zero_add], inside⟩

mutual

theorem increasing_addressed : ∀ t : Tree, Increasing t.addressed
  | .token _ _ => .nil
  | .node kind parts => by
    refine List.pairwise_cons.2 ⟨fun (a, n) inside => ?_, increasing_addressedFrom 0 parts⟩
    obtain ⟨j, b, t, -, rfl, -⟩ := mem_addressedFrom.1 inside
    exact List.nil_lt_cons _ _

theorem increasing_addressedFrom (i : Nat) : ∀ ts : List Tree, Increasing (addressedFrom i ts)
  | [] => .nil
  | t :: ts => by
    refine List.pairwise_append.2 ⟨(increasing_addressed t).under i,
      increasing_addressedFrom (i + 1) ts, fun (a, n) here (b, m) later => ?_⟩
    obtain ⟨c, rfl, -⟩ := mem_under.1 here
    obtain ⟨j, d, u, -, rfl, -⟩ := mem_addressedFrom.1 later
    exact List.cons_lt_cons_iff.2 (.inl (by omega))

end

theorem infix_of_mem {kind : Kind} {parts : List Tree} {t : Tree} (part : t ∈ parts) :
    t.spelling <:+: (Tree.node kind parts).spelling := by
  obtain ⟨before, after, rfl⟩ := List.append_of_mem part
  refine ⟨spellings before, spellings after, ?_⟩
  rw [spelling, spellings_append, spellings, List.append_assoc]

theorem infix_of_at? {t u : Tree} {a : Address} (found : t.at? a = some u) :
    u.spelling <:+: t.spelling := by
  induction a generalizing t with
  | nil =>
    cases found
    exact List.infix_rfl
  | cons i a ih =>
    obtain ⟨v, part, inside⟩ := Option.bind_eq_some_iff.1 found
    cases t with
    | token => nomatch part
    | node kind parts =>
      exact (ih inside).trans (infix_of_mem (List.mem_of_getElem? part))

theorem text_infix_spelling (t : Tree) : t.text <:+: t.spelling := (List.drop_suffix _ _).isInfix

end BlueprintSchema.Script.Tree
