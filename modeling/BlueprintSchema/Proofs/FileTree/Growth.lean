import BlueprintSchema.FileTree.Edit
import BlueprintSchema.Proofs.FileTree.Removal

/-! Trees that hold all that another holds, none of them with links. Every path that leads somewhere in
the smaller tree leads to the same in the larger one. Writing files where there is nothing gives such
a tree. Main statements: `FileTree.Within.resolve` and `FileTree.grown_writeAll`. -/

namespace BlueprintSchema.FileTree

variable {t u : FileTree} {p q : Place}

def Within (t u : FileTree) : Prop := ∀ p n, t.get? p = some n → u.get? p = some n

theorem Within.eq_none (h : t.Within u) (empty : u.get? p = none) : t.get? p = none := by
  cases found : t.get? p with
  | none => rfl
  | some n =>
    rw [h p n found] at empty
    nomatch empty

theorem Within.solid? (h : t.Within u) {n : FileNode} (found : t.solid? p = some n) :
    u.solid? p = some n := by
  have there := h p n (get?_of_solid? found)
  rcases t.solid?_cases p with none | directory | ⟨content, file⟩
  · rw [none] at found
    nomatch found
  · rw [directory] at found
    cases found
    exact solid?_directory.2 there
  · rw [file] at found
    cases found
    exact solid?_file.2 there

theorem Within.walk (h : t.Within u) {here : Place} {steps : List String}
    (walked : t.walk here steps = some q) : u.walk here steps = some q := by
  induction steps generalizing here with
  | nil => exact walked
  | cons step steps ih =>
    rw [FileTree.walk] at walked ⊢
    split at walked
    · next stays => rw [if_pos stays]; exact ih walked
    · next moves =>
      rw [if_neg moves]
      split at walked
      · next up => rw [if_pos up]; exact ih walked
      · next down =>
        rw [if_neg down]
        split at walked
        · next found => rw [h.solid? found]; exact ih walked
        · next content found => rw [h.solid? found]; exact walked
        · cases walked

section Paths

variable (h : t.Within u) (free : t.LinkFree) (free' : u.LinkFree) {path : String}
include h free free'

theorem Within.resolve (leads : t.resolve path = .ok q) : u.resolve path = .ok q := by
  rw [free.linksDangle.resolve_eq_ok_iff] at leads
  exact free'.linksDangle.resolve_eq_ok_iff.2 ⟨leads.1, h.walk leads.2⟩

theorem Within.lookup? {content : ByteArray} (file : t.lookup? path = some (.file content)) :
    u.lookup? path = some (.file content) := by
  unfold FileTree.lookup? at file ⊢
  split at file
  · next p leads =>
    rw [h.resolve free free' leads]
    exact h p _ file
  · nomatch file

end Paths

section Put

variable {name : String} {n : FileNode}

theorem get?_put (filled : p ≠ []) (q : Place) :
    (t.put p n).get? q = if q = p then some n else t.get? q := by
  by_cases root : q = []
  · rw [root, if_neg (Ne.symm filled)]
    rfl
  · have look := lookup_filter (fun q => q != p) t.nodes q
    have rest : (t.put p n).get? q =
        ((t.nodes.filter fun e => e.1 != p).lookup q).or ([(p, n)].lookup q) := by
      rw [get?, put, if_neg (by simpa using root), List.lookup_append]
    rw [rest, look]
    by_cases same : q = p
    · simp [same]
    · have other : (q == p) = false := beq_eq_false_iff_ne.2 same
      simp [same, List.lookup_cons, other, get?, root]

theorem WellFormed.put (wf : t.WellFormed) (named : Path.IsName name)
    (above : t.get? p = some .directory) (here : t.get? (p ++ [name]) ≠ some .directory) :
    (t.put (p ++ [name]) n).WellFormed where
  unique := by
    refine List.pairwise_append.2 ⟨wf.unique.filter _, List.pairwise_singleton _ _, ?_⟩
    intro e member d last
    rw [List.mem_singleton.1 last]
    simpa using (List.mem_filter.1 member).2
  stands e member := by
    have stays : ∀ q, t.get? q = some .directory →
        (t.put (p ++ [name]) n).get? q = some .directory := by
      intro q found
      have other : q ≠ p ++ [name] := by
        rintro rfl
        exact here found
      rw [get?_put (by simp), if_neg other, found]
    rcases List.mem_append.1 member with member | member
    · obtain ⟨q, other, split, named, found⟩ := wf.stands e (List.mem_filter.1 member).1
      exact ⟨q, other, split, named, stays q found⟩
    · rw [List.mem_singleton.1 member]
      exact ⟨p, name, rfl, named, stays p above⟩

theorem LinkFree.put (free : t.LinkFree) (filled : p ≠ []) (solid : ∀ target, n ≠ .link target) :
    (t.put p n).LinkFree := by
  intro q target found
  rw [get?_put filled] at found
  split at found
  · exact solid target (Option.some.inj found)
  · exact free q target found

theorem Within.put {v : FileTree} (h : v.Within t) (filled : p ≠ []) (empty : v.get? p = none) :
    v.Within (t.put p n) := by
  intro q m found
  have other : q ≠ p := by
    rintro rfl
    rw [found] at empty
    nomatch empty
  rw [get?_put filled, if_neg other, h q m found]

end Put

theorem WellFormed.walk_names (wf : t.WellFormed) {here : Place} {names : List String}
    (start : t.get? here = some .directory) (named : ∀ n ∈ names, Path.IsName n) :
    t.walk here names = some q ↔ q = here ++ names ∧ (t.solid? q).isSome := by
  induction names using List.reverseRecOn generalizing q with
  | nil =>
    rw [List.append_nil]
    constructor
    · rintro ⟨⟩
      exact ⟨rfl, by rw [solid?_directory.2 start]; rfl⟩
    · rintro ⟨rfl, -⟩
      rfl
  | append_singleton names name ih =>
    have above := fun n hn => named n (List.mem_append_left _ hn)
    rw [wf.walk_name (named name (by simp))]
    constructor
    · rintro ⟨p, walked, rfl, there⟩
      rw [((ih above).1 walked).1, List.append_assoc] at there ⊢
      exact ⟨rfl, there⟩
    · rintro ⟨rfl, there⟩
      rw [← List.append_assoc] at there ⊢
      obtain ⟨n, found⟩ := Option.isSome_iff_exists.1 there
      have directory := solid?_directory.2 (wf.parent (get?_of_solid? found)).2
      exact ⟨here ++ names, (ih above).2 ⟨rfl, by rw [directory]; rfl⟩, rfl, there⟩

structure Grown (t u : FileTree) : Prop where
  wellFormed : u.WellFormed
  linkFree : u.LinkFree
  within : t.Within u

section Write

variable {names : List String}

theorem Grown.makeSteps (h : t.Grown u) {here : Place} (start : u.get? here = some .directory)
    (named : ∀ n ∈ names, Path.IsName n) {v : FileTree} (made : u.makeSteps here names = some (v, q)) :
    t.Grown v ∧ q = here ++ names ∧ v.get? q = some .directory := by
  induction names generalizing u here with
  | nil =>
    cases made
    exact ⟨h, (List.append_nil _).symm, start⟩
  | cons name names ih =>
    have first := named name List.mem_cons_self
    have rest := fun n hn => named n (List.mem_cons_of_mem _ hn)
    rw [FileTree.makeSteps, if_neg first.ne_dot, if_neg first.ne_dots] at made
    split at made
    · next missing =>
      have filled : here ++ [name] ≠ [] := by simp
      have put : t.Grown (u.put (here ++ [name]) .directory) :=
        ⟨h.wellFormed.put first start (by simp [missing]), h.linkFree.put filled nofun,
          h.within.put filled (h.within.eq_none missing)⟩
      obtain ⟨grown, rfl, found⟩ := ih put (by rw [get?_put filled, if_pos rfl]) rest made
      exact ⟨grown, by simp, found⟩
    · split at made
      · next p leads =>
        have walked := h.linkFree.linksDangle.walk_of_followLinks (Nat.le_refl _) leads
        obtain ⟨rfl, -⟩ := (walk_singleton first).1 walked
        split at made
        · next found =>
          obtain ⟨grown, rfl, found⟩ := ih h found rest made
          exact ⟨grown, by simp, found⟩
        · nomatch made
      · nomatch made

theorem Grown.write (h : t.Grown u) {path : String} (content : ByteArray)
    (named : ∀ n ∈ steps path, Path.IsName n) (empty : t.get? (steps path) = none) :
    t.Grown (u.write path content) := by
  have filled : steps path ≠ [] := by
    intro none
    rw [none] at empty
    nomatch empty
  have above : ∀ n ∈ (steps path).dropLast, Path.IsName n := fun n hn =>
    named n (List.dropLast_subset _ hn)
  unfold FileTree.write
  split
  · next v parent made =>
    obtain ⟨grown, rfl, directory⟩ := h.makeSteps rfl above made
    split
    · next p reached =>
      have unfolded : v.destination? (39 + 1) [] (steps path) = some p := reached
      rw [destination?] at unfolded
      split at unfolded
      · next parent name leads last =>
        obtain ⟨front, split⟩ := List.getLast?_eq_some_iff.1 last
        rw [split, List.dropLast_concat] at leads above directory
        rw [split] at named empty
        have walked := grown.linkFree.linksDangle.walk_of_followLinks (Nat.le_refl _) leads
        obtain ⟨rfl, -⟩ := (grown.wellFormed.walk_names rfl above).1 walked
        rw [List.nil_append] at directory
        have filled : parent ++ [name] ≠ [] := by simp
        split at unfolded
        · next target found => exact absurd found (grown.linkFree _ target)
        · nomatch unfolded
        · next noDirectory =>
          cases unfolded
          have here := fun found => noDirectory found
          exact ⟨grown.wellFormed.put (named name (by simp)) directory here,
            grown.linkFree.put filled nofun, grown.within.put filled empty⟩
      · nomatch unfolded
    · exact grown
  · exact h

structure Vacant (t : FileTree) (path : String) : Prop where
  filled : path ≠ ""
  named : ∀ n ∈ steps path, Path.IsName n
  missing : t.contains path = false

theorem Vacant.get?_eq_none {path : String} (h : t.Vacant path) (wf : t.WellFormed)
    (free : t.LinkFree) : t.get? (steps path) = none := by
  cases found : t.get? (steps path) with
  | none => rfl
  | some n =>
    have solid : (t.solid? (steps path)).isSome := by
      unfold FileTree.solid?
      rw [found]
      cases n with
      | link target => exact absurd found (free _ target)
      | _ => rfl
    have leads : t.resolve path = .ok (steps path) := free.linksDangle.resolve_eq_ok_iff.2
      ⟨h.filled, (wf.walk_names rfl h.named).2 ⟨(List.nil_append _).symm, solid⟩⟩
    have missing := h.missing
    rw [contains, FileTree.lookup?, leads] at missing
    simp only [found] at missing
    nomatch missing

def writeAll (t : FileTree) (files : List (String × ByteArray)) : FileTree :=
  files.foldl (fun t file => t.write file.1 file.2) t

theorem grown_writeAll (wf : t.WellFormed) (free : t.LinkFree) {files : List (String × ByteArray)}
    (vacant : ∀ file ∈ files, t.Vacant file.1) : t.Grown (t.writeAll files) := by
  -- The files written so far only add to what stands around the next one.
  have step : ∀ u, t.Grown u → t.Grown (u.writeAll files) := by
    induction files with
    | nil => exact fun _ grown => grown
    | cons file files ih =>
      intro u grown
      have first := vacant file List.mem_cons_self
      exact ih (fun f hf => vacant f (List.mem_cons_of_mem _ hf)) _
        (grown.write file.2 first.named (first.get?_eq_none wf free))
  exact step t ⟨wf, free, fun _ _ found => found⟩

end Write

end BlueprintSchema.FileTree
