import BlueprintSchema.Proofs.Lists
import BlueprintSchema.Proofs.Path

/-! Where paths lead in trees whose links lead nowhere. Such a path is walked along directories and ends
at a directory or a file, and a name joined to a path leads to what stands under that name. Main
statement: `FileTree.resolve_join`. -/

namespace BlueprintSchema.FileTree

variable {t : FileTree}

structure WellFormed (t : FileTree) : Prop where
  unique : t.nodes.Pairwise fun a b => a.1 ≠ b.1
  stands : ∀ e ∈ t.nodes, ∃ p name,
    e.1 = p ++ [name] ∧ Path.IsName name ∧ t.get? p = some .directory

instance (t : FileTree) : Decidable t.WellFormed :=
  decidable_of_iff ((t.nodes.Pairwise fun a b => a.1 ≠ b.1) ∧ ∀ e ∈ t.nodes,
      ∃ name ∈ e.1.getLast?, Path.IsName name ∧
        (match t.get? e.1.dropLast with | some .directory => true | _ => false) = true) <| by
    constructor
    · rintro ⟨unique, stands⟩
      refine ⟨unique, fun e member => ?_⟩
      obtain ⟨name, last, named, above⟩ := stands e member
      obtain ⟨p, split⟩ := List.getLast?_eq_some_iff.1 last
      rw [split, List.dropLast_concat] at above
      refine ⟨p, name, split, named, ?_⟩
      split at above
      · assumption
      · nomatch above
    · rintro ⟨unique, stands⟩
      refine ⟨unique, fun e member => ?_⟩
      obtain ⟨p, name, split, named, above⟩ := stands e member
      exact ⟨name, by rw [split]; simp, named, by rw [split, List.dropLast_concat, above]⟩

@[simp] theorem get?_root : t.get? [] = some .directory := rfl

theorem WellFormed.mem_nodes (wf : t.WellFormed) {p : Place} {n : FileNode} :
    (p, n) ∈ t.nodes ↔ p ≠ [] ∧ t.get? p = some n := by
  constructor
  · intro found
    obtain ⟨q, name, split, -, -⟩ := wf.stands _ found
    have nonempty : p ≠ [] := by
      rintro rfl
      simp at split
    refine ⟨nonempty, ?_⟩
    have look := (lookup_eq_some_iff_mem wf.unique).2 found
    simpa [get?, nonempty] using look
  · rintro ⟨nonempty, found⟩
    refine (lookup_eq_some_iff_mem wf.unique).1 ?_
    simpa [get?, nonempty] using found

theorem WellFormed.get?_of_perm {u : FileTree} (wf : t.WellFormed) (wf' : u.WellFormed)
    (h : u.nodes.Perm t.nodes) (p : Place) : u.get? p = t.get? p := by
  by_cases root : p = []
  · rw [root]
    rfl
  · refine Option.ext fun n => ?_
    have there := h.mem_iff (a := (p, n))
    rw [wf.mem_nodes, wf'.mem_nodes] at there
    simpa [root] using there

theorem WellFormed.parent (wf : t.WellFormed) {p : Place} {name : String} {n : FileNode}
    (found : t.get? (p ++ [name]) = some n) :
    Path.IsName name ∧ t.get? p = some .directory := by
  obtain ⟨q, other, split, named, above⟩ := wf.stands _ (wf.mem_nodes.2 ⟨by simp, found⟩)
  obtain ⟨rfl, last⟩ := List.append_inj' split rfl
  rw [List.cons.inj last |>.1]
  exact ⟨named, above⟩

theorem WellFormed.dropLast (wf : t.WellFormed) {p : Place} {n : FileNode}
    (found : t.get? p = some n) : t.get? p.dropLast = some .directory := by
  rcases List.eq_nil_or_concat p with rfl | ⟨q, name, rfl⟩
  · rfl
  · rw [List.concat_eq_append] at found ⊢
    rw [List.dropLast_concat]
    exact (wf.parent found).2

def LinkFree (t : FileTree) : Prop := ∀ p target, t.get? p ≠ some (.link target)

def LinksDangle (t : FileTree) : Prop :=
  ∀ p name target, t.get? (p ++ [name]) = some (.link target) →
    ∀ q, t.followLinks maxLinks p [name] ≠ .ok q

theorem WellFormed.linksDangle (wf : t.WellFormed) (h : ∀ e ∈ t.nodes, (match e.2 with
    | .link _ => !(t.followLinks maxLinks e.1.dropLast e.1.getLast?.toList).isOk
    | _ => true) = true) : t.LinksDangle := by
  intro p name target found q leads
  have dangles := h _ (wf.mem_nodes.2 ⟨by simp, found⟩)
  simp [leads, Except.isOk, Except.toBool] at dangles

theorem WellFormed.linkFree (wf : t.WellFormed) (h : ∀ e ∈ t.nodes, (match e.2 with
    | .link _ => false
    | _ => true) = true) : t.LinkFree := by
  intro p target found
  have filled : p ≠ [] := by
    rintro rfl
    nomatch found
  have solid := h _ (wf.mem_nodes.2 ⟨filled, found⟩)
  nomatch solid

theorem LinkFree.linksDangle (h : t.LinkFree) : t.LinksDangle :=
  fun p name target found => absurd found (h (p ++ [name]) target)

/-- What stands at a place, a link counting as nothing. -/
def solid? (t : FileTree) (p : Place) : Option FileNode :=
  match t.get? p with
  | some (.link _) => none
  | n => n

theorem get?_of_solid? {p : Place} {n : FileNode} (h : t.solid? p = some n) : t.get? p = some n := by
  unfold solid? at h
  split at h
  · nomatch h
  · exact h

theorem solid?_directory {p : Place} : t.solid? p = some .directory ↔ t.get? p = some .directory := by
  unfold solid?
  split <;> simp_all

theorem solid?_file {p : Place} {content : ByteArray} :
    t.solid? p = some (.file content) ↔ t.get? p = some (.file content) := by
  unfold solid?
  split <;> simp_all

theorem solid?_cases (t : FileTree) (p : Place) :
    t.solid? p = none ∨ t.solid? p = some .directory ∨
      ∃ content, t.solid? p = some (.file content) := by
  cases h : t.solid? p with
  | none => exact .inl rfl
  | some n =>
    cases n with
    | directory => exact .inr (.inl rfl)
    | file content => exact .inr (.inr ⟨content, rfl⟩)
    | link target =>
      have found := get?_of_solid? h
      simp [solid?, found] at h

/-- Take steps from a directory without following any link. -/
def walk (t : FileTree) (here : Place) : List String → Option Place
  | [] => some here
  | step :: rest =>
    if step = "." then walk t here rest
    else if step = ".." then walk t here.dropLast rest
    else
      match t.solid? (here ++ [step]) with
      | some .directory => walk t (here ++ [step]) rest
      | some (.file _) => if rest.isEmpty then some (here ++ [step]) else none
      | _ => none

section Follow

variable {through through' : Place → List String → Except Failure Place}

theorem follow_append {here : Place} {first rest : List String} {q : Place}
    (back : ∀ here first rest q, through here (first ++ rest) = .ok q →
      ∃ p, through here first = .ok p)
    (h : follow t through here (first ++ rest) = .ok q) : ∃ p, follow t through here first = .ok p := by
  induction first generalizing here with
  | nil => exact ⟨here, rfl⟩
  | cons step first ih =>
    rw [List.cons_append, follow] at h
    rw [follow]
    split at h
    · next stays => rw [if_pos stays]; exact ih h
    · next moves =>
      rw [if_neg moves]
      split at h
      · next up => rw [if_pos up]; exact ih h
      · next down =>
        rw [if_neg down]
        split at h
        · nomatch h
        · rw [← List.append_assoc] at h
          exact back _ _ _ _ h
        · split at h
          · next empty =>
            have none : first = [] := (List.append_eq_nil_iff.1 (List.isEmpty_iff.1 empty)).1
            rw [none]
            exact ⟨_, rfl⟩
          · nomatch h
        · exact ih h

theorem follow_mono {here : Place} {steps : List String} {q : Place}
    (more : ∀ here steps q, through here steps = .ok q → through' here steps = .ok q)
    (h : follow t through here steps = .ok q) : follow t through' here steps = .ok q := by
  induction steps generalizing here with
  | nil => exact h
  | cons step steps ih =>
    rw [follow] at h ⊢
    split at h
    · next stays => rw [if_pos stays]; exact ih h
    · next moves =>
      rw [if_neg moves]
      split at h
      · next up => rw [if_pos up]; exact ih h
      · next down =>
        rw [if_neg down]
        split at h
        · nomatch h
        · exact more _ _ _ h
        · exact h
        · exact ih h

end Follow

theorem followLinks_append {links : Nat} {here : Place} {first rest : List String} {q : Place}
    (h : t.followLinks links here (first ++ rest) = .ok q) :
    ∃ p, t.followLinks links here first = .ok p := by
  induction links generalizing here first rest q with
  | zero => exact follow_append (fun _ _ _ _ refused => nomatch refused) h
  | succ links ih => exact follow_append (fun _ _ _ _ => ih) h

theorem followLinks_mono {links more : Nat} {here : Place} {steps : List String} {q : Place}
    (le : links ≤ more) (h : t.followLinks links here steps = .ok q) :
    t.followLinks more here steps = .ok q := by
  induction links generalizing more here steps q with
  | zero =>
    cases more with
    | zero => exact h
    | succ more =>
      refine follow_mono ?_ h
      intro _ _ _ refused
      nomatch refused
  | succ links ih =>
    cases more with
    | zero => exact absurd le (Nat.not_succ_le_zero links)
    | succ more => exact follow_mono (fun _ _ _ => ih (Nat.le_of_succ_le_succ le)) h

def afterLink (t : FileTree) : Nat → Place → List String → Except Failure Place
  | 0 => fun _ _ => .error .tooManyLinks
  | links + 1 => t.followLinks links

theorem followLinks_eq (t : FileTree) (links : Nat) :
    t.followLinks links = follow t (t.afterLink links) := by
  cases links <;> rfl

theorem LinksDangle.walk_of_followLinks (dangle : t.LinksDangle) {links : Nat} {here : Place}
    {steps : List String} {q : Place} (le : links ≤ maxLinks)
    (h : t.followLinks links here steps = .ok q) : t.walk here steps = some q := by
  induction steps generalizing here with
  | nil => cases links <;> cases h <;> rfl
  | cons step steps ih =>
    rw [followLinks_eq, follow, ← followLinks_eq] at h
    rw [walk]
    split at h
    · next stays => rw [if_pos stays]; exact ih h
    · next moves =>
      rw [if_neg moves]
      split at h
      · next up => rw [if_pos up]; exact ih h
      · next down =>
        rw [if_neg down]
        split at h
        · contradiction
        -- A link whose target leads somewhere does not dangle.
        · next target found =>
          cases links with
          | zero => contradiction
          | succ links =>
            obtain ⟨p, reached⟩ := followLinks_append h
            have leads : t.followLinks maxLinks here [step] = .ok p := by
              have most : t.followLinks maxLinks = follow t (t.followLinks 39) := rfl
              rw [most, follow, if_neg moves, if_neg down, found]
              simpa using followLinks_mono (Nat.le_of_succ_le_succ le) reached
            exact absurd leads (dangle here step target found p)
        · next content found =>
          rw [solid?_file.2 found]
          split at h
          · next last => cases h; rw [if_pos last]
          · contradiction
        · next found =>
          rw [solid?_directory.2 found]
          exact ih h

theorem followLinks_of_walk {links : Nat} {here : Place} {steps : List String} {q : Place}
    (h : t.walk here steps = some q) : t.followLinks links here steps = .ok q := by
  refine followLinks_mono (Nat.zero_le links) ?_
  induction steps generalizing here with
  | nil => cases h; rfl
  | cons step steps ih =>
    rw [walk] at h
    rw [followLinks, follow]
    split at h
    · next stays => rw [if_pos stays]; exact ih h
    · next moves =>
      rw [if_neg moves]
      split at h
      · next up => rw [if_pos up]; exact ih h
      · next down =>
        rw [if_neg down]
        split at h
        · next found => rw [solid?_directory.1 found]; exact ih h
        · next content found =>
          rw [solid?_file.1 found]
          split at h
          · next last => cases h; simp only [last, if_true]
          · nomatch h
        · nomatch h

theorem LinksDangle.resolve_eq_ok_iff (dangle : t.LinksDangle) {path : String} {q : Place} :
    t.resolve path = .ok q ↔ path ≠ "" ∧ t.walk [] (steps path) = some q := by
  unfold resolve
  by_cases empty : path = ""
  · simp [empty]
  · have filled : path.isEmpty = false := by simpa using empty
    rw [filled]
    constructor
    · exact fun h => ⟨empty, dangle.walk_of_followLinks (Nat.le_refl _) h⟩
    · exact fun ⟨_, h⟩ => followLinks_of_walk h

section Walk

variable {here p q : Place} {first : List String} {name : String}

theorem walk_singleton (named : Path.IsName name) :
    t.walk here [name] = some q ↔ q = here ++ [name] ∧ (t.solid? q).isSome := by
  rw [walk, if_neg named.ne_dot, if_neg named.ne_dots]
  rcases t.solid?_cases (here ++ [name]) with h | h | ⟨content, h⟩
  · rw [h]
    constructor
    · nofun
    · rintro ⟨rfl, there⟩
      rw [h] at there
      nomatch there
  all_goals
    simp only [h, walk, List.isEmpty_nil, if_true, Option.some.injEq]
    constructor
    · rintro rfl
      exact ⟨rfl, by rw [h]; rfl⟩
    · exact fun found => found.1.symm

theorem WellFormed.walk_name (wf : t.WellFormed) (named : Path.IsName name) :
    t.walk here (first ++ [name]) = some q ↔
      ∃ p, t.walk here first = some p ∧ q = p ++ [name] ∧ (t.solid? q).isSome := by
  induction first generalizing here with
  | nil =>
    rw [List.nil_append, walk_singleton named]
    constructor
    · rintro ⟨rfl, there⟩
      exact ⟨here, rfl, rfl, there⟩
    · rintro ⟨p, h, rfl, there⟩
      cases h
      exact ⟨rfl, there⟩
  | cons step first ih =>
    rw [List.cons_append, walk, walk]
    split
    · exact ih
    · split
      · exact ih
      · split
        · exact ih
        · next content found =>
          -- A file has no name below it.
          have last : (first ++ [name]).isEmpty = false := by simp
          rw [last]
          constructor
          · nofun
          · rintro ⟨p, h, rfl, there⟩
            split at h
            · cases h
              obtain ⟨n, below⟩ := Option.isSome_iff_exists.1 there
              have directory := (wf.parent (get?_of_solid? below)).2
              rw [solid?_file.1 found] at directory
              nomatch directory
            · nomatch h
        · constructor
          · nofun
          · rintro ⟨p, h, -⟩
            nomatch h

theorem WellFormed.walk_dot (wf : t.WellFormed) (start : t.get? here = some .directory) :
    t.walk here (first ++ ["."]) = some q ↔
      t.walk here first = some q ∧ t.get? q = some .directory := by
  induction first generalizing here with
  | nil =>
    simp only [List.nil_append, walk, if_true, Option.some.injEq]
    exact ⟨fun same => ⟨same, same ▸ start⟩, fun h => h.1⟩
  | cons step first ih =>
    rw [List.cons_append, walk, walk]
    split
    · exact ih start
    · split
      · exact ih (wf.dropLast start)
      · split
        · next found => exact ih (solid?_directory.1 found)
        · next content found =>
          have last : (first ++ ["."]).isEmpty = false := by simp
          rw [last]
          constructor
          · nofun
          · rintro ⟨h, directory⟩
            split at h
            · cases h
              rw [solid?_file.1 found] at directory
              nomatch directory
            · nomatch h
        · exact ⟨nofun, fun h => nomatch h.1⟩

theorem WellFormed.walk_file (wf : t.WellFormed) {steps : List String} {content : ByteArray}
    (start : t.get? here = some .directory) (h : t.walk here steps = some q)
    (file : t.get? q = some (.file content)) :
    ∃ first name p, steps = first ++ [name] ∧ name ≠ "." ∧ q = p ++ [name] := by
  induction steps generalizing here with
  | nil =>
    cases h
    rw [start] at file
    nomatch file
  | cons step steps ih =>
    have further : ∀ here', t.get? here' = some .directory → t.walk here' steps = some q →
        ∃ first name p, step :: steps = first ++ [name] ∧ name ≠ "." ∧ q = p ++ [name] := by
      intro here' start' h'
      obtain ⟨first, name, p, rfl, moves, split⟩ := ih start' h'
      exact ⟨step :: first, name, p, rfl, moves, split⟩
    rw [walk] at h
    split at h
    · exact further here start h
    · next moves =>
      split at h
      · exact further _ (wf.dropLast start) h
      · split at h
        · next found => exact further _ (solid?_directory.1 found) h
        · split at h
          · next last =>
            cases h
            exact ⟨[], step, here, by rw [List.isEmpty_iff.1 last]; rfl, moves, rfl⟩
          · nomatch h
        · nomatch h

end Walk

section Paths

variable {base path name : String} {p q : Place}

theorem LinksDangle.path_ne_empty (dangle : t.LinksDangle) (h : t.resolve path = .ok q) :
    path ≠ "" :=
  (dangle.resolve_eq_ok_iff.1 h).1

theorem resolve_join (wf : t.WellFormed) (dangle : t.LinksDangle) (named : Path.IsName name)
    (filled : base ≠ "") : t.resolve (Path.join base name) = .ok q ↔
      ∃ p, t.resolve base = .ok p ∧ q = p ++ [name] ∧ (t.solid? q).isSome := by
  rw [dangle.resolve_eq_ok_iff, steps_join named filled, wf.walk_name named]
  have walked : ∀ p, q = p ++ [name] → (t.solid? q).isSome →
      (t.walk [] (Path.segments base) = some p ↔ t.resolve base = .ok p) := by
    rintro p rfl there
    obtain ⟨n, found⟩ := Option.isSome_iff_exists.1 there
    have directory := (wf.parent (get?_of_solid? found)).2
    rw [dangle.resolve_eq_ok_iff, steps_eq]
    split
    · rw [wf.walk_dot rfl]
      exact ⟨fun h => ⟨filled, h, directory⟩, fun h => h.2.1⟩
    · rw [List.append_nil]
      exact ⟨fun h => ⟨filled, h⟩, fun h => h.2⟩
  constructor
  · rintro ⟨-, p, h, same, there⟩
    exact ⟨p, (walked p same there).1 h, same, there⟩
  · rintro ⟨p, h, same, there⟩
    exact ⟨Path.join_ne_empty named filled, p, (walked p same there).2 h, same, there⟩

theorem fileName?_of_file (wf : t.WellFormed) (dangle : t.LinksDangle) {content : ByteArray}
    (h : t.resolve path = .ok q) (file : t.get? q = some (.file content)) :
    ∃ p name, q = p ++ [name] ∧ Path.fileName? path = some name := by
  obtain ⟨-, walked⟩ := dangle.resolve_eq_ok_iff.1 h
  obtain ⟨first, name, p, steps, moves, rfl⟩ := wf.walk_file rfl walked file
  refine ⟨p, name, rfl, ?_⟩
  have segments : Path.segments path = first ++ [name] := by
    rw [steps_eq] at steps
    split at steps
    · exact absurd (List.cons.inj (List.append_inj' steps rfl).2).1.symm moves
    · simpa using steps
  have named := (wf.parent file).1
  rw [Path.fileName?, Path.names_eq_filter, segments, List.filter_append]
  have kept : [name].filter (· ≠ ".") = [name] := by simp [moves]
  rw [kept, List.getLast?_concat]
  split
  · next dots => exact absurd (Option.some.inj dots) named.ne_dots
  · rfl

end Paths

theorem walk_congr {u : FileTree} (same : ∀ p, u.solid? p = t.solid? p) (here : Place)
    (steps : List String) : u.walk here steps = t.walk here steps := by
  induction steps generalizing here with
  | nil => rfl
  | cons step steps ih => simp only [walk, same, ih]

theorem resolve_congr {u : FileTree} (dangle : t.LinksDangle) (dangle' : u.LinksDangle)
    (same : ∀ p, u.solid? p = t.solid? p) {path : String} {q : Place} :
    u.resolve path = .ok q ↔ t.resolve path = .ok q := by
  rw [dangle.resolve_eq_ok_iff, dangle'.resolve_eq_ok_iff, walk_congr same]

end BlueprintSchema.FileTree
