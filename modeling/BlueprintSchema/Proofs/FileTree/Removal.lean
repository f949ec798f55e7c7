import BlueprintSchema.FileTree.Edit
import BlueprintSchema.Proofs.FileTree.Listing

/-! Trees without links from which files are removed. Every path leads where it led, unless that was a
removed file; so every listing is the old one without the paths to removed files, and all that is left
reads as before. Main statements: `FileTree.children_without`, `FileTree.files_without` and
`FileTree.read_without`. -/

namespace BlueprintSchema.FileTree

variable {t : FileTree} {gone : List Place}

def without (t : FileTree) (gone : List Place) : FileTree :=
  ⟨t.nodes.filter fun e => !gone.contains e.1⟩

def HoldsFiles (t : FileTree) (places : List Place) : Prop :=
  ∀ p ∈ places, ∃ content, t.get? p = some (.file content)

def avoids (t : FileTree) (gone : List Place) (path : String) : Bool :=
  match t.resolve path with
  | .ok p => !gone.contains p
  | .error _ => true

theorem avoids_of_resolve {path : String} {p : Place} (h : t.resolve path = .ok p) :
    t.avoids gone path = !gone.contains p := by
  rw [avoids, h]

theorem exists_of_not_avoids {path : String} (h : t.avoids gone path = false) :
    ∃ p ∈ gone, t.resolve path = .ok p := by
  unfold avoids at h
  split at h
  · next p leads => exact ⟨p, by simpa using h, leads⟩
  · nomatch h

theorem lookup_filter (keep : Place → Bool) (nodes : List (Place × FileNode)) (p : Place) :
    (nodes.filter fun e => keep e.1).lookup p = if keep p then nodes.lookup p else none := by
  induction nodes with
  | nil => simp
  | cons e nodes ih =>
    obtain ⟨q, n⟩ := e
    by_cases same : p = q
    · subst same
      cases kept : keep p <;> simp [kept, ih]
    · have other : (p == q) = false := beq_eq_false_iff_ne.2 same
      cases kept : keep q <;> simp [List.lookup_cons, kept, other, ih]

section Without

variable (files : t.HoldsFiles gone)
include files

theorem HoldsFiles.not_mem {p : Place} (h : t.get? p = some .directory) : p ∉ gone := by
  intro member
  obtain ⟨content, file⟩ := files p member
  rw [h] at file
  nomatch file

theorem get?_without (p : Place) : (t.without gone).get? p = if p ∈ gone then none else t.get? p := by
  by_cases root : p = []
  · subst root
    rw [if_neg (files.not_mem get?_root)]
    rfl
  · have look := lookup_filter (fun q => !gone.contains q) t.nodes p
    by_cases member : p ∈ gone <;> simpa [get?, without, root, member] using look

theorem solid?_without (p : Place) :
    (t.without gone).solid? p = if p ∈ gone then none else t.solid? p := by
  unfold solid?
  rw [get?_without files]
  by_cases member : p ∈ gone <;> simp [member]

theorem get?_without_directory {p : Place} :
    (t.without gone).get? p = some .directory ↔ t.get? p = some .directory := by
  rw [get?_without files]
  by_cases member : p ∈ gone
  · obtain ⟨content, file⟩ := files p member
    simp [member, file]
  · rw [if_neg member]

theorem WellFormed.without (wf : t.WellFormed) : (t.without gone).WellFormed where
  unique := wf.unique.filter _
  stands e member := by
    obtain ⟨p, name, split, named, above⟩ := wf.stands e (List.mem_filter.1 member).1
    exact ⟨p, name, split, named, (get?_without_directory files).2 above⟩

theorem LinkFree.without (free : t.LinkFree) : (t.without gone).LinkFree := by
  intro p target found
  rw [get?_without files] at found
  split at found
  · nomatch found
  · exact free p target found

theorem walk_without (wf : t.WellFormed) {here q : Place} {steps : List String}
    (start : t.get? here = some .directory) :
    (t.without gone).walk here steps = some q ↔ t.walk here steps = some q ∧ q ∉ gone := by
  induction steps generalizing here with
  | nil =>
    constructor
    · rintro ⟨⟩
      exact ⟨rfl, files.not_mem start⟩
    · exact fun h => h.1
  | cons step steps ih =>
    rw [walk, walk]
    split
    · exact ih start
    · split
      · exact ih (wf.dropLast start)
      · rw [solid?_without files]
        by_cases member : here ++ [step] ∈ gone
        -- What is removed is a file, so the walk ended here if anywhere.
        · obtain ⟨content, file⟩ := files _ member
          rw [if_pos member, solid?_file.2 file]
          constructor
          · intro h
            contradiction
          · rintro ⟨h, kept⟩
            have ended : (if steps.isEmpty then some (here ++ [step]) else none) = some q := h
            split at ended
            · cases ended
              exact absurd member kept
            · contradiction
        · rw [if_neg member]
          split
          · next found => exact ih (solid?_directory.1 found)
          · split
            · constructor
              · rintro ⟨⟩
                exact ⟨rfl, member⟩
              · exact fun h => h.1
            · simp
          · simp

theorem listing_without (wf : t.WellFormed) (p : Place) :
    (t.without gone).listing p = (t.listing p).filter fun name => !gone.contains (p ++ [name]) := by
  refine listing_eq_filter wf (wf.without files) _ fun name => ?_
  rw [solid?_without files]
  by_cases member : p ++ [name] ∈ gone <;> simp [member]

end Without

section Paths

variable (files : t.HoldsFiles gone) (wf : t.WellFormed) (free : t.LinkFree)

theorem avoids_join (wf : t.WellFormed) (free : t.LinkFree) {path name : String} {p : Place}
    (leads : t.resolve path = .ok p) (listed : name ∈ t.listing p) :
    t.avoids gone (Path.join path name) = !gone.contains (p ++ [name]) := by
  have filled := free.linksDangle.path_ne_empty leads
  exact avoids_of_resolve ((resolve_join wf free.linksDangle (isName_of_mem_listing wf listed)
    filled).2 ⟨p, leads, rfl, (mem_listing wf).1 listed⟩)

include files wf free

theorem resolve_without {path : String} {q : Place} :
    (t.without gone).resolve path = .ok q ↔ t.resolve path = .ok q ∧ q ∉ gone := by
  rw [(free.without files).linksDangle.resolve_eq_ok_iff, free.linksDangle.resolve_eq_ok_iff,
    walk_without files wf rfl, and_assoc]

theorem missing_without {path : String} (missing : ∀ p, t.resolve path ≠ .ok p) (p : Place) :
    (t.without gone).resolve path ≠ .ok p :=
  fun leads => missing p ((resolve_without files wf free).1 leads).1

theorem isDirectory_without (path : String) :
    (t.without gone).isDirectory path = t.isDirectory path := by
  rw [Bool.eq_iff_iff, isDirectory_iff, isDirectory_iff]
  refine exists_congr fun p => ?_
  rw [resolve_without files wf free, get?_without_directory files]
  exact ⟨fun h => ⟨h.1.1, h.2⟩, fun h => ⟨⟨h.1, files.not_mem h.2⟩, h.2⟩⟩

theorem isFile_without (path : String) :
    (t.without gone).isFile path = (t.isFile path && t.avoids gone path) := by
  rw [Bool.eq_iff_iff, Bool.and_eq_true, isFile_iff, isFile_iff]
  constructor
  · rintro ⟨p, content, leads, file⟩
    obtain ⟨leads, kept⟩ := (resolve_without files wf free).1 leads
    rw [get?_without files, if_neg kept] at file
    exact ⟨⟨p, content, leads, file⟩, by simpa [avoids_of_resolve leads] using kept⟩
  · rintro ⟨⟨p, content, leads, file⟩, kept⟩
    have kept : p ∉ gone := by simpa [avoids_of_resolve leads] using kept
    exact ⟨p, content, (resolve_without files wf free).2 ⟨leads, kept⟩,
      by rw [get?_without files, if_neg kept, file]⟩

theorem children_without (path : String) :
    (t.without gone).children path = (t.children path).filter (t.avoids gone) := by
  cases leads' : (t.without gone).resolve path with
  | ok p =>
    obtain ⟨leads, -⟩ := (resolve_without files wf free).1 leads'
    rw [children_eq (free.without files).linksDangle leads', children_eq free.linksDangle leads,
      listing_without files wf, List.filter_map]
    refine congrArg _ (List.filter_congr fun name listed => ?_)
    exact (avoids_join wf free leads listed).symm
  | error cause =>
    have old : t.children path = [] := by
      refine List.eq_nil_iff_forall_not_mem.2 fun child member => ?_
      -- What has children is a directory, and stands as before.
      have isDirectory := isDirectory_of_mem_children wf free.linksDangle member
      rw [← isDirectory_without files wf free] at isDirectory
      obtain ⟨q, leads⟩ := exists_of_isDirectory isDirectory
      rw [leads'] at leads
      nomatch leads
    rw [children, leads', old]
    rfl

theorem filesBelow_without (depth : Nat) {way : List Place} {p : Place} {path : String}
    (leads : t.resolve path = .ok p) : (t.without gone).filesBelow depth way p path =
      (t.filesBelow depth way p path).filter (t.avoids gone) := by
  induction depth generalizing way p path with
  | zero => rfl
  | succ depth ih =>
    rw [filesBelow_succ (free.without files).linksDangle, filesBelow_succ free.linksDangle,
      listing_without files wf, List.filter_flatMap, flatMap_filter]
    refine List.flatMap_congr fun name listed => ?_
    have joined := @avoids_join t gone wf free path name p leads listed
    have filled := free.linksDangle.path_ne_empty leads
    have there := (mem_listing wf).1 listed
    have below := (resolve_join wf free.linksDangle (isName_of_mem_listing wf listed) filled).2
      ⟨p, leads, rfl, there⟩
    rw [solid?_without files]
    by_cases member : p ++ [name] ∈ gone
    · obtain ⟨content, file⟩ := files _ member
      simp [member, solid?_file.2 file, joined]
    · rcases t.solid?_cases (p ++ [name]) with h | h | ⟨content, h⟩
      · simp [h]
      · simp [member, h, ih below]
      · simp [member, h, joined]

theorem files_without (path : String) (isDirectory : t.isDirectory path = true) :
    (t.without gone).files path = (t.files path).filter (t.avoids gone) := by
  obtain ⟨p, leads, found⟩ := isDirectory_iff.1 isDirectory
  have leads' := (resolve_without files wf free).2 ⟨leads, files.not_mem found⟩
  have fewer : (t.without gone).nodes.length ≤ t.nodes.length := List.length_filter_le _ _
  rw [FileTree.files, FileTree.files, leads, leads', ← filesBelow_without files wf free _ leads]
  exact filesBelow_eq_of_lt (wf.without files) (free.without files).linksDangle
    ((get?_without_directory files).2 found) (lt_maxDepth _ p)
    (Nat.lt_of_le_of_lt fewer (t.lt_maxDepth p))

theorem read_without {path : String} {p : Place} (leads : t.resolve path = .ok p) (kept : p ∉ gone) :
    (t.without gone).read path = t.read path := by
  have leads' := (resolve_without files wf free).2 ⟨leads, kept⟩
  have same : (t.without gone).get? p = t.get? p := by rw [get?_without files, if_neg kept]
  simp only [read, leads, leads', same, bind, Except.bind]

end Paths

theorem walk_filter_dot {here q : Place} {steps : List String} (h : t.walk here steps = some q) :
    t.walk here (steps.filter (· != ".")) = some q := by
  induction steps generalizing here with
  | nil => exact h
  | cons step steps ih =>
    rw [walk] at h
    by_cases stays : step = "."
    · rw [if_pos stays] at h
      rw [List.filter_cons_of_neg (by simp [stays])]
      exact ih h
    · rw [if_neg stays] at h
      rw [List.filter_cons_of_pos (by simp [stays]), walk, if_neg stays]
      split at h
      · next up => rw [if_pos up]; exact ih h
      · next down =>
        rw [if_neg down]
        split at h
        · exact ih h
        · split at h
          · next last =>
            rw [List.isEmpty_iff.1 last]
            exact h
          · contradiction
        · contradiction

theorem remove?_of_file (wf : t.WellFormed) (free : t.LinkFree) {path : String} {p : Place}
    {content : ByteArray} (leads : t.resolve path = .ok p) (file : t.get? p = some (.file content)) :
    t.remove? path = some (t.without [p]) := by
  obtain ⟨-, walked⟩ := free.linksDangle.resolve_eq_ok_iff.1 leads
  obtain ⟨first, name, q, split, moves, rfl⟩ := wf.walk_file rfl walked file
  have way : (steps path).filter (· != ".") = first.filter (· != ".") ++ [name] := by
    rw [split, List.filter_append]
    simp [moves]
  have above : t.followLinks maxLinks [] (first.filter (· != ".")) = .ok q := by
    rw [split, wf.walk_name (wf.parent file).1] at walked
    obtain ⟨q', walked, same, -⟩ := walked
    rw [(List.append_inj' same rfl).1]
    exact followLinks_of_walk (walk_filter_dot walked)
  have kept : ∀ e ∈ t.nodes, (!(q ++ [name]).isPrefixOf e.1) = !([q ++ [name]].contains e.1) := by
    intro e member
    have found := (wf.mem_nodes.1 (show (e.1, e.2) ∈ t.nodes from member)).2
    rw [Bool.not_inj_iff, Bool.eq_iff_iff, List.isPrefixOf_iff_prefix, List.contains_iff_mem,
      List.mem_singleton]
    constructor
    · rintro ⟨rest, split⟩
      -- Nothing stands below a file.
      rcases rest with _ | ⟨below, rest⟩
      · rw [← split, List.append_nil]
      · rw [← split, List.append_cons] at found
        obtain ⟨m, found⟩ := wf.ancestor found
        rw [(wf.parent found).2] at file
        nomatch file
    · exact fun same => same ▸ List.prefix_rfl
  unfold remove?
  simp only [way, List.dropLast_concat, List.getLast?_concat, above, file, Option.isSome_some, if_true]
  rw [List.filter_congr kept]
  rfl

end BlueprintSchema.FileTree
