import BlueprintSchema.Proofs.FileTree.Listing

/-! All files below a directory, in trees whose links lead nowhere. They are the files to which names
joined to the path of the directory lead, each once, in the order that compares paths name by name.
Main statements: `FileTree.mem_files` and `FileTree.pairwise_files`. -/

namespace BlueprintSchema

namespace Path

def descend (base : String) (names : List String) : String := names.foldl join base

variable {base : String} {names : List String}

theorem descend_append (base : String) (names more : List String) :
    descend base (names ++ more) = descend (descend base names) more :=
  List.foldl_append

theorem descend_ne_empty (named : ∀ n ∈ names, IsName n) (filled : base ≠ "") :
    descend base names ≠ "" := by
  induction names generalizing base with
  | nil => exact filled
  | cons name names ih =>
    exact ih (fun n hn => named n (List.mem_cons_of_mem _ hn))
      (join_ne_empty (named name List.mem_cons_self) filled)

theorem segments_descend (named : ∀ n ∈ names, IsName n) (filled : base ≠ "") :
    segments (descend base names) = segments base ++ names := by
  induction names generalizing base with
  | nil => exact (List.append_nil _).symm
  | cons name names ih =>
    have first := named name List.mem_cons_self
    have rest := ih (fun n hn => named n (List.mem_cons_of_mem _ hn)) (join_ne_empty first filled)
    rw [segments_join first filled, List.append_assoc] at rest
    exact rest

end Path

namespace FileTree

variable {t : FileTree} {base path : String} {names : List String} {p q : Place}

theorem WellFormed.isName_of_get? (wf : t.WellFormed) {n : FileNode}
    (found : t.get? (p ++ names) = some n) : ∀ name ∈ names, Path.IsName name := by
  intro name member
  obtain ⟨before, after, rfl⟩ := List.append_of_mem member
  rw [← List.append_assoc, List.append_cons] at found
  obtain ⟨m, above⟩ := wf.ancestor found
  exact (wf.parent above).1

theorem WellFormed.walk_solid (wf : t.WellFormed) {here : Place} {steps : List String}
    (start : t.get? here = some .directory) (h : t.walk here steps = some q) :
    (t.solid? q).isSome := by
  induction steps generalizing here with
  | nil =>
    cases h
    rw [solid?_directory.2 start]
    rfl
  | cons step steps ih =>
    rw [walk] at h
    split at h
    · exact ih start h
    · split at h
      · exact ih (wf.dropLast start) h
      · split at h
        · next found => exact ih (solid?_directory.1 found) h
        · next content found =>
          split at h
          · cases h
            rw [found]
            rfl
          · cases h
        · cases h

theorem resolve_descend (wf : t.WellFormed) (dangle : t.LinksDangle)
    (named : ∀ n ∈ names, Path.IsName n) (filled : base ≠ "") :
    t.resolve (Path.descend base names) = .ok q ↔
      ∃ p, t.resolve base = .ok p ∧ q = p ++ names ∧ (t.solid? q).isSome := by
  induction names using List.reverseRecOn generalizing q with
  | nil =>
    have solid : t.resolve base = .ok q → (t.solid? q).isSome := fun leads =>
      wf.walk_solid rfl (dangle.resolve_eq_ok_iff.1 leads).2
    simp only [List.append_nil]
    exact ⟨fun leads => ⟨q, leads, rfl, solid leads⟩, fun ⟨p, leads, same, _⟩ => same ▸ leads⟩
  | append_singleton names name ih =>
    have above := fun n hn => named n (List.mem_append_left _ hn)
    have last := named name (by simp)
    rw [Path.descend_append]
    refine (resolve_join wf dangle last (Path.descend_ne_empty above filled)).trans ?_
    constructor
    · rintro ⟨_, reached, rfl, there⟩
      obtain ⟨p, leads, rfl, -⟩ := (ih above).1 reached
      exact ⟨p, leads, List.append_assoc _ _ _, there⟩
    · rintro ⟨p, leads, rfl, there⟩
      rw [← List.append_assoc] at there ⊢
      -- What stands under the last name stands in a directory.
      obtain ⟨n, found⟩ := Option.isSome_iff_exists.1 there
      have directory := solid?_directory.2 (wf.parent (get?_of_solid? found)).2
      exact ⟨p ++ names, (ih above).2 ⟨p, leads, rfl, by rw [directory]; rfl⟩, rfl, there⟩

theorem isFile_descend (wf : t.WellFormed) (dangle : t.LinksDangle)
    (named : ∀ n ∈ names, Path.IsName n) (filled : base ≠ "") :
    t.isFile (Path.descend base names) = true ↔
      ∃ p content, t.resolve base = .ok p ∧ t.get? (p ++ names) = some (.file content) := by
  rw [isFile_iff]
  constructor
  · rintro ⟨_, content, reached, file⟩
    obtain ⟨p, leads, rfl, -⟩ := (resolve_descend wf dangle named filled).1 reached
    exact ⟨p, content, leads, file⟩
  · rintro ⟨p, content, leads, file⟩
    exact ⟨_, content, (resolve_descend wf dangle named filled).2
      ⟨p, leads, rfl, by rw [solid?_file.2 file]; rfl⟩, file⟩

theorem isDirectory_of_isFile_descend (wf : t.WellFormed) (dangle : t.LinksDangle)
    (named : ∀ n ∈ names, Path.IsName n) (filled : base ≠ "") (some : names ≠ [])
    (isFile : t.isFile (Path.descend base names) = true) : t.isDirectory base = true := by
  obtain ⟨p, content, leads, file⟩ := (isFile_descend wf dangle named filled).1 isFile
  obtain ⟨name, rest, rfl⟩ := List.exists_cons_of_ne_nil some
  rw [List.append_cons] at file
  obtain ⟨m, below⟩ := wf.ancestor file
  exact isDirectory_iff.2 ⟨p, leads, (wf.parent below).2⟩

/-- The files that stand under a name in a directory or below it, with the bound of the walk there. -/
def filesUnder (t : FileTree) (depth : Nat) (way : List Place) (p : Place) (path name : String) :
    List String :=
  match t.solid? (p ++ [name]) with
  | some .directory => t.filesBelow depth ((p ++ [name]) :: way) (p ++ [name]) (Path.join path name)
  | some (.file _) => [Path.join path name]
  | _ => []

theorem filesBelow_eq_flatMap (dangle : t.LinksDangle) (depth : Nat) (way : List Place) (p : Place)
    (path : String) : t.filesBelow (depth + 1) way p path =
      (t.listing p).flatMap (t.filesUnder depth way p path) :=
  filesBelow_succ dangle depth

section Walk

variable {depth : Nat} {way : List Place} {file name : String}

theorem length_concat (p : Place) (name : String) : (p ++ [name]).length = p.length + 1 := by
  simp

theorem mem_filesBelow (wf : t.WellFormed) (dangle : t.LinksDangle)
    (there : t.get? p = some .directory) (deep : t.nodes.length < p.length + depth) :
    file ∈ t.filesBelow depth way p path ↔ ∃ names content, file = Path.descend path names ∧
      t.get? (p ++ names) = some (.file content) := by
  have le := wf.length_le there
  induction depth generalizing way p path with
  | zero => omega
  | succ depth ih =>
    rw [filesBelow_eq_flatMap dangle, List.mem_flatMap]
    constructor
    · rintro ⟨name, -, found⟩
      unfold filesUnder at found
      split at found
      · next below =>
        have below := solid?_directory.1 below
        have longer := length_concat p name
        obtain ⟨names, content, rfl, file⟩ := (ih below (by omega) (wf.length_le below)).1 found
        exact ⟨name :: names, content, rfl, by rwa [List.append_cons]⟩
      · next content below =>
        exact ⟨[name], content, List.mem_singleton.1 found, solid?_file.1 below⟩
      · nomatch found
    · rintro ⟨names, content, rfl, file⟩
      rcases names with _ | ⟨name, rest⟩
      · rw [List.append_nil, there] at file
        nomatch file
      rw [List.append_cons] at file
      rcases rest with _ | ⟨next, rest⟩
      · rw [List.append_nil] at file
        have solid := solid?_file.2 file
        refine ⟨name, (mem_listing wf).2 (by rw [solid]; rfl), ?_⟩
        rw [filesUnder, solid]
        exact .head _
      · have above := file
        rw [List.append_cons] at above
        obtain ⟨m, above⟩ := wf.ancestor above
        have directory := (wf.parent above).2
        have solid := solid?_directory.2 directory
        have longer := length_concat p name
        refine ⟨name, (mem_listing wf).2 (by rw [solid]; rfl), ?_⟩
        rw [filesUnder, solid]
        exact (ih directory (by omega) (wf.length_le directory)).2 ⟨next :: rest, content, rfl, file⟩

theorem segments_of_mem_filesUnder (wf : t.WellFormed) (dangle : t.LinksDangle) (filled : path ≠ "")
    (deep : t.nodes.length < p.length + (depth + 1)) (named : Path.IsName name)
    (found : file ∈ t.filesUnder depth way p path name) :
    ∃ rest, Path.segments file = Path.segments path ++ name :: rest := by
  have first := Path.segments_join named filled
  unfold filesUnder at found
  split at found
  · next below =>
    have below := solid?_directory.1 below
    have longer := length_concat p name
    obtain ⟨names, content, rfl, file⟩ := (mem_filesBelow wf dangle below (by omega)).1 found
    refine ⟨names, ?_⟩
    rw [Path.segments_descend (wf.isName_of_get? file) (Path.join_ne_empty named filled), first,
      List.append_assoc, List.singleton_append]
  · obtain rfl := List.mem_singleton.1 found
    exact ⟨[], first⟩
  · nomatch found

theorem pairwise_filesBelow (wf : t.WellFormed) (dangle : t.LinksDangle) (filled : path ≠ "")
    (there : t.get? p = some .directory) (deep : t.nodes.length < p.length + depth) :
    (t.filesBelow depth way p path).Pairwise fun a b => Path.segments a < Path.segments b := by
  have le := wf.length_le there
  induction depth generalizing way p path with
  | zero => omega
  | succ depth ih =>
    rw [filesBelow_eq_flatMap dangle]
    refine List.pairwise_flatMap.2 ⟨fun name listed => ?_, ?_⟩
    · unfold filesUnder
      split
      · next below =>
        have below := solid?_directory.1 below
        have longer := length_concat p name
        have joined := Path.join_ne_empty (isName_of_mem_listing wf listed) filled
        exact ih joined below (by omega) (wf.length_le below)
      · exact List.pairwise_singleton _ _
      · exact .nil
    -- The first name below the directory decides between files in different parts of it.
    · refine (pairwise_listing wf p).imp_of_mem fun {name name'} listed listed' less f hf g hg => ?_
      obtain ⟨rest, hf⟩ := segments_of_mem_filesUnder wf dangle filled deep
        (isName_of_mem_listing wf listed) hf
      obtain ⟨rest', hg⟩ := segments_of_mem_filesUnder wf dangle filled deep
        (isName_of_mem_listing wf listed') hg
      rw [hf, hg]
      exact List.append_left_lt (List.cons_lt_cons_iff.2 (.inl less))

end Walk

section Directory

variable (wf : t.WellFormed) (dangle : t.LinksDangle) (directory : t.isDirectory base = true)
include wf dangle directory

theorem mem_files {file : String} : file ∈ t.files base ↔ ∃ names, (∀ n ∈ names, Path.IsName n) ∧
    file = Path.descend base names ∧ t.isFile file = true := by
  obtain ⟨p, leads, there⟩ := isDirectory_iff.1 directory
  have filled := dangle.path_ne_empty leads
  have walked : t.files base = t.filesBelow t.maxDepth [p] p base := by rw [files, leads]
  rw [walked, mem_filesBelow wf dangle there (t.lt_maxDepth p)]
  constructor
  · rintro ⟨names, content, rfl, found⟩
    have named := wf.isName_of_get? found
    exact ⟨names, named, rfl, (isFile_descend wf dangle named filled).2 ⟨p, content, leads, found⟩⟩
  · rintro ⟨names, named, rfl, isFile⟩
    obtain ⟨q, content, leads', found⟩ := (isFile_descend wf dangle named filled).1 isFile
    rw [leads] at leads'
    cases leads'
    exact ⟨names, content, rfl, found⟩

theorem pairwise_files :
    (t.files base).Pairwise fun a b => Path.segments a < Path.segments b := by
  obtain ⟨p, leads, there⟩ := isDirectory_iff.1 directory
  have walked : t.files base = t.filesBelow t.maxDepth [p] p base := by rw [files, leads]
  rw [walked]
  exact pairwise_filesBelow wf dangle (dangle.path_ne_empty leads) there (t.lt_maxDepth p)

end Directory

end FileTree

end BlueprintSchema
