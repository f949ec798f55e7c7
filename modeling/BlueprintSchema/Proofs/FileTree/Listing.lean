import BlueprintSchema.FileTree.Walk
import BlueprintSchema.Proofs.FileTree.Resolution
import BlueprintSchema.Proofs.Lists
import Mathlib.Data.List.Induction

/-! What directories list in trees whose links lead nowhere: every directory and file in them, once
each and in the order of the names, and no link. How deep a walk over all files may go does not matter
as long as no place lies deeper. Main statements: `FileTree.mem_listing`, `FileTree.pairwise_listing`
and `FileTree.filesBelow_eq_of_lt`. -/

namespace BlueprintSchema.FileTree

variable {t : FileTree}

def nameIn? (p q : Place) : Option String :=
  match q.getLast? with
  | some name => if q.dropLast = p then some name else none
  | none => none

theorem nameIn?_eq_some_iff {p q : Place} {name : String} :
    nameIn? p q = some name ↔ q = p ++ [name] := by
  rcases List.eq_nil_or_concat q with rfl | ⟨front, last, rfl⟩
  · simp [nameIn?]
  · rw [List.concat_eq_append]
    by_cases above : front = p
    · simp [nameIn?, above]
    · have other : front ++ [last] ≠ p ++ [name] := fun same => above (List.append_inj' same rfl).1
      simp [nameIn?, above, other]

theorem names_eq (t : FileTree) (p : Place) :
    t.names p = (t.nodes.filterMap fun e => nameIn? p e.1).mergeSort fun a b => decide (a ≤ b) :=
  rfl

theorem mem_names {p : Place} {name : String} :
    name ∈ t.names p ↔ ∃ n, (p ++ [name], n) ∈ t.nodes := by
  simp only [names_eq, List.mem_mergeSort, List.mem_filterMap, nameIn?_eq_some_iff]
  constructor
  · rintro ⟨⟨_, n⟩, member, rfl⟩
    exact ⟨n, member⟩
  · rintro ⟨n, member⟩
    exact ⟨_, member, rfl⟩

theorem pairwise_names (wf : t.WellFormed) (p : Place) : (t.names p).Pairwise (· < ·) := by
  rw [names_eq]
  have sorted := @List.pairwise_mergeSort String (fun a b => decide (a ≤ b))
    (by simpa using fun a b c => @String.le_trans a b c)
    (by simpa using fun a b => String.le_total a b) (t.nodes.filterMap fun e => nameIn? p e.1)
  have distinct : (t.nodes.filterMap fun e => nameIn? p e.1).Pairwise (· ≠ ·) := by
    refine List.pairwise_filterMap.2 (wf.unique.imp fun {a b} other name ha name' hb same => ?_)
    rw [nameIn?_eq_some_iff] at ha hb
    exact other (by rw [ha, hb, same])
  have apart := (List.mergeSort_perm (t.nodes.filterMap fun e => nameIn? p e.1)
    fun a b => decide (a ≤ b)).symm.pairwise distinct fun h => h.symm
  refine (sorted.and apart).imp fun {a b} h => ?_
  have le : a ≤ b := by simpa using h.1
  exact String.not_le.1 fun back => h.2 (String.le_antisymm le back)

def listing (t : FileTree) (p : Place) : List String :=
  (t.names p).filter fun name => (t.solid? (p ++ [name])).isSome

theorem pairwise_listing (wf : t.WellFormed) (p : Place) : (t.listing p).Pairwise (· < ·) :=
  (pairwise_names wf p).filter _

theorem mem_listing (wf : t.WellFormed) {p : Place} {name : String} :
    name ∈ t.listing p ↔ (t.solid? (p ++ [name])).isSome := by
  rw [listing, List.mem_filter, mem_names]
  refine ⟨fun h => h.2, fun there => ⟨?_, there⟩⟩
  obtain ⟨n, found⟩ := Option.isSome_iff_exists.1 there
  exact ⟨n, wf.mem_nodes.2 ⟨by simp, get?_of_solid? found⟩⟩

theorem isName_of_mem_listing (wf : t.WellFormed) {p : Place} {name : String}
    (h : name ∈ t.listing p) : Path.IsName name := by
  obtain ⟨n, found⟩ := Option.isSome_iff_exists.1 ((mem_listing wf).1 h)
  exact (wf.parent (get?_of_solid? found)).1

theorem listing_eq_filter {u : FileTree} (wf : t.WellFormed) (wf' : u.WellFormed) {p : Place}
    (keep : String → Bool)
    (h : ∀ name, (u.solid? (p ++ [name])).isSome = ((t.solid? (p ++ [name])).isSome && keep name)) :
    u.listing p = (t.listing p).filter keep := by
  refine eq_of_pairwise_of_mem_iff (fun less more => ?_) (pairwise_listing wf' p)
    ((pairwise_listing wf p).filter keep) fun name => ?_
  · exact String.lt_irrefl _ (String.lt_trans less more)
  · rw [List.mem_filter, mem_listing wf, mem_listing wf', h, Bool.and_eq_true]

section Dangling

variable {way : List Place} {p : Place} {name path : String}

theorem entry?_eq (dangle : t.LinksDangle) :
    t.entry? way p name = (t.solid? (p ++ [name])).map fun n => (p ++ [name], n) := by
  unfold entry? solid?
  cases found : t.get? (p ++ [name]) with
  | none => rfl
  | some n =>
    cases n with
    | directory => rfl
    | file content => rfl
    | link target =>
      have nowhere := dangle p name target found
      cases leads : t.followLinks maxLinks p [name] with
      | error cause => rfl
      | ok q => exact absurd leads (nowhere q)

theorem children_eq (dangle : t.LinksDangle) (h : t.resolve path = .ok p) :
    t.children path = (t.listing p).map (Path.join path) := by
  rw [children, h, listing, ← List.filterMap_eq_filter, List.map_filterMap]
  refine List.filterMap_congr fun name _ => ?_
  rw [entry?_eq dangle]
  cases there : t.solid? (p ++ [name]) <;> simp [Option.guard, there]

theorem filesBelow_succ (dangle : t.LinksDangle) (depth : Nat) :
    t.filesBelow (depth + 1) way p path = (t.listing p).flatMap fun name =>
      match t.solid? (p ++ [name]) with
      | some .directory => t.filesBelow depth ((p ++ [name]) :: way) (p ++ [name]) (Path.join path name)
      | some (.file _) => [Path.join path name]
      | _ => [] := by
  rw [filesBelow, listing]
  simp only [entry?_eq dangle]
  induction t.names p with
  | nil => rfl
  | cons name names ih =>
    rw [List.flatMap_cons, ih]
    rcases t.solid?_cases (p ++ [name]) with h | h | ⟨content, h⟩ <;> simp [h]

end Dangling

section Depth

variable {p q : Place} {n : FileNode}

theorem WellFormed.ancestor (wf : t.WellFormed) (found : t.get? (p ++ q) = some n) :
    ∃ m, t.get? p = some m := by
  induction q using List.reverseRecOn generalizing n with
  | nil => exact ⟨n, List.append_nil p ▸ found⟩
  | append_singleton q name ih =>
    rw [← List.append_assoc] at found
    exact ih (wf.parent found).2

theorem WellFormed.length_le (wf : t.WellFormed) (found : t.get? p = some n) :
    p.length ≤ t.nodes.length := by
  -- The places above it, itself included, are all there and all of different lengths.
  let above := (List.range p.length).map fun k => p.take (k + 1)
  have apart : above.Nodup := by
    refine List.Nodup.map_on (fun i hi j hj same => ?_) List.nodup_range
    have lengths := congrArg List.length same
    rw [List.mem_range] at hi hj
    simp only [List.length_take] at lengths
    omega
  have named : above ⊆ t.nodes.map (·.1) := by
    intro q member
    obtain ⟨k, hk, rfl⟩ := List.mem_map.1 member
    rw [List.mem_range] at hk
    have split : t.get? (p.take (k + 1) ++ p.drop (k + 1)) = some n := by
      rw [List.take_append_drop, found]
    obtain ⟨m, there⟩ := wf.ancestor split
    have filled : p.take (k + 1) ≠ [] := List.ne_nil_of_length_pos (by rw [List.length_take]; omega)
    exact List.mem_map.2 ⟨_, wf.mem_nodes.2 ⟨filled, there⟩, rfl⟩
  have le := apart.length_le_of_subset named
  rwa [List.length_map, List.length_range, List.length_map] at le

theorem lt_maxDepth (t : FileTree) (p : Place) : t.nodes.length < p.length + t.maxDepth := by
  have le : t.nodes.length + 2 ≤ t.maxDepth := Nat.le_mul_of_pos_left _ (by omega)
  omega

theorem filesBelow_eq_of_lt (wf : t.WellFormed) (dangle : t.LinksDangle) {depth depth' : Nat}
    {way way' : List Place} {path : String} (there : t.get? p = some .directory)
    (deep : t.nodes.length < p.length + depth) (deep' : t.nodes.length < p.length + depth') :
    t.filesBelow depth way p path = t.filesBelow depth' way' p path := by
  have le := wf.length_le there
  induction depth generalizing depth' way way' p path with
  | zero => omega
  | succ depth ih =>
    cases depth' with
    | zero => omega
    | succ depth' =>
      rw [filesBelow_succ dangle, filesBelow_succ dangle]
      congr 1
      funext name
      split
      · next below =>
        have found := solid?_directory.1 below
        have longer : (p ++ [name]).length = p.length + 1 := by simp
        exact ih found (by omega) (by omega) (wf.length_le found)
      all_goals rfl

end Depth

section Paths

variable {base path name : String} {p : Place}

theorem isDirectory_iff : t.isDirectory path = true ↔
    ∃ p, t.resolve path = .ok p ∧ t.get? p = some .directory := by
  unfold isDirectory lookup?
  cases leads : t.resolve path with
  | error cause => simp
  | ok p =>
    cases found : t.get? p with
    | none => simp [found]
    | some n => cases n <;> simp [found]

theorem isFile_iff : t.isFile path = true ↔
    ∃ p content, t.resolve path = .ok p ∧ t.get? p = some (.file content) := by
  unfold isFile lookup?
  cases leads : t.resolve path with
  | error cause => simp
  | ok p =>
    cases found : t.get? p with
    | none => simp [found]
    | some n => cases n <;> simp [found]

theorem read_of_file {content : ByteArray} (leads : t.resolve path = .ok p)
    (file : t.get? p = some (.file content)) :
    t.read path = match String.fromUTF8? content with
      | some text => .ok text
      | none => .error .notText := by
  cases decodes : String.fromUTF8? content <;> simp [read, leads, file, decodes, bind, Except.bind]

theorem listed_of_resolve_join (wf : t.WellFormed) (dangle : t.LinksDangle)
    (named : Path.IsName name) (filled : base ≠ "") {q : Place}
    (leads : t.resolve (Path.join base name) = .ok q) : ∃ p, t.resolve base = .ok p ∧
      t.get? p = some .directory ∧ name ∈ t.listing p ∧ q = p ++ [name] := by
  obtain ⟨p, above, rfl, there⟩ := (resolve_join wf dangle named filled).1 leads
  obtain ⟨n, found⟩ := Option.isSome_iff_exists.1 there
  exact ⟨p, above, (wf.parent (get?_of_solid? found)).2, (mem_listing wf).2 there, rfl⟩

theorem isDirectory_of_resolve_join (wf : t.WellFormed) (dangle : t.LinksDangle)
    (named : Path.IsName name) (filled : base ≠ "") {q : Place}
    (leads : t.resolve (Path.join base name) = .ok q) : t.isDirectory base = true := by
  obtain ⟨p, above, found, -⟩ := listed_of_resolve_join wf dangle named filled leads
  exact isDirectory_iff.2 ⟨p, above, found⟩

theorem mem_children (wf : t.WellFormed) (dangle : t.LinksDangle) (filled : base ≠ "")
    {child : String} : child ∈ t.children base ↔
      ∃ name, Path.IsName name ∧ child = Path.join base name ∧ ∃ q, t.resolve child = .ok q := by
  constructor
  · intro member
    cases leads : t.resolve base with
    | error cause => simp [children, leads] at member
    | ok p =>
      rw [children_eq dangle leads] at member
      obtain ⟨name, listed, rfl⟩ := List.mem_map.1 member
      have named := isName_of_mem_listing wf listed
      exact ⟨name, named, rfl, _, (resolve_join wf dangle named filled).2
        ⟨p, leads, rfl, (mem_listing wf).1 listed⟩⟩
  · rintro ⟨name, named, rfl, q, leads⟩
    obtain ⟨p, above, -, listed, -⟩ := listed_of_resolve_join wf dangle named filled leads
    rw [children_eq dangle above]
    exact List.mem_map_of_mem listed

theorem isDirectory_of_mem_children (wf : t.WellFormed) (dangle : t.LinksDangle) {child : String}
    (h : child ∈ t.children path) : t.isDirectory path = true := by
  cases leads : t.resolve path with
  | error cause => simp [children, leads] at h
  | ok p =>
    rw [children_eq dangle leads] at h
    obtain ⟨name, listed, rfl⟩ := List.mem_map.1 h
    obtain ⟨n, found⟩ := Option.isSome_iff_exists.1 ((mem_listing wf).1 listed)
    exact isDirectory_iff.2 ⟨p, leads, (wf.parent (get?_of_solid? found)).2⟩

theorem exists_of_isFile (h : t.isFile path = true) : ∃ q, t.resolve path = .ok q := by
  obtain ⟨q, -, leads, -⟩ := isFile_iff.1 h
  exact ⟨q, leads⟩

theorem exists_of_isDirectory (h : t.isDirectory path = true) : ∃ q, t.resolve path = .ok q := by
  obtain ⟨q, leads, -⟩ := isDirectory_iff.1 h
  exact ⟨q, leads⟩

section Congruence

variable {u : FileTree} (dangle : t.LinksDangle) (dangle' : u.LinksDangle)
  (same : ∀ p, u.solid? p = t.solid? p)
include dangle dangle' same

theorem isDirectory_congr (path : String) : u.isDirectory path = t.isDirectory path := by
  rw [Bool.eq_iff_iff, isDirectory_iff, isDirectory_iff]
  simp only [resolve_congr dangle dangle' same, ← solid?_directory, same]

theorem isFile_congr (path : String) : u.isFile path = t.isFile path := by
  rw [Bool.eq_iff_iff, isFile_iff, isFile_iff]
  simp only [resolve_congr dangle dangle' same, ← solid?_file, same]

end Congruence

end Paths

end BlueprintSchema.FileTree
