import BlueprintSchema.Location
import BlueprintSchema.Proofs.FileTree.Listing
import BlueprintSchema.Proofs.Text.ByteOrder
import Mathlib.Data.List.Lex
import Mathlib.Data.Prod.Lex

/-! Which blueprints are found and in which order. Below a base directory these are exactly the files
that lie as a convention has it, each once, and they come by base, convention, group directory and
file name. So the order in which files were made does not matter, and neither do links that lead
nowhere. Main statement: `Location.conventional_exactly_once`. -/

namespace BlueprintSchema.Location

variable {t : FileTree}

structure NamesBlueprint (file stem : String) : Prop where
  named : Path.IsName file
  split : file = stem ++ "." ++ extension
  visible : file.toList.head? ≠ some '.'

inductive Lies (base : String) : Convention → Location → Prop
  | nested {directory : String} {type : ContentType} {group file stem : String} :
    Path.IsName group → NamesBlueprint file stem →
      Lies base ⟨directory, type, .nested⟩
        ⟨type, Path.join (Path.join (Path.join base directory) group) file, group⟩
  | flat {directory : String} {type : ContentType} {file stem : String} :
    NamesBlueprint file stem →
      Lies base ⟨directory, type, .flat⟩ ⟨type, Path.join (Path.join base directory) file, stem⟩

theorem NamesBlueprint.splitName {file stem : String} (h : NamesBlueprint file stem) :
    Path.splitName file = (stem, some extension) := by
  refine Path.splitName_eq_iff.2 ⟨h.split, ?_, by decide⟩
  rintro rfl
  have hidden := h.visible
  rw [h.split] at hidden
  exact hidden (by decide)

section Names

variable {directory file stem : String}

theorem isBlueprint_join (named : Path.IsName file) (filled : directory ≠ "") :
    isBlueprint (Path.join directory file) = true ↔ ∃ stem, NamesBlueprint file stem := by
  have extension_eq : Path.extension? (Path.join directory file) = (Path.splitName file).2 := by
    rw [Path.extension?, Path.fileName?_join named filled, Option.bind_some]
  have visible : isBlueprint (Path.join directory file) = true ↔
      (Path.splitName file).2 = some extension ∧ file.toList.head? ≠ some '.' := by
    simp [isBlueprint, extension_eq, Path.fileName?_join named filled]
  rw [visible]
  constructor
  · rintro ⟨ends, shown⟩
    have cut : Path.splitName file = ((Path.splitName file).1, some extension) := Prod.ext rfl ends
    exact ⟨_, named, (Path.splitName_eq_iff.1 cut).1, shown⟩
  · rintro ⟨stem, names⟩
    exact ⟨by rw [names.splitName], names.visible⟩

theorem stem?_join (names : NamesBlueprint file stem) (filled : directory ≠ "") :
    Path.stem? (Path.join directory file) = some stem := by
  rw [Path.stem?, Path.fileName?_join names.named filled, Option.map_some, names.splitName]

end Names

section Members

variable {directory base path : String} {l : Location} {c : Convention}

theorem mem_blueprints (wf : t.WellFormed) (dangle : t.LinksDangle) (filled : directory ≠ "") :
    path ∈ blueprints t directory ↔
      ∃ file stem, NamesBlueprint file stem ∧ path = Path.join directory file ∧
        t.isFile path = true := by
  rw [blueprints, List.mem_filter, FileTree.mem_children wf dangle filled, Bool.and_eq_true]
  constructor
  · rintro ⟨⟨file, named, rfl, -⟩, isFile, ends⟩
    obtain ⟨stem, names⟩ := (isBlueprint_join named filled).1 ends
    exact ⟨file, stem, names, rfl, isFile⟩
  · rintro ⟨file, stem, names, rfl, isFile⟩
    have leads := FileTree.exists_of_isFile isFile
    exact ⟨⟨file, names.named, rfl, leads⟩, isFile,
      (isBlueprint_join names.named filled).2 ⟨stem, names⟩⟩

theorem mem_groups (wf : t.WellFormed) (dangle : t.LinksDangle) (filled : directory ≠ "") :
    path ∈ (t.children directory).filter t.isDirectory ↔
      ∃ group, Path.IsName group ∧ path = Path.join directory group ∧ t.isDirectory path = true := by
  rw [List.mem_filter, FileTree.mem_children wf dangle filled]
  constructor
  · rintro ⟨⟨group, named, rfl, -⟩, isDirectory⟩
    exact ⟨group, named, rfl, isDirectory⟩
  · rintro ⟨group, named, rfl, isDirectory⟩
    exact ⟨⟨group, named, rfl, FileTree.exists_of_isDirectory isDirectory⟩, isDirectory⟩

theorem mem_ofConvention_nested (wf : t.WellFormed) (dangle : t.LinksDangle) {type : ContentType}
    (named : Path.IsName directory) (filled : base ≠ "") :
    l ∈ ofConvention t base ⟨directory, type, .nested⟩ ↔
      Lies base ⟨directory, type, .nested⟩ l ∧ t.isFile l.path = true := by
  have below : Path.join base directory ≠ "" := Path.join_ne_empty named filled
  unfold ofConvention
  constructor
  · intro found
    obtain ⟨-, found⟩ := List.mem_ite_nil_right.1 found
    obtain ⟨_, grouped, found⟩ := List.mem_flatMap.1 found
    obtain ⟨group, groupNamed, rfl, -⟩ := (mem_groups wf dangle below).1 grouped
    rw [Path.fileName?_join groupNamed below] at found
    obtain ⟨path, located, rfl⟩ := List.mem_map.1 found
    have inside := Path.join_ne_empty groupNamed below
    obtain ⟨file, stem, names, rfl, isFile⟩ := (mem_blueprints wf dangle inside).1 located
    exact ⟨.nested groupNamed names, isFile⟩
  · rintro ⟨lies, isFile⟩
    cases lies with
    | @nested _ _ group file stem groupNamed names =>
      -- Where the file is, there are the group and the directory of the convention above it.
      have inside := Path.join_ne_empty groupNamed below
      obtain ⟨_, leads⟩ := FileTree.exists_of_isFile isFile
      have isGroup := FileTree.isDirectory_of_resolve_join wf dangle names.named inside leads
      obtain ⟨_, leads⟩ := FileTree.exists_of_isDirectory isGroup
      have isDirectory := FileTree.isDirectory_of_resolve_join wf dangle groupNamed below leads
      refine List.mem_ite_nil_right.2 ⟨isDirectory, List.mem_flatMap.2
        ⟨_, (mem_groups wf dangle below).2 ⟨group, groupNamed, rfl, isGroup⟩, ?_⟩⟩
      rw [Path.fileName?_join groupNamed below]
      exact List.mem_map.2 ⟨_, (mem_blueprints wf dangle inside).2
        ⟨file, stem, names, rfl, isFile⟩, rfl⟩

theorem mem_ofConvention_flat (wf : t.WellFormed) (dangle : t.LinksDangle) {type : ContentType}
    (named : Path.IsName directory) (filled : base ≠ "") :
    l ∈ ofConvention t base ⟨directory, type, .flat⟩ ↔
      Lies base ⟨directory, type, .flat⟩ l ∧ t.isFile l.path = true := by
  have below : Path.join base directory ≠ "" := Path.join_ne_empty named filled
  unfold ofConvention
  constructor
  · intro found
    obtain ⟨-, found⟩ := List.mem_ite_nil_right.1 found
    obtain ⟨_, located, stemmed⟩ := List.mem_filterMap.1 found
    obtain ⟨file, stem, names, rfl, isFile⟩ := (mem_blueprints wf dangle below).1 located
    rw [stem?_join names below] at stemmed
    cases stemmed
    exact ⟨.flat names, isFile⟩
  · rintro ⟨lies, isFile⟩
    cases lies with
    | @flat _ _ file stem names =>
      obtain ⟨_, leads⟩ := FileTree.exists_of_isFile isFile
      have isDirectory := FileTree.isDirectory_of_resolve_join wf dangle names.named below leads
      refine List.mem_ite_nil_right.2 ⟨isDirectory, List.mem_filterMap.2
        ⟨_, (mem_blueprints wf dangle below).2 ⟨file, stem, names, rfl, isFile⟩, ?_⟩⟩
      rw [stem?_join names below]
      rfl

theorem mem_ofConvention (wf : t.WellFormed) (dangle : t.LinksDangle)
    (named : Path.IsName c.directory) (filled : base ≠ "") :
    l ∈ ofConvention t base c ↔ Lies base c l ∧ t.isFile l.path = true := by
  obtain ⟨directory, type, layout⟩ := c
  cases layout with
  | nested => exact mem_ofConvention_nested wf dangle named filled
  | flat => exact mem_ofConvention_flat wf dangle named filled

theorem isName_of_mem_conventions (h : c ∈ conventions) : Path.IsName c.directory :=
  (by decide : ∀ c ∈ conventions, Path.IsName c.directory) c h

theorem mem_ofBase (wf : t.WellFormed) (dangle : t.LinksDangle) : l ∈ ofBase t base ↔
    t.isDirectory base = true ∧ ∃ c ∈ conventions, Lies base c l ∧ t.isFile l.path = true := by
  unfold ofBase
  rw [List.mem_ite_nil_right, List.mem_flatMap]
  refine and_congr_right fun isDirectory => exists_congr fun c => and_congr_right fun convened => ?_
  obtain ⟨_, leads⟩ := FileTree.exists_of_isDirectory isDirectory
  exact mem_ofConvention wf dangle (isName_of_mem_conventions convened) (dangle.path_ne_empty leads)

end Members

def lastName (path : String) : String := (Path.fileName? path).getD ""

def conventionNumber (type : ContentType) : Nat := conventions.findIdx fun c => c.contentType == type

/-- The name of the group's directory; empty where groups are files. -/
def groupDirectory (l : Location) : String :=
  if conventions.any fun c => c.contentType == l.contentType && c.layout == .nested then l.group else ""

def numbered (t : FileTree) (bases : List String) : List (Nat × Location) :=
  bases.zipIdx.flatMap fun (base, i) => (ofBase t base).map (i, ·)

/-- What locations are ordered by: base, convention, group directory and file name. -/
def rank (l : Nat × Location) : Nat × Nat × List UInt8 × List UInt8 :=
  (l.1, conventionNumber l.2.contentType, Text.bytes (groupDirectory l.2),
    Text.bytes (lastName l.2.path))

abbrev Below : Nat × Nat × List UInt8 × List UInt8 → Nat × Nat × List UInt8 × List UInt8 → Prop :=
  Prod.Lex (· < ·) (Prod.Lex (· < ·) (Prod.Lex (· < ·) (· < ·)))

section Order

variable {c : Convention} {l : Location} {i : Nat}

theorem groupDirectory_of_nested (h : c ∈ conventions) (nested : c.layout = .nested)
    (same : l.contentType = c.contentType) : groupDirectory l = l.group := by
  refine if_pos (List.any_eq_true.2 ⟨c, h, ?_⟩)
  rw [same, nested]
  simp

theorem groupDirectory_of_flat (h : c ∈ conventions) (flat : c.layout = .flat)
    (same : l.contentType = c.contentType) : groupDirectory l = "" := by
  have unnested : ∀ c ∈ conventions, c.layout = .flat →
      ¬ conventions.any (fun d => d.contentType == c.contentType && d.layout == .nested) := by decide
  rw [groupDirectory, same]
  exact if_neg (unnested c h flat)

theorem pairwise_children (wf : t.WellFormed) (dangle : t.LinksDangle) (directory : String) :
    (t.children directory).Pairwise fun a b => Text.bytes (lastName a) < Text.bytes (lastName b) := by
  cases leads : t.resolve directory with
  | error cause => simp [FileTree.children, leads]
  | ok p =>
    have filled := dangle.path_ne_empty leads
    rw [FileTree.children_eq dangle leads, List.pairwise_map]
    refine (FileTree.pairwise_listing wf p).imp_of_mem fun {a b} ha hb less => ?_
    rw [lastName, lastName, Path.fileName?_join (FileTree.isName_of_mem_listing wf ha) filled,
      Path.fileName?_join (FileTree.isName_of_mem_listing wf hb) filled]
    exact Text.lt_iff_bytes_lt.1 less

theorem of_mem_ofConvention {base : String} (h : l ∈ ofConvention t base c) :
    l.contentType = c.contentType ∧ isBlueprint l.path = true ∧ t.isFile l.path = true := by
  have shaped : ∀ {directory path}, path ∈ blueprints t directory →
      isBlueprint path = true ∧ t.isFile path = true := by
    intro directory path member
    have kept := (List.mem_filter.1 member).2
    rw [Bool.and_eq_true] at kept
    exact kept.symm
  unfold ofConvention at h
  obtain ⟨-, h⟩ := List.mem_ite_nil_right.1 h
  split at h
  · obtain ⟨group, -, h⟩ := List.mem_flatMap.1 h
    split at h
    · obtain ⟨path, member, rfl⟩ := List.mem_map.1 h
      exact ⟨rfl, shaped member⟩
    · nomatch h
  · obtain ⟨path, member, h⟩ := List.mem_filterMap.1 h
    obtain ⟨stem, -, rfl⟩ := Option.map_eq_some_iff.1 h
    exact ⟨rfl, shaped member⟩

theorem pairwise_ofConvention (wf : t.WellFormed) (dangle : t.LinksDangle) (convened : c ∈ conventions)
    (base : String) :
    (ofConvention t base c).Pairwise fun l m => Below (rank (i, l)) (rank (i, m)) := by
  have sorted := fun directory => (pairwise_children wf dangle directory).filter
  unfold ofConvention
  simp only
  split
  · split
    · next nested =>
      have directory := fun l => @groupDirectory_of_nested c l convened nested
      -- Inside a group the file names decide, between groups the names of their directories.
      refine List.pairwise_flatMap.2 ⟨fun group grouped => ?_, ?_⟩
      · split
        · refine List.pairwise_map.2 ((sorted group _).imp fun less => ?_)
          refine .right _ (.right _ ?_)
          rw [directory _ rfl, directory _ rfl]
          exact .right _ less
        · exact .nil
      · refine (sorted _ _).imp fun {g g'} less l hl m hm => ?_
        split at hl
        · next name last =>
          split at hm
          · next name' last' =>
            obtain ⟨path, -, rfl⟩ := List.mem_map.1 hl
            obtain ⟨path', -, rfl⟩ := List.mem_map.1 hm
            rw [lastName, lastName, last, last'] at less
            refine .right _ (.right _ ?_)
            rw [directory _ rfl, directory _ rfl]
            exact .left _ _ less
          · nomatch hm
        · nomatch hl
    · next flat =>
      have directory := fun l => @groupDirectory_of_flat c l convened flat
      refine List.pairwise_filterMap.2 ((sorted _ _).imp fun {a b} less l hl m hm => ?_)
      obtain ⟨stem, -, rfl⟩ := Option.map_eq_some_iff.1 hl
      obtain ⟨stem', -, rfl⟩ := Option.map_eq_some_iff.1 hm
      refine .right _ (.right _ ?_)
      rw [directory _ rfl, directory _ rfl]
      exact .right _ less
  · exact .nil

theorem pairwise_ofBase (wf : t.WellFormed) (dangle : t.LinksDangle) (i : Nat) (base : String) :
    (ofBase t base).Pairwise fun l m => Below (rank (i, l)) (rank (i, m)) := by
  have increasing : conventions.Pairwise fun c d =>
      conventionNumber c.contentType < conventionNumber d.contentType := by decide
  unfold ofBase
  split
  · refine List.pairwise_flatMap.2 ⟨fun c convened => pairwise_ofConvention wf dangle convened base, ?_⟩
    refine increasing.imp fun less l hl m hm => .right _ (.left _ _ ?_)
    rwa [(of_mem_ofConvention hl).1, (of_mem_ofConvention hm).1]
  · exact .nil

theorem pairwise_numbered (wf : t.WellFormed) (dangle : t.LinksDangle) (bases : List String) :
    (numbered t bases).Pairwise fun l m => Below (rank l) (rank m) := by
  refine List.pairwise_flatMap.2 ⟨fun (base, i) _ => ?_, ?_⟩
  · exact List.pairwise_map.2 (pairwise_ofBase wf dangle i base)
  · refine (pairwise_zipIdx bases).imp fun less l hl m hm => .left _ _ ?_
    obtain ⟨l, -, rfl⟩ := List.mem_map.1 hl
    obtain ⟨m, -, rfl⟩ := List.mem_map.1 hm
    exact less

theorem mem_numbered (wf : t.WellFormed) (dangle : t.LinksDangle) {bases : List String} :
    (i, l) ∈ numbered t bases ↔ ∃ base, bases[i]? = some base ∧ t.isDirectory base = true ∧
      ∃ c ∈ conventions, Lies base c l ∧ t.isFile l.path = true := by
  rw [numbered, List.mem_flatMap]
  constructor
  · rintro ⟨⟨base, j⟩, member, found⟩
    obtain ⟨l, located, ⟨⟩⟩ := List.mem_map.1 found
    exact ⟨base, List.mem_zipIdx_iff_getElem?.1 member, (mem_ofBase wf dangle).1 located⟩
  · rintro ⟨base, there, located⟩
    exact ⟨(base, i), List.mem_zipIdx_iff_getElem?.2 there,
      List.mem_map.2 ⟨l, (mem_ofBase wf dangle).2 located, rfl⟩⟩

theorem map_numbered (t : FileTree) (bases : List String) :
    (numbered t bases).map Prod.snd = all t bases := by
  rw [numbered, all, List.map_flatMap]
  simp only [List.map_map, Function.comp_def, List.map_id']
  exact flatMap_zipIdx bases (ofBase t)

theorem numbered_congr {u : FileTree} (wf : t.WellFormed) (dangle : t.LinksDangle)
    (wf' : u.WellFormed) (dangle' : u.LinksDangle) (same : ∀ p, u.solid? p = t.solid? p)
    (bases : List String) : numbered u bases = numbered t bases := by
  refine eq_of_pairwise_of_mem_iff (fun less => Std.Asymm.asymm (r := Below) _ _ less)
    (pairwise_numbered wf' dangle' bases) (pairwise_numbered wf dangle bases) fun (i, l) => ?_
  simp only [mem_numbered wf dangle, mem_numbered wf' dangle',
    FileTree.isDirectory_congr dangle dangle' same, FileTree.isFile_congr dangle dangle' same]

end Order

/-- Exactly the conventional blueprints are found below each base, once and in one order, whatever the
order in which the tree holds them and whatever links that lead nowhere it holds besides. -/
theorem conventional_exactly_once (wf : t.WellFormed) (dangle : t.LinksDangle) (bases : List String) :
    (∀ i l, (i, l) ∈ numbered t bases ↔ ∃ base, bases[i]? = some base ∧ t.isDirectory base = true ∧
      ∃ c ∈ conventions, Lies base c l ∧ t.isFile l.path = true) ∧
    (numbered t bases).map Prod.snd = all t bases ∧
    (numbered t bases).Nodup ∧
    (numbered t bases).Pairwise (fun l m => Below (rank l) (rank m)) ∧
    ∀ u : FileTree, u.WellFormed → u.LinksDangle → (∀ p, u.solid? p = t.solid? p) →
      all u bases = all t bases := by
  have sorted := pairwise_numbered wf dangle bases
  refine ⟨fun i l => mem_numbered wf dangle, map_numbered t bases, ?_, sorted, ?_⟩
  · refine sorted.imp fun {l m} less same => ?_
    exact Std.Irrefl.irrefl (r := Below) (rank m) (same ▸ less)
  · intro u wf' dangle' same
    rw [← map_numbered u, ← map_numbered t, numbered_congr wf dangle wf' dangle' same]

/-- A tree with two groups, a hidden file, a file of another kind, a directory named like a blueprint,
and a link that leads nowhere. -/
def twoGroups : FileTree :=
  ⟨[(["site"], .directory), (["site", "globals"], .directory),
    (["site", "globals", "seo.v2.yaml"], .file .empty), (["site", "collections"], .directory),
    (["site", "collections", "pages"], .directory), (["site", "collections", "blog"], .directory),
    (["site", "collections", "stray.yaml"], .file .empty),
    (["site", "collections", "pages", "home.yaml"], .file .empty),
    (["site", "collections", "blog", "post.yaml"], .file .empty),
    (["site", "collections", "blog", "lost.yaml"], .link "nowhere.yaml"),
    (["site", "collections", "blog", ".draft.yaml"], .file .empty),
    (["site", "collections", "blog", "note.yml"], .file .empty),
    (["site", "collections", "blog", "dir.yaml"], .directory)]⟩

theorem twoGroups_post_found :
    (1, ⟨.entry, "site/collections/blog/post.yaml", "blog"⟩) ∈ numbered twoGroups ["missing", "site"] ∧
    (∀ i l, (i, l) ∈ numbered twoGroups ["missing", "site"] →
      l.path ∉ ["site/collections/blog/lost.yaml", "site/collections/blog/dir.yaml"]) ∧
    all ⟨twoGroups.nodes.reverse⟩ ["site"] = all twoGroups ["site"] := by
  have wf : twoGroups.WellFormed := by decide +kernel
  have wf' : (⟨twoGroups.nodes.reverse⟩ : FileTree).WellFormed := by decide +kernel
  have dangle := wf.linksDangle (by decide +kernel)
  have dangle' := wf'.linksDangle (by decide +kernel)
  obtain ⟨exactly, -⟩ := conventional_exactly_once wf dangle ["missing", "site"]
  obtain ⟨-, -, -, -, unordered⟩ := conventional_exactly_once wf dangle ["site"]
  refine ⟨(exactly _ _).2 ⟨"site", rfl, by decide +kernel, conventions[0], by simp, ?_, ?_⟩, ?_, ?_⟩
  · have names : NamesBlueprint "post.yaml" "post" := ⟨by decide, rfl, by decide⟩
    exact .nested (by decide : Path.IsName "blog") names
  · decide +kernel
  · intro i l found
    obtain ⟨_, _, _, _, _, _, isFile⟩ := (exactly i l).1 found
    have nowhere : ∀ path ∈ ["site/collections/blog/lost.yaml", "site/collections/blog/dir.yaml"],
        twoGroups.isFile path = false := by decide +kernel
    intro listed
    rw [nowhere _ listed] at isFile
    nomatch isFile
  · refine unordered _ wf' dangle' fun p => ?_
    have same := wf.get?_of_perm wf' (List.reverse_perm _) p
    rw [FileTree.solid?, FileTree.solid?, same]

end BlueprintSchema.Location
