import BlueprintSchema.Proofs.Isolation
import Mathlib.Data.List.Flatten

/-! Two trees of files without links, seen through one configuration. What is discovered for a content
type depends only on files within reach: the blueprints below the directories of its convention and, for
entries, the scripts under the scan paths. Where the other tree has each of these files with the same
content, it gives all that is discovered, in the same order. Main statement:
`Config.discovered_sublist`. -/

namespace BlueprintSchema

namespace FileTree

variable {t u : FileTree} {path : String} {content : ByteArray}

/-- If a path leads to a file, it leads to one with the same content in the other tree. -/
def Keeps (t u : FileTree) (path : String) : Prop :=
  ∀ content, t.lookup? path = some (.file content) → u.lookup? path = some (.file content)

theorem lookup?_eq_some_iff {n : FileNode} :
    t.lookup? path = some n ↔ ∃ p, t.resolve path = .ok p ∧ t.get? p = some n := by
  unfold FileTree.lookup?
  cases t.resolve path <;> simp

theorem isFile_iff_lookup? :
    t.isFile path = true ↔ ∃ content, t.lookup? path = some (.file content) := by
  unfold isFile
  split
  · next content found => simp [found]
  · next noFile => simpa using noFile

theorem Keeps.isFile (h : t.Keeps u path) (file : t.isFile path = true) : u.isFile path = true := by
  obtain ⟨content, found⟩ := isFile_iff_lookup?.1 file
  exact isFile_iff_lookup?.2 ⟨content, h content found⟩

theorem read_of_lookup? (file : t.lookup? path = some (.file content)) :
    t.read path = match String.fromUTF8? content with
      | some text => .ok text
      | none => .error .notText := by
  obtain ⟨p, leads, found⟩ := lookup?_eq_some_iff.1 file
  exact read_of_file leads found

theorem Keeps.read (h : t.Keeps u path) (file : t.isFile path = true) : t.read path = u.read path := by
  obtain ⟨content, found⟩ := isFile_iff_lookup?.1 file
  rw [read_of_lookup? found, read_of_lookup? (h content found)]

theorem contains_of_isFile (file : t.isFile path = true) : t.contains path = true := by
  obtain ⟨content, found⟩ := isFile_iff_lookup?.1 file
  rw [contains, found]
  rfl

end FileTree

open FileTree

variable {t u : FileTree} {path : String}

theorem Blueprint.fields_of_keeps (h : t.Keeps u path) (file : t.isFile path = true) :
    fields t path = fields u path := by
  rw [fields, fields, load, load, contains_of_isFile file, contains_of_isFile (h.isFile file),
    h.read file]

theorem ComputedField.registered_of_keeps (h : t.Keeps u path) (file : t.isFile path = true) :
    registered t path = registered u path := by
  rw [registered, registered, ofFile, ofFile, h.read file]

/-- The paths on which a configuration looks for blueprints of a content type: they go down by names
from the directory of its convention below a base directory. Entries are also looked for in scripts, on
the scan paths and below them. -/
inductive Config.Reaches (c : Config) : ContentType → String → Prop
  | blueprint {base : String} {k : Convention} {names : List String} : base ∈ c.blueprintPaths →
    k ∈ Location.conventions → names ≠ [] → (∀ n ∈ names, Path.IsName n) →
      Location.isBlueprint (Path.descend (Path.join base k.directory) names) = true →
        Reaches c k.contentType (Path.descend (Path.join base k.directory) names)
  | script {root : String} {names : List String} : root ∈ c.scanPaths →
    (∀ n ∈ names, Path.IsName n) → ComputedField.isScript (Path.descend root names) = true →
      Reaches c .entry (Path.descend root names)

namespace Location

variable {base : String} {k : Convention} {l : Location}

theorem Lies.exists_names (lies : Lies base k l) (named : Path.IsName k.directory)
    (filled : base ≠ "") : l.contentType = k.contentType ∧ isBlueprint l.path = true ∧
      ∃ names, names ≠ [] ∧ (∀ n ∈ names, Path.IsName n) ∧
        l.path = Path.descend (Path.join base k.directory) names := by
  have below := Path.join_ne_empty named filled
  cases lies with
  | @nested directory type group file stem groupNamed names =>
    have inside := Path.join_ne_empty groupNamed below
    exact ⟨rfl, (isBlueprint_join names.named inside).2 ⟨stem, names⟩, [group, file], by simp,
      by simp [groupNamed, names.named], rfl⟩
  | @flat directory type file stem names =>
    exact ⟨rfl, (isBlueprint_join names.named below).2 ⟨stem, names⟩, [file], by simp,
      by simp [names.named], rfl⟩

end Location

section Trees

variable {c : Config} {type : ContentType}

theorem Location.reaches_of_mem_numbered {i : Nat} {l : Location} (wf : t.WellFormed)
    (free : t.LinkFree) (located : (i, l) ∈ numbered t c.blueprintPaths) :
    c.Reaches l.contentType l.path ∧ t.isFile l.path = true := by
  obtain ⟨base, given, directory, k, convened, lies, file⟩ :=
    (mem_numbered wf free.linksDangle).1 located
  obtain ⟨_, leads⟩ := exists_of_isDirectory directory
  obtain ⟨same, ends, names, some, named, path⟩ := lies.exists_names
    (isName_of_mem_conventions convened) (free.linksDangle.path_ne_empty leads)
  refine ⟨?_, file⟩
  rw [path] at ends
  rw [same, path]
  exact .blueprint (List.mem_of_getElem? given) convened some named ends

theorem Location.reaches_of_mem_ofType {l : Location} (wf : t.WellFormed) (free : t.LinkFree)
    (found : l ∈ ofType t c.blueprintPaths type) : c.Reaches type l.path ∧ t.isFile l.path = true := by
  obtain ⟨listed, typed⟩ := List.mem_filter.1 found
  rw [← map_numbered] at listed
  obtain ⟨⟨i, l⟩, located, rfl⟩ := List.mem_map.1 listed
  obtain rfl : l.contentType = type := by simpa using typed
  exact reaches_of_mem_numbered wf free located

theorem ComputedField.reaches_of_mem_scripts {root : String} (wf : t.WellFormed)
    (free : t.LinkFree) (given : root ∈ c.scanPaths) (found : path ∈ scripts t root) :
    c.Reaches .entry path ∧ t.isFile path = true := by
  have filled : root ≠ "" := by
    rintro rfl
    rw [scripts_empty] at found
    nomatch found
  obtain ⟨script, file, names, named, rfl⟩ := (mem_scripts wf free.linksDangle filled).1 found
  exact ⟨.script given named script, file⟩

variable (wf : t.WellFormed) (free : t.LinkFree) (wf' : u.WellFormed) (free' : u.LinkFree)
include wf free wf' free'

theorem Location.ofType_sublist (keeps : ∀ path, c.Reaches type path → t.Keeps u path) :
    (ofType t c.blueprintPaths type).Sublist (ofType u c.blueprintPaths type) := by
  rw [ofType, ofType, ← map_numbered, ← map_numbered, List.filter_map, List.filter_map]
  refine (sublist_of_pairwise_of_subset (fun less => Std.Asymm.asymm (r := Below) _ _ less)
    ((pairwise_numbered wf free.linksDangle _).filter _)
    ((pairwise_numbered wf' free'.linksDangle _).filter _) ?_).map _
  rintro ⟨i, l⟩ member
  obtain ⟨located, typed⟩ := List.mem_filter.1 member
  obtain ⟨reached, file⟩ := reaches_of_mem_numbered wf free located
  obtain rfl : l.contentType = type := by simpa using typed
  have file' := (keeps _ reached).isFile file
  -- The base directory is one as soon as the file lies below it.
  obtain ⟨base, given, directory, k, convened, lies, -⟩ :=
    (mem_numbered wf free.linksDangle).1 located
  obtain ⟨_, leads⟩ := exists_of_isDirectory directory
  have filled := free.linksDangle.path_ne_empty leads
  have convention := isName_of_mem_conventions convened
  obtain ⟨-, -, names, -, named, path⟩ := lies.exists_names convention filled
  have directory' : u.isDirectory base = true := by
    refine isDirectory_of_isFile_descend wf' free'.linksDangle
      (List.forall_mem_cons.2 ⟨convention, named⟩) filled (List.cons_ne_nil _ _) ?_
    rw [path] at file'
    exact file'
  exact List.mem_filter.2 ⟨(mem_numbered wf' free'.linksDangle).2
    ⟨base, given, directory', k, convened, lies, file'⟩, typed⟩

theorem ComputedField.scripts_sublist {root : String} (given : root ∈ c.scanPaths)
    (keeps : ∀ path, c.Reaches .entry path → t.Keeps u path) :
    (scripts t root).Sublist (scripts u root) := by
  by_cases empty : root = ""
  · rw [empty, scripts_empty, scripts_empty]
  · refine sublist_of_pairwise_of_subset (fun less => Std.Asymm.asymm _ _ less)
      (pairwise_scripts wf free.linksDangle root) (pairwise_scripts wf' free'.linksDangle root) ?_
    intro path found
    obtain ⟨reached, file⟩ := reaches_of_mem_scripts wf free given found
    obtain ⟨script, -, below⟩ := (mem_scripts wf free.linksDangle empty).1 found
    exact (mem_scripts wf' free'.linksDangle empty).2
      ⟨script, (keeps path reached).isFile file, below⟩

theorem ComputedField.discover_sublist (keeps : ∀ path, c.Reaches .entry path → t.Keeps u path) :
    (discover t c.scanPaths).Sublist (discover u c.scanPaths) := by
  have same : discover t c.scanPaths =
      (c.scanPaths.flatMap (scripts t)).flatMap (registered u) := by
    rw [discover_eq]
    refine List.flatMap_congr fun path found => ?_
    obtain ⟨root, given, found⟩ := List.mem_flatMap.1 found
    obtain ⟨reached, file⟩ := reaches_of_mem_scripts wf free given found
    exact registered_of_keeps (keeps path reached) file
  rw [same, discover_eq]
  exact (List.Sublist.flatMap_right _ fun root given =>
    scripts_sublist wf free wf' free' given keeps).flatMap _

theorem Config.discovered_sublist (keeps : ∀ path, c.Reaches type path → t.Keeps u path) :
    (c.discovered t type).Sublist (c.discovered u type) := by
  have same : (Location.ofType t c.blueprintPaths type).flatMap (fun l => Blueprint.fields t l.path) =
      (Location.ofType t c.blueprintPaths type).flatMap fun l => Blueprint.fields u l.path := by
    refine List.flatMap_congr fun l found => ?_
    obtain ⟨reached, file⟩ := Location.reaches_of_mem_ofType wf free found
    exact Blueprint.fields_of_keeps (keeps _ reached) file
  rw [discovered, discovered, same]
  refine ((Location.ofType_sublist wf free wf' free' keeps).flatMap _).append ?_
  split
  · next entry =>
    subst entry
    exact ComputedField.discover_sublist wf free wf' free' keeps
  · exact .slnil

end Trees

end BlueprintSchema
