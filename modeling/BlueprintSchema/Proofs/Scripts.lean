import BlueprintSchema.ComputedField
import BlueprintSchema.Proofs.FileTree.Files
import BlueprintSchema.Proofs.Text.ByteOrder

/-! The scripts that a scan path names, in trees whose links lead nowhere: the files with the extension
of scripts to which the path leads, or names joined to it, each once and in the order that compares
paths name by name. Scanning paths is scanning what these files hold, path after path. Main statements:
`ComputedField.mem_scripts`, `ComputedField.pairwise_scripts` and `ComputedField.scan_concatenates`. -/

namespace BlueprintSchema.ComputedField

open FileTree

variable {t : FileTree} {root path : String}

def registered (t : FileTree) (path : String) : List Field :=
  match ofFile t path with
  | .ok fs => fs
  | .error _ => []

theorem discover_eq (t : FileTree) (paths : List String) :
    discover t paths = (paths.flatMap (scripts t)).flatMap (registered t) :=
  rfl

theorem scripts_empty (t : FileTree) : scripts t "" = [] :=
  rfl

theorem not_isFile_of_isDirectory (h : t.isDirectory path = true) : t.isFile path = false := by
  obtain ⟨p, leads, found⟩ := isDirectory_iff.1 h
  simp [isFile, lookup?, leads, found]

theorem mem_scripts (wf : t.WellFormed) (dangle : t.LinksDangle) (filled : root ≠ "") :
    path ∈ scripts t root ↔ isScript path = true ∧ t.isFile path = true ∧
      ∃ names, (∀ n ∈ names, Path.IsName n) ∧ path = Path.descend root names := by
  unfold scripts
  cases isFile : t.isFile root with
  | true =>
    rw [if_pos rfl, List.mem_filter, List.mem_singleton]
    constructor
    · rintro ⟨rfl, script⟩
      exact ⟨script, isFile, [], by simp, rfl⟩
    · rintro ⟨script, there, names, named, rfl⟩
      by_cases none : names = []
      · rw [none] at script ⊢
        exact ⟨rfl, script⟩
      · have directory := isDirectory_of_isFile_descend wf dangle named filled none there
        rw [not_isFile_of_isDirectory directory] at isFile
        nomatch isFile
  | false =>
    rw [if_neg Bool.false_ne_true]
    cases directory : t.isDirectory root with
    | true =>
      rw [if_pos rfl, List.mem_filter, mem_files wf dangle directory]
      constructor
      · rintro ⟨⟨names, named, same, there⟩, script⟩
        exact ⟨script, there, names, named, same⟩
      · rintro ⟨script, there, names, named, same⟩
        exact ⟨⟨names, named, same, there⟩, script⟩
    | false =>
      rw [if_neg Bool.false_ne_true]
      constructor
      · nofun
      · rintro ⟨-, there, names, named, rfl⟩
        by_cases none : names = []
        · rw [none, Path.descend, List.foldl_nil, isFile] at there
          nomatch there
        · rw [isDirectory_of_isFile_descend wf dangle named filled none there] at directory
          nomatch directory

theorem pairwise_scripts (wf : t.WellFormed) (dangle : t.LinksDangle) (root : String) :
    (scripts t root).Pairwise fun a b => Path.segments a < Path.segments b := by
  unfold scripts
  split
  · exact (List.pairwise_singleton _ root).filter _
  · split
    · next directory => exact (pairwise_files wf dangle directory).filter _
    · exact .nil

/-- The fields that the script in a file registers; none if it is no text or has a syntax error. -/
def ofContent (content : ByteArray) : List Field :=
  match String.fromUTF8? content with
  | some source =>
    match ofSource source with
    | .ok fs => fs
    | .error _ => []
  | none => []

theorem registered_of_file {p : Place} {content : ByteArray} (leads : t.resolve path = .ok p)
    (file : t.get? p = some (.file content)) : registered t path = ofContent content := by
  have reads := read_of_file leads file
  unfold registered ofFile ofContent ofSource ofScript
  cases decodes : String.fromUTF8? content with
  | none => simp [reads, decodes]
  | some source =>
    -- The two errors differ in the path alone.
    by_cases mentioned : Text.occursIn registrationMethod.toList source.toList = true
    · cases parses : Script.parse? source <;> simp [reads, decodes, mentioned, parses]
    · simp [reads, decodes, mentioned]

theorem isScript_iff : isScript path = true ↔ Path.extension? path = some "php" := by
  rw [isScript, beq_iff_eq, extension]

/-- A script below a scan path, by the names that lead down to it and by what it holds. -/
def source (t : FileTree) (root path : String) : List String × ByteArray :=
  ((Path.segments path).drop (Path.segments root).length,
    match t.lookup? path with
    | some (.file content) => content
    | _ => .empty)

def sources (t : FileTree) (root : String) : List (List String × ByteArray) :=
  (scripts t root).map (source t root)

theorem source_eq {p : Place} {names : List String} {content : ByteArray} (filled : root ≠ "")
    (named : ∀ n ∈ names, Path.IsName n) (leads : t.resolve (Path.descend root names) = .ok p)
    (file : t.get? p = some (.file content)) :
    source t root (Path.descend root names) = (names, content) := by
  rw [source, Path.segments_descend named filled, List.drop_left]
  simp [lookup?, leads, file]

section Sources

variable (wf : t.WellFormed) (dangle : t.LinksDangle)
include wf dangle

theorem source_of_mem_scripts (h : path ∈ scripts t root) : ∃ p,
    path = Path.descend root (source t root path).1 ∧ t.resolve root = .ok p ∧
    t.resolve path = .ok (p ++ (source t root path).1) ∧
    t.get? (p ++ (source t root path).1) = some (.file (source t root path).2) := by
  have filled : root ≠ "" := by
    rintro rfl
    nomatch h
  obtain ⟨script, isFile, names, named, rfl⟩ := (mem_scripts wf dangle filled).1 h
  obtain ⟨p, content, leads, file⟩ := (isFile_descend wf dangle named filled).1 isFile
  have reached := (resolve_descend wf dangle named filled).2
    ⟨p, leads, rfl, by rw [solid?_file.2 file]; rfl⟩
  refine ⟨p, ?_⟩
  rw [source_eq filled named reached file]
  exact ⟨rfl, leads, reached, file⟩

theorem mem_sources {names : List String} {content : ByteArray} : (names, content) ∈ sources t root ↔
    Path.extension? (Path.descend root names) = some "php" ∧
    ∃ p, t.resolve root = .ok p ∧ t.get? (p ++ names) = some (.file content) := by
  rw [sources, List.mem_map]
  constructor
  · rintro ⟨path, member, same⟩
    obtain ⟨p, down, leads, -, file⟩ := source_of_mem_scripts wf dangle member
    rw [same] at down file
    have filled := dangle.path_ne_empty leads
    have script := ((mem_scripts wf dangle filled).1 member).1
    exact ⟨isScript_iff.1 (down ▸ script), p, leads, file⟩
  · rintro ⟨script, p, leads, file⟩
    have named := wf.isName_of_get? file
    have filled := dangle.path_ne_empty leads
    have isFile := (isFile_descend wf dangle named filled).2 ⟨p, content, leads, file⟩
    have reached := (resolve_descend wf dangle named filled).2
      ⟨p, leads, rfl, by rw [solid?_file.2 file]; rfl⟩
    exact ⟨_, (mem_scripts wf dangle filled).2 ⟨isScript_iff.2 script, isFile, names, named, rfl⟩,
      source_eq filled named reached file⟩

theorem pairwise_sources (root : String) : (sources t root).Pairwise fun a b =>
    (Path.segments (Path.descend root a.1)).map Text.bytes <
      (Path.segments (Path.descend root b.1)).map Text.bytes := by
  refine List.pairwise_map.2 ?_
  refine (pairwise_scripts wf dangle root).imp_of_mem fun {path path'} member member' less => ?_
  obtain ⟨_, down, -⟩ := source_of_mem_scripts wf dangle member
  obtain ⟨_, down', -⟩ := source_of_mem_scripts wf dangle member'
  rw [← down, ← down']
  exact Text.map_bytes_lt less

theorem flatMap_sources (root : String) :
    (sources t root).flatMap (fun e => ofContent e.2) = (scripts t root).flatMap (registered t) := by
  rw [sources, List.flatMap_map]
  refine List.flatMap_congr fun path member => ?_
  obtain ⟨p, -, -, leads, file⟩ := source_of_mem_scripts wf dangle member
  exact (registered_of_file leads file).symm

end Sources

/-- Scanning paths is scanning what the scripts hold to which they lead: path after path, and under each
path every script once, in the order that compares paths name by name and names by their bytes. -/
theorem scan_concatenates (wf : t.WellFormed) (free : t.LinkFree) (paths : List String) :
    ((Scanner.mk paths none).scan t).1 =
      paths.flatMap (fun root => (sources t root).flatMap fun e => ofContent e.2) ∧
    ∀ root,
      (∀ names content, (names, content) ∈ sources t root ↔
        Path.extension? (Path.descend root names) = some "php" ∧
        ∃ p, t.resolve root = .ok p ∧ t.get? (p ++ names) = some (.file content)) ∧
      (sources t root).Pairwise fun a b =>
        (Path.segments (Path.descend root a.1)).map Text.bytes <
          (Path.segments (Path.descend root b.1)).map Text.bytes := by
  have dangle := free.linksDangle
  refine ⟨?_, fun root => ⟨fun names content => mem_sources wf dangle, pairwise_sources wf dangle root⟩⟩
  have fields : ((Scanner.mk paths none).scan t).1 = discover t paths := rfl
  rw [fields, discover_eq, List.flatMap_assoc]
  simp only [flatMap_sources wf dangle]

/-- A tree with scripts beside and in a directory of nearly one name, one of them hidden, one with a
syntax error, and a file with another extension. -/
def scriptTree : FileTree :=
  ⟨[(["app"], .directory), (["app", "a.php"], .file "<?php Collection::computed('x', 'beside');".toUTF8),
    (["app", "a"], .directory),
    (["app", "a", "b.php"], .file "<?php Collection::computed('x', 'inside');".toUTF8),
    (["app", ".h.php"], .file "<?php Collection::computed('x', 'hidden');".toUTF8),
    (["app", "bad.php"], .file "<?php Collection::computed('x', 'bad'".toUTF8),
    (["app", "c.PHP"], .file "<?php Collection::computed('x', 'loud');".toUTF8)]⟩

theorem scriptTree_scanned :
    (scriptTree.WellFormed ∧ scriptTree.LinkFree) ∧
    (["a", "b.php"], "<?php Collection::computed('x', 'inside');".toUTF8) ∈ sources scriptTree "app" ∧
    ([".h.php"], "<?php Collection::computed('x', 'hidden');".toUTF8) ∈ sources scriptTree "app" ∧
    (∀ content, (["c.PHP"], content) ∉ sources scriptTree "app") ∧
    (∃ f ∈ ((Scanner.mk ["nowhere", "app"] none).scan scriptTree).1, f.handle = "hidden") ∧
    (((Scanner.mk ["app/a.php", "app/bad.php", "app/./a.php"] none).scan scriptTree).1).map
      Field.handle = ["beside", "beside"] := by
  have wf : scriptTree.WellFormed := by decide +kernel
  have free : scriptTree.LinkFree := wf.linkFree (by decide +kernel)
  obtain ⟨directory, found⟩ := scan_concatenates wf free ["nowhere", "app"]
  obtain ⟨files, -⟩ := scan_concatenates wf free ["app/a.php", "app/bad.php", "app/./a.php"]
  have inside := ((found "app").1 ["a", "b.php"] _).2 ⟨by decide +kernel, ["app"], rfl, rfl⟩
  have hidden := ((found "app").1 [".h.php"] _).2 ⟨by decide +kernel, ["app"], rfl, rfl⟩
  refine ⟨⟨wf, free⟩, inside, hidden, fun content member => ?_, ?_, ?_⟩
  · exact absurd (((found "app").1 _ _).1 member).1 (by decide +kernel)
  · have registers : "hidden" ∈
        (ofContent "<?php Collection::computed('x', 'hidden');".toUTF8).map Field.handle := by
      decide +kernel
    obtain ⟨f, registered, handle⟩ := List.mem_map.1 registers
    rw [directory]
    exact ⟨f, List.mem_flatMap.2 ⟨"app", by simp, List.mem_flatMap.2 ⟨_, hidden, registered⟩⟩, handle⟩
  · rw [files]
    decide +kernel

end BlueprintSchema.ComputedField
