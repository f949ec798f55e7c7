import BlueprintSchema.Analyzer
import BlueprintSchema.Proofs.Config.Loading
import BlueprintSchema.Proofs.Text.Trimming

/-! What loading a configuration ends with. Of the things that can be wrong the first is reported: the
file named on purpose is missing, its format is not known, the sources give no configuration, a fieldtype
has no handle or no class. What is loaded has its paths below the root and a class for each of its
fieldtypes. Main statement: `Config.load_outcome`. -/

namespace BlueprintSchema.Config

open Setting

variable {t : FileTree} {env : List (String × String)} {root path : String} {named : Option String}
  {c : Config} {handle class_ message : String}

def HasFormat (path : String) : Prop :=
  ∃ extension, Path.extension? path = some extension ∧
    Text.lower extension ∈ ["toml", "yaml", "yml", "json"]

theorem ofExtension?_eq_none_iff {extension : String} :
    Format.ofExtension? extension = none ↔ Text.lower extension ∉ ["toml", "yaml", "yml", "json"] := by
  unfold Format.ofExtension?
  split <;> simp_all

theorem ofPath?_eq_none_iff : File.ofPath? path = none ↔ ¬ HasFormat path := by
  unfold File.ofPath? HasFormat
  cases found : Path.extension? path with
  | none => simp
  | some extension =>
    have known := @ofExtension?_eq_none_iff extension
    cases format : Format.ofExtension? extension with
    | none => simp_all
    | some f => simp_all

theorem namedFile_cases (t : FileTree) (root name : String) :
    (t.isFile (Path.join root name) = false ∧
      namedFile t root name = .error (.fileNotFound (Path.join root name))) ∨
    (t.isFile (Path.join root name) = true ∧ ¬ HasFormat (Path.join root name) ∧
      namedFile t root name =
        .error (.unsupportedFormat ((Path.extension? (Path.join root name)).getD ""))) ∨
    (t.isFile (Path.join root name) = true ∧ HasFormat (Path.join root name) ∧
      ∃ f, namedFile t root name = .ok f) := by
  unfold namedFile
  dsimp only
  cases file : t.isFile (Path.join root name) with
  | false => exact .inl ⟨rfl, rfl⟩
  | true =>
    right
    cases taken : File.ofPath? (Path.join root name) with
    | none => exact .inl ⟨rfl, ofPath?_eq_none_iff.1 taken, rfl⟩
    | some f =>
      have format : HasFormat (Path.join root name) := by
        by_contra unknown
        rw [ofPath?_eq_none_iff.2 unknown] at taken
        nomatch taken
      exact .inr ⟨rfl, format, f, rfl⟩

theorem namedFile_eq_fileNotFound_iff {name : String} :
    namedFile t root name = .error (.fileNotFound path) ↔
      path = Path.join root name ∧ t.isFile path = false := by
  obtain ⟨missing, e⟩ | ⟨file, -, e⟩ | ⟨file, -, f, e⟩ := namedFile_cases t root name
  · rw [e]
    constructor
    · rintro ⟨⟩
      exact ⟨rfl, missing⟩
    · rintro ⟨rfl, -⟩
      rfl
  · rw [e]
    exact iff_of_false nofun fun ⟨same, missing⟩ => by rw [same, file] at missing; nomatch missing
  · rw [e]
    exact iff_of_false nofun fun ⟨same, missing⟩ => by rw [same, file] at missing; nomatch missing

theorem namedFile_eq_unsupportedFormat_iff {name format : String} :
    namedFile t root name = .error (.unsupportedFormat format) ↔
      t.isFile (Path.join root name) = true ∧ ¬ HasFormat (Path.join root name) ∧
      format = (Path.extension? (Path.join root name)).getD "" := by
  obtain ⟨missing, e⟩ | ⟨file, unknown, e⟩ | ⟨-, known, f, e⟩ := namedFile_cases t root name
  · rw [e]
    exact iff_of_false nofun fun ⟨file, _⟩ => by rw [missing] at file; nomatch file
  · rw [e]
    constructor
    · rintro ⟨⟩
      exact ⟨file, unknown, rfl⟩
    · rintro ⟨-, -, rfl⟩
      rfl
  · rw [e]
    exact iff_of_false nofun fun ⟨_, unknown, _⟩ => unknown known

theorem sourceFiles_eq_error_iff {e : Error} : sourceFiles t root named = .error e ↔
    ∃ name, named = some name ∧ namedFile t root name = .error e := by
  cases named with
  | none => exact ⟨nofun, fun ⟨_, same, _⟩ => nomatch same⟩
  | some name =>
    rw [sourceFiles]
    cases found : namedFile t root name with
    | error e' => simp [Except.map, found]
    | ok f => simp [Except.map, found]

theorem exists_sourceFiles_iff : (∃ files, sourceFiles t root named = .ok files) ↔
    ∀ name ∈ named, t.isFile (Path.join root name) = true ∧ HasFormat (Path.join root name) := by
  cases named with
  | none => exact ⟨fun _ => nofun, fun _ => ⟨_, rfl⟩⟩
  | some name =>
    rw [sourceFiles]
    obtain ⟨missing, e⟩ | ⟨file, unknown, e⟩ | ⟨file, known, f, e⟩ := namedFile_cases t root name
    · rw [e]
      exact ⟨fun ⟨_, h⟩ => (nomatch h), fun h => absurd (h name rfl).1 (by simp [missing])⟩
    · rw [e]
      exact ⟨fun ⟨_, h⟩ => (nomatch h), fun h => absurd (h name rfl).2 unknown⟩
    · rw [e]
      refine ⟨fun _ => ?_, fun _ => ⟨_, rfl⟩⟩
      rintro name ⟨⟩
      exact ⟨file, known⟩

theorem checked_eq_error_iff {e : Error} :
    c.checked root = .error e ↔ ∃ fault, c.fault? = some fault ∧ e = .invalid fault.message := by
  unfold checked
  cases c.fault? with
  | none => simp
  | some fault => simp [eq_comm]

theorem load_eq_error_iff {e : Error} (hm : ∀ m, e ≠ .mismatch m) (hi : ∀ s, e ≠ .invalid s) :
    load t env root named = .error e ↔ ∃ name, named = some name ∧ namedFile t root name = .error e := by
  rw [← sourceFiles_eq_error_iff]
  refine ⟨fun h => ?_, load_of_error⟩
  obtain ⟨e', failed⟩ | ⟨files, found, unfit⟩ | ⟨given, fits⟩ := sources_cases t env root named
  · rw [load_of_error failed] at h
    cases h
    exact failed
  · obtain ⟨m, failed⟩ := load_of_not_given found unfit
    cases failed.symm.trans h
    exact absurd rfl (hm m)
  · rw [load_of_given fits, checked_eq_error_iff] at h
    obtain ⟨fault, -, rfl⟩ := h
    exact absurd rfl (hi _)

theorem early_of_sourceFiles {e : Error} (h : sourceFiles t root named = .error e) :
    (∀ m, e ≠ .mismatch m) ∧ ∀ s, e ≠ .invalid s := by
  obtain ⟨name, -, h⟩ := sourceFiles_eq_error_iff.1 h
  obtain ⟨-, e'⟩ | ⟨-, -, e'⟩ | ⟨-, -, f, e'⟩ := namedFile_cases t root name
  · cases h.symm.trans e'
    exact ⟨nofun, nofun⟩
  · cases h.symm.trans e'
    exact ⟨nofun, nofun⟩
  · nomatch h.symm.trans e'

theorem Given.sourceFiles_eq_ok (h : Given t env root named c) :
    ∃ files, sourceFiles t root named = .ok files := by
  obtain ⟨files, -, found, -⟩ := h
  exact ⟨files, found⟩

theorem load_eq_mismatch_iff : (∃ m, load t env root named = .error (.mismatch m)) ↔
    (∃ files, sourceFiles t root named = .ok files) ∧ ∀ c, ¬ Given t env root named c := by
  obtain ⟨e, failed⟩ | ⟨files, found, unfit⟩ | ⟨given, fits⟩ := sources_cases t env root named
  · refine iff_of_false ?_ ?_
    · rintro ⟨m, h⟩
      cases (load_of_error failed).symm.trans h
      exact (early_of_sourceFiles failed).1 m rfl
    · rintro ⟨⟨files, found⟩, -⟩
      nomatch failed.symm.trans found
  · exact iff_of_true (load_of_not_given found unfit) ⟨⟨files, found⟩, unfit⟩
  · refine iff_of_false ?_ fun h => h.2 given fits
    rintro ⟨m, h⟩
    obtain ⟨fault, -, same⟩ := checked_eq_error_iff.1 ((load_of_given fits).symm.trans h)
    nomatch same

theorem load_eq_invalid_iff : load t env root named = .error (.invalid message) ↔
    ∃ given fault, Given t env root named given ∧ given.fault? = some fault ∧
      message = fault.message := by
  obtain ⟨e, failed⟩ | ⟨files, found, unfit⟩ | ⟨given, fits⟩ := sources_cases t env root named
  · refine iff_of_false (fun h => ?_) ?_
    · cases (load_of_error failed).symm.trans h
      exact (early_of_sourceFiles failed).2 _ rfl
    · rintro ⟨given, -, fits, -⟩
      obtain ⟨files, found⟩ := fits.sourceFiles_eq_ok
      nomatch failed.symm.trans found
  · obtain ⟨m, failed⟩ := load_of_not_given found unfit
    refine iff_of_false (fun h => ?_) fun ⟨given, _, fits, _⟩ => unfit given fits
    nomatch failed.symm.trans h
  · rw [load_of_given fits, checked_eq_error_iff]
    constructor
    · rintro ⟨fault, found, same⟩
      cases same
      exact ⟨given, fault, fits, found, rfl⟩
    · rintro ⟨given', fault, fits', found, rfl⟩
      cases fits.unique fits'
      exact ⟨fault, found, rfl⟩

/-! ### Faults -/

/-- A fieldtype has a handle that is not blank, and a class of which something is left without the
blanks around it and then without the backslashes before it. -/
def Sound (handle class_ : String) : Prop :=
  Text.trim handle ≠ "" ∧ Text.dropLeading '\\' (Text.trim class_) ≠ ""

theorem isAllBlank_iff {s : String} : Text.isAllBlank s = true ↔ Text.trim s = "" := by
  rw [Text.isAllBlank, ← Text.trimChars_eq_nil_iff, Text.trim, String.ofList_eq_empty_iff]

theorem faultOf?_eq_none_iff : faultOf? handle class_ = none ↔ Sound handle class_ := by
  unfold faultOf? Sound
  rw [ne_eq, ← isAllBlank_iff]
  split <;> simp_all

def Complaint (handle class_ message : String) : Prop :=
  Text.trim handle = "" ∧ message = "custom fieldtype handle must not be empty" ∨
    Text.trim handle ≠ "" ∧ Text.dropLeading '\\' (Text.trim class_) = "" ∧
      message = "custom fieldtype '" ++ handle ++ "' has no class"

theorem complaint_iff : Complaint handle class_ message ↔
    ∃ fault, faultOf? handle class_ = some fault ∧ message = fault.message := by
  unfold faultOf? Complaint
  by_cases blank : Text.trim handle = ""
  · rw [if_pos (isAllBlank_iff.2 blank)]
    constructor
    · rintro (⟨-, rfl⟩ | ⟨inked, -⟩)
      · exact ⟨_, rfl, rfl⟩
      · exact absurd blank inked
    · rintro ⟨fault, ⟨⟩, rfl⟩
      exact .inl ⟨blank, rfl⟩
  · rw [if_neg (mt isAllBlank_iff.1 blank)]
    by_cases none : Text.dropLeading '\\' (Text.trim class_) = ""
    · rw [if_pos (String.isEmpty_iff.2 none)]
      constructor
      · rintro (⟨blank', -⟩ | ⟨-, -, rfl⟩)
        · exact absurd blank' blank
        · exact ⟨_, rfl, rfl⟩
      · rintro ⟨fault, ⟨⟩, rfl⟩
        exact .inr ⟨blank, none, rfl⟩
    · rw [if_neg (mt String.isEmpty_iff.1 none)]
      constructor
      · rintro (⟨blank', -⟩ | ⟨-, none', -⟩)
        · exact absurd blank' blank
        · exact absurd none' none
      · rintro ⟨fault, ⟨⟩, -⟩

/-- Backslashes with blanks around them are no class. -/
example : faultOf? "money" " \\ " = some (.noClass "money") := by decide

/-- The configuration is refused with the message of its first unsound fieldtype, by handle. -/
def Refused (c : Config) (message : String) : Prop :=
  ∃ before handle class_ after, c.customFieldtypes.toList = before ++ (handle, class_) :: after ∧
    (∀ e ∈ before, Sound e.1 e.2) ∧ Complaint handle class_ message

theorem refused_iff : c.Refused message ↔ ∃ fault, c.fault? = some fault ∧ message = fault.message := by
  simp only [Refused, fault?, List.findSome?_eq_some_iff, complaint_iff, ← faultOf?_eq_none_iff]
  constructor
  · rintro ⟨before, handle, class_, after, split, sound, fault, found, same⟩
    exact ⟨fault, ⟨before, (handle, class_), after, split, found, sound⟩, same⟩
  · rintro ⟨fault, ⟨before, ⟨handle, class_⟩, after, split, found, sound⟩, same⟩
    exact ⟨before, handle, class_, after, split, sound, fault, found, same⟩

theorem fault?_eq_none_iff : c.fault? = none ↔ ∀ e ∈ c.customFieldtypes.toList, Sound e.1 e.2 := by
  simp only [fault?, List.findSome?_eq_none_iff, ← faultOf?_eq_none_iff]

/-! ### What is loaded -/

theorem isAbsolute_join (h : Path.isAbsolute root = true) :
    Path.isAbsolute (Path.join root path) = true := by
  unfold Path.join
  split
  · assumption
  · have first : root.toList.head? = some '/' := beq_iff_eq.1 h
    have kept : ∀ rest : List Char, (root.toList ++ rest).head? = some '/' := by
      intro rest
      rw [List.head?_append, first]
      rfl
    split <;> simp [Path.isAbsolute, kept]

theorem join_of_isAbsolute (h : Path.isAbsolute path = true) : Path.join root path = path := if_pos h

theorem Sound.bareClass (h : Sound handle class_) :
    Text.trim (bareClass class_) ≠ "" ∧ (bareClass class_).toList.head? ≠ some '\\' := by
  have left : (Text.trimChars class_.toList).dropWhile (· == '\\') ≠ [] := by
    have := h.2
    rwa [Text.dropLeading, Text.trim, String.toList_ofList, ne_eq, String.ofList_eq_empty_iff] at this
  have bare : (BlueprintSchema.bareClass class_).toList = class_.toList.dropWhile (· == '\\') := by
    rw [BlueprintSchema.bareClass, Text.dropLeading, String.toList_ofList]
  constructor
  · rw [ne_eq, ← isAllBlank_iff, Text.isAllBlank, bare, Text.dropWhile_not_blank left]
    nofun
  · intro first
    have other := List.head?_dropWhile_not (· == '\\') class_.toList
    rw [← bare, first] at other
    nomatch other

theorem typeOf_custom {f : Field} (sound : ∀ e ∈ c.customFieldtypes.toList, Sound e.1 e.2)
    (custom : Fieldtype.builtin.lookup f.kind = none)
    (known : c.customFieldtypes.get? f.kind = some class_) :
    (Analyzer.ofConfig c).typeOf f = .object (bareClass class_) ∧ Text.trim (bareClass class_) ≠ "" ∧
      (bareClass class_).toList.head? ≠ some '\\' := by
  have member : (f.kind, class_) ∈ c.customFieldtypes.toList := by
    obtain ⟨before, after, split, -⟩ := List.lookup_eq_some_iff.1 known
    rw [Dict.toList, split]
    simp
  refine ⟨?_, (sound _ member).bareClass⟩
  rw [Analyzer.typeOf, Fieldtype.typeOf, custom]
  dsimp only
  rw [show (Analyzer.ofConfig c).customFieldtypes.get? f.kind = some class_ from known]
  rfl

theorem isAbsolute_of_mem_anchored (h : Path.isAbsolute root = true) :
    ∀ p ∈ (c.anchored root).blueprintPaths ++ (c.anchored root).scanPaths, Path.isAbsolute p = true := by
  intro p member
  rcases List.mem_append.1 member with member | member
  all_goals
    obtain ⟨q, -, rfl⟩ := List.mem_map.1 member
    exact isAbsolute_join h

theorem anchored_of_isAbsolute
    (h : ∀ p ∈ c.blueprintPaths ++ c.scanPaths, Path.isAbsolute p = true) : c.anchored root = c := by
  have kept : ∀ ps : List String, (∀ p ∈ ps, Path.isAbsolute p = true) → ps.map (Path.join root) = ps :=
    fun ps absolute => by
      rw [List.map_congr_left fun p member => join_of_isAbsolute (absolute p member), List.map_id']
  have blueprints := kept c.blueprintPaths fun p member => h p (List.mem_append_left _ member)
  have scans := kept c.scanPaths fun p member => h p (List.mem_append_right _ member)
  rw [anchored, blueprints, scans]

theorem join_eq_ite :
    Path.join root path = if Path.isAbsolute path then path else Path.join root path := by
  split
  · exact join_of_isAbsolute ‹_›
  · rfl

/-- Loading ends with the first of these: the file named on purpose is missing; its format is not known;
the sources do not parse or do not fit; a fieldtype, the first by handle, is unsound; the configuration
that the sources give, its paths below the root. What is loaded at an absolute root has absolute paths,
which stay whatever root they are put below again, and an analyser of it knows a proper class for each
fieldtype that is not built in. -/
theorem load_outcome (t : FileTree) (env : List (String × String)) (root : String)
    (named : Option String) :
    (∀ path, load t env root named = .error (.fileNotFound path) ↔
      ∃ name, named = some name ∧ path = Path.join root name ∧ t.isFile path = false) ∧
    (∀ format, load t env root named = .error (.unsupportedFormat format) ↔
      ∃ name, named = some name ∧ t.isFile (Path.join root name) = true ∧
        ¬ HasFormat (Path.join root name) ∧ format = (Path.extension? (Path.join root name)).getD "") ∧
    ((∃ m, load t env root named = .error (.mismatch m)) ↔
      (∀ name ∈ named, t.isFile (Path.join root name) = true ∧ HasFormat (Path.join root name)) ∧
        ∀ c, ¬ Given t env root named c) ∧
    (∀ message, load t env root named = .error (.invalid message) ↔
      ∃ given, Given t env root named given ∧ given.Refused message) ∧
    (∀ c, load t env root named = .ok c ↔
      ∃ given, Given t env root named given ∧ (∀ e ∈ given.customFieldtypes.toList, Sound e.1 e.2) ∧
        c = given.anchored root) ∧
    ∀ c, load t env root named = .ok c →
      (Path.isAbsolute root = true →
        (∃ given, Given t env root named given ∧
          c.blueprintPaths = given.blueprintPaths.map
            (fun p => if Path.isAbsolute p then p else Path.join root p) ∧
          c.scanPaths = given.scanPaths.map
            (fun p => if Path.isAbsolute p then p else Path.join root p)) ∧
        (∀ p ∈ c.blueprintPaths ++ c.scanPaths, Path.isAbsolute p = true) ∧
        ∀ other, c.anchored other = c) ∧
      ∀ (f : Field) class_, Fieldtype.builtin.lookup f.kind = none →
        c.customFieldtypes.get? f.kind = some class_ →
        (Analyzer.ofConfig c).typeOf f = .object (bareClass class_) ∧
          Text.trim (bareClass class_) ≠ "" ∧ (bareClass class_).toList.head? ≠ some '\\' := by
  have loaded : ∀ c, load t env root named = .ok c ↔
      ∃ given, Given t env root named given ∧ (∀ e ∈ given.customFieldtypes.toList, Sound e.1 e.2) ∧
        c = given.anchored root := by
    intro c
    simp only [load_eq_ok_iff, fault?_eq_none_iff]
  refine ⟨fun path => ?_, fun format => ?_, ?_, fun message => ?_, loaded, fun c found => ?_⟩
  · refine (load_eq_error_iff (e := .fileNotFound path) nofun nofun).trans ?_
    exact exists_congr fun name => and_congr_right fun _ => namedFile_eq_fileNotFound_iff
  · refine (load_eq_error_iff (e := .unsupportedFormat format) nofun nofun).trans ?_
    exact exists_congr fun name => and_congr_right fun _ => namedFile_eq_unsupportedFormat_iff
  · rw [load_eq_mismatch_iff, exists_sourceFiles_iff]
  · simp only [load_eq_invalid_iff, refused_iff, exists_and_left]
  · obtain ⟨given, fits, sound, rfl⟩ := (loaded c).1 found
    refine ⟨fun absolute => ⟨⟨given, fits, ?_, ?_⟩, ?_, ?_⟩, fun f class_ custom known => ?_⟩
    · exact List.map_congr_left fun _ _ => join_eq_ite
    · exact List.map_congr_left fun _ _ => join_eq_ite
    · exact isAbsolute_of_mem_anchored absolute
    · exact fun other => anchored_of_isAbsolute (isAbsolute_of_mem_anchored absolute)
    · exact typeOf_custom sound custom known

end BlueprintSchema.Config
