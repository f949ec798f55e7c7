import BlueprintSchema.Proofs.Config.Fitting
import BlueprintSchema.Proofs.Config.Sources

/-! Loading a configuration, taken apart: which files are its sources, which layers these and the
environment make, and what the layers say. Main statements: `Config.load_eq` and
`Config.ofSetting_stack_eq_ok_iff`. -/

namespace BlueprintSchema.Config

open Setting

variable {t : FileTree} {env : List (String × String)} {root : String} {named : Option String}
  {files : List File} {layers : List Setting} {c : Config}

def standard : List (String × Format) :=
  [("statamic-schema.toml", .toml), ("statamic-schema.yaml", .yaml), ("statamic-schema.yml", .yaml),
    ("statamic-schema.json", .json)]

def standing (t : FileTree) (root : String) : List File :=
  if t.isDirectory root then
    (standard.map fun (name, format) => ⟨Path.join root name, format⟩).filter fun f => t.isFile f.path
  else []

theorem ofPath?_standard (filled : root ≠ "") : ∀ e ∈ standard,
    File.ofPath? (Path.join root e.1) = some ⟨Path.join root e.1, e.2⟩ := by
  intro e member
  have named : Path.IsName e.1 := (by decide : ∀ e ∈ standard, Path.IsName e.1) e member
  have known : (Path.splitName e.1).2.bind Format.ofExtension? = some e.2 :=
    (by decide : ∀ e ∈ standard, (Path.splitName e.1).2.bind Format.ofExtension? = some e.2) e member
  obtain ⟨extension, split, known⟩ := Option.bind_eq_some_iff.1 known
  have found : Path.extension? (Path.join root e.1) = some extension := by
    rw [Path.extension?, Path.fileName?_join named filled, Option.bind_some, split]
  rw [File.ofPath?, found]
  exact Option.bind_eq_some_iff.2 ⟨extension, rfl, Option.bind_eq_some_iff.2 ⟨e.2, known, rfl⟩⟩

theorem discover_eq_standing : discover t root = standing t root := by
  unfold discover standing
  split
  · next directory =>
    have filled : root ≠ "" := by
      rintro rfl
      nomatch directory
    have names : candidates = standard.map Prod.fst := rfl
    have classified := ofPath?_standard filled
    rw [names]
    generalize standard = known at classified
    induction known with
    | nil => rfl
    | cons e known ih =>
      obtain ⟨here, rest⟩ := List.forall_mem_cons.1 classified
      have := ih rest
      by_cases file : t.isFile (Path.join root e.1) = true <;> simp_all
  · rfl

/-- The files that a configuration is read from, the lowest first, or why the one named on purpose
cannot be. -/
def sourceFiles (t : FileTree) (root : String) : Option String → Except Error (List File)
  | none => .ok (standing t root)
  | some path => (namedFile t root path).map fun f => standing t root ++ [f]

def Layered (t : FileTree) (env : List (String × String)) (files : List File) (layers : List Setting) :
    Prop :=
  files.map (File.settings t) ++ [.ok (Environment.settings env)] = layers.map .ok

theorem Layered.unique {layers' : List Setting} (h : Layered t env files layers)
    (h' : Layered t env files layers') : layers = layers' :=
  (List.map_inj_right fun _ _ => Except.ok.inj).1 (h.symm.trans h')

theorem mergeAll_eq_ok_iff {sources : List (Except Mismatch Setting)} {s : Setting} :
    mergeAll sources = .ok s ↔ ∃ layers, sources = layers.map .ok ∧ s = stack layers := by
  unfold mergeAll stack
  generalize table [] = below
  induction sources generalizing below with
  | nil =>
    constructor
    · intro h
      cases h
      exact ⟨[], rfl, rfl⟩
    · rintro ⟨layers, none, rfl⟩
      rw [List.map_eq_nil_iff.1 none.symm]
      rfl
  | cons source sources ih =>
    rw [List.foldlM_cons, bind_eq_ok_iff]
    constructor
    · rintro ⟨below', read, h⟩
      obtain ⟨layers, rest, rfl⟩ := (ih below').1 h
      cases source with
      | error m => nomatch read
      | ok s =>
        cases read
        exact ⟨s :: layers, by rw [rest, List.map_cons], rfl⟩
    · rintro ⟨layers, all, rfl⟩
      obtain ⟨s, layers, rfl, rfl, rfl⟩ := List.map_eq_cons_iff.1 all.symm
      exact ⟨below.merge s, rfl, (ih _).2 ⟨layers, rfl, rfl⟩⟩

def Given (t : FileTree) (env : List (String × String)) (root : String) (named : Option String)
    (given : Config) : Prop :=
  ∃ files layers, sourceFiles t root named = .ok files ∧ Layered t env files layers ∧
    ofSetting (stack layers) = .ok given

def loadFrom (t : FileTree) (env : List (String × String)) (root : String) (files : List File) :
    Except Error Config :=
  match (mergeAll (files.map (File.settings t) ++ [.ok (Environment.settings env)])).bind ofSetting with
  | .ok c => c.checked root
  | .error m => .error (.mismatch m)

/-- The file named on purpose is looked at first, and only if it is there is anything read. -/
theorem load_eq :
    load t env root named = (sourceFiles t root named).bind (loadFrom t env root) := by
  unfold load sourceFiles
  rw [discover_eq_standing]
  cases named with
  | none => exact congrArg (loadFrom t env root) (List.append_nil (standing t root))
  | some path =>
    simp only [bind, Except.bind]
    cases namedFile t root path with
    | error e => rfl
    | ok f => rfl

theorem merged_eq_ok_iff :
    (mergeAll (files.map (File.settings t) ++ [.ok (Environment.settings env)])).bind ofSetting = .ok c ↔
      ∃ layers, Layered t env files layers ∧ ofSetting (stack layers) = .ok c := by
  have read := bind_eq_ok_iff (e := mergeAll (files.map (File.settings t) ++
    [.ok (Environment.settings env)])) (f := ofSetting) (y := c)
  refine read.trans ⟨?_, ?_⟩
  · rintro ⟨s, merged, fits⟩
    obtain ⟨layers, layered, rfl⟩ := mergeAll_eq_ok_iff.1 merged
    exact ⟨layers, layered, fits⟩
  · rintro ⟨layers, layered, fits⟩
    exact ⟨stack layers, mergeAll_eq_ok_iff.2 ⟨layers, layered, rfl⟩, fits⟩

theorem Given.unique {c' : Config} (h : Given t env root named c) (h' : Given t env root named c') :
    c = c' := by
  obtain ⟨files, layers, named, layered, fits⟩ := h
  obtain ⟨files', layers', named', layered', fits'⟩ := h'
  cases named.symm.trans named'
  cases layered.unique layered'
  exact Except.ok.inj (fits.symm.trans fits')

theorem load_of_error {e : Error} (h : sourceFiles t root named = .error e) :
    load t env root named = .error e := by
  rw [load_eq, h]
  rfl

theorem load_of_given (h : Given t env root named c) : load t env root named = c.checked root := by
  obtain ⟨files, layers, named, layered, fits⟩ := h
  rw [load_eq, named, Except.bind, loadFrom, merged_eq_ok_iff.2 ⟨layers, layered, fits⟩]

theorem load_of_not_given (h : sourceFiles t root named = .ok files)
    (unfit : ∀ c, ¬ Given t env root named c) : ∃ m, load t env root named = .error (.mismatch m) := by
  rw [load_eq, h, Except.bind, loadFrom]
  split
  · next c fits =>
    obtain ⟨layers, layered, fits⟩ := merged_eq_ok_iff.1 fits
    exact absurd ⟨files, layers, h, layered, fits⟩ (unfit c)
  · next m _ => exact ⟨m, rfl⟩

theorem checked_eq_ok_iff {c' : Config} :
    c.checked root = .ok c' ↔ c.fault? = none ∧ c' = c.anchored root := by
  unfold checked
  cases c.fault? with
  | some fault => simp
  | none => simp [eq_comm]

theorem sources_cases (t : FileTree) (env : List (String × String)) (root : String)
    (named : Option String) :
    (∃ e, sourceFiles t root named = .error e) ∨
      (∃ files, sourceFiles t root named = .ok files ∧ ∀ c, ¬ Given t env root named c) ∨
      ∃ c, Given t env root named c := by
  cases found : sourceFiles t root named with
  | error e => exact .inl ⟨e, rfl⟩
  | ok files =>
    by_cases fits : ∃ c, Given t env root named c
    · exact .inr (.inr fits)
    · exact .inr (.inl ⟨files, rfl, not_exists.1 fits⟩)

theorem load_eq_ok_iff : load t env root named = .ok c ↔
    ∃ given, Given t env root named given ∧ given.fault? = none ∧ c = given.anchored root := by
  constructor
  · intro h
    obtain ⟨e, failed⟩ | ⟨files, found, unfit⟩ | ⟨given, fits⟩ := sources_cases t env root named
    · rw [load_of_error failed] at h
      nomatch h
    · obtain ⟨m, failed⟩ := load_of_not_given found unfit
      rw [failed] at h
      nomatch h
    · rw [load_of_given fits, checked_eq_ok_iff] at h
      exact ⟨given, fits, h⟩
  · rintro ⟨given, fits, sound⟩
    rw [load_of_given fits, checked_eq_ok_iff]
    exact sound

end BlueprintSchema.Config
