import BlueprintSchema.Proofs.FileTree.Removal
import BlueprintSchema.Proofs.Locations
import BlueprintSchema.Proofs.Scripts
import BlueprintSchema.Proofs.Shadowing

/-! Files that cannot be read as what they are looked at for. In a tree without links they cost only
themselves: with any of them removed the registry is the same, and so is every answer, and every other
file has all its fields in it. Main statement: `Session.spoilt_cost_only_themselves`. -/

namespace BlueprintSchema

open FileTree (HoldsFiles)

variable {t : FileTree} {gone : List Place} {path : String} {p : Place} {content : ByteArray}

namespace Blueprint

inductive Spoilt (content : ByteArray) : Prop
  | notText : String.fromUTF8? content = none → Spoilt content
  | malformed {text : String} :
    String.fromUTF8? content = some text → Yaml.parse text = none → Spoilt content
  | noMapping {text : String} {v : Yaml.Value} : String.fromUTF8? content = some text →
    Yaml.parse text = some v → (∀ m, v ≠ .mapping m) → Spoilt content

theorem fieldsOfDocument_of_noMapping {v : Yaml.Value} (h : ∀ m, v ≠ .mapping m) :
    fieldsOfDocument v = [] := by
  cases v with
  | mapping m => exact absurd rfl (h m)
  | _ => rfl

theorem fields_of_spoilt (leads : t.resolve path = .ok p) (file : t.get? p = some (.file content))
    (h : Spoilt content) : fields t path = [] := by
  have there : t.contains path = true := by simp [FileTree.contains, FileTree.lookup?, leads, file]
  have reads := FileTree.read_of_file leads file
  unfold fields load
  rw [if_pos there]
  cases h with
  | notText none => simp [reads, none]
  | @malformed text decodes refused =>
    by_cases blank : Text.isAllBlank text <;> simp [reads, decodes, parse?, blank, refused]
  | @noMapping text v decodes parses noMapping =>
    have nothing := fieldsOfDocument_of_noMapping noMapping
    by_cases blank : Text.isAllBlank text <;> simp [reads, decodes, parse?, blank, parses, nothing]

theorem fields_of_missing (h : ∀ p, t.resolve path ≠ .ok p) : fields t path = [] := by
  have nowhere : t.contains path = false := by
    unfold FileTree.contains FileTree.lookup?
    split
    · next p leads => exact absurd leads (h p)
    · rfl
  simp [fields, load, nowhere]

end Blueprint

namespace ComputedField

inductive Spoilt (content : ByteArray) : Prop
  | notText : String.fromUTF8? content = none → Spoilt content
  | unmentioned {text : String} : String.fromUTF8? content = some text →
    Text.occursIn registrationMethod.toList text.toList = false → Spoilt content
  | malformed {text : String} :
    String.fromUTF8? content = some text → Script.parse? text = none → Spoilt content

theorem registered_of_spoilt (leads : t.resolve path = .ok p)
    (file : t.get? p = some (.file content)) (h : Spoilt content) : registered t path = [] := by
  have reads := FileTree.read_of_file leads file
  unfold registered ofFile ofScript
  cases h with
  | notText none => simp [reads, none]
  | unmentioned decodes unmentioned => simp [reads, decodes, unmentioned]
  | @malformed text decodes refused =>
    by_cases mentioned : Text.occursIn registrationMethod.toList text.toList = true <;>
      simp [reads, decodes, mentioned, refused]

theorem registered_of_missing (h : ∀ p, t.resolve path ≠ .ok p) : registered t path = [] := by
  have nowhere : ∀ text, t.read path ≠ .ok text := by
    intro text reads
    cases leads : t.resolve path with
    | error cause => simp [FileTree.read, leads, bind, Except.bind] at reads
    | ok p => exact h p leads
  unfold registered ofFile
  split
  · next fs found =>
    split at found
    · next text reads => exact absurd reads (nowhere text)
    · contradiction
  · rfl

end ComputedField

section Removal

variable (files : t.HoldsFiles gone) (wf : t.WellFormed) (free : t.LinkFree)
include files wf free

theorem Location.blueprints_without (directory : String) :
    blueprints (t.without gone) directory = (blueprints t directory).filter (t.avoids gone) := by
  rw [blueprints, blueprints, FileTree.children_without files wf free, List.filter_filter,
    List.filter_filter]
  refine List.filter_congr fun path _ => ?_
  rw [FileTree.isFile_without files wf free]
  cases t.avoids gone path <;> simp

theorem Location.groups_without (directory : String) :
    ((t.without gone).children directory).filter (t.without gone).isDirectory =
      (t.children directory).filter t.isDirectory := by
  rw [FileTree.children_without files wf free, List.filter_filter]
  refine List.filter_congr fun path _ => ?_
  rw [FileTree.isDirectory_without files wf free]
  cases isDirectory : t.isDirectory path with
  | false => rfl
  | true =>
    obtain ⟨p, leads, found⟩ := FileTree.isDirectory_iff.1 isDirectory
    simpa [FileTree.avoids_of_resolve leads] using files.not_mem found

theorem Location.ofConvention_without (base : String) (c : Convention) :
    ofConvention (t.without gone) base c =
      (ofConvention t base c).filter fun l => t.avoids gone l.path := by
  unfold ofConvention
  simp only [FileTree.isDirectory_without files wf free, blueprints_without files wf free,
    groups_without files wf free]
  split
  · split
    · rw [List.filter_flatMap]
      congr 1
      funext group
      split
      · rw [List.filter_map]
        rfl
      · rfl
    · rw [List.filter_filterMap, List.filterMap_filter]
      refine List.filterMap_congr fun path _ => ?_
      cases Path.stem? path <;> by_cases kept : t.avoids gone path = true <;>
        simp [Option.filter, kept]
  · rfl

theorem Location.all_without (bases : List String) :
    all (t.without gone) bases = (all t bases).filter fun l => t.avoids gone l.path := by
  rw [all, all, List.filter_flatMap]
  congr 1
  funext base
  unfold ofBase
  rw [FileTree.isDirectory_without files wf free]
  split
  · rw [List.filter_flatMap]
    congr 1
    funext c
    exact ofConvention_without files wf free base c
  · rfl

theorem ComputedField.scripts_without (path : String) :
    scripts (t.without gone) path = (scripts t path).filter (t.avoids gone) := by
  unfold scripts
  rw [FileTree.isFile_without files wf free, FileTree.isDirectory_without files wf free]
  cases isFile : t.isFile path with
  | true =>
    obtain ⟨p, content, leads, file⟩ := FileTree.isFile_iff.1 isFile
    have noDirectory : t.isDirectory path = false := by
      simp [FileTree.isDirectory, FileTree.lookup?, leads, file]
    cases kept : t.avoids gone path <;> by_cases named : isScript path <;>
      simp [kept, noDirectory, named]
  | false =>
    simp only [Bool.false_and, Bool.false_eq_true, if_false]
    split
    · next isDirectory =>
      rw [FileTree.files_without files wf free path isDirectory, List.filter_filter,
        List.filter_filter]
      exact List.filter_congr fun path _ => Bool.and_comm _ _
    · rfl

theorem Blueprint.fields_without (kept : t.avoids gone path = true) :
    fields (t.without gone) path = fields t path := by
  by_cases leads : ∃ p, t.resolve path = .ok p
  · obtain ⟨p, leads⟩ := leads
    have stays : p ∉ gone := by simpa [FileTree.avoids_of_resolve leads] using kept
    have leads' := (FileTree.resolve_without files wf free).2 ⟨leads, stays⟩
    have same : (t.without gone).contains path = t.contains path := by
      simp only [FileTree.contains, FileTree.lookup?, leads, leads', FileTree.get?_without files,
        if_neg stays]
    rw [fields, fields, load, load, FileTree.read_without files wf free leads stays, same]
  · have missing := not_exists.1 leads
    rw [fields_of_missing missing, fields_of_missing (FileTree.missing_without files wf free missing)]

theorem ComputedField.registered_without (kept : t.avoids gone path = true) :
    registered (t.without gone) path = registered t path := by
  by_cases leads : ∃ p, t.resolve path = .ok p
  · obtain ⟨p, leads⟩ := leads
    have stays : p ∉ gone := by simpa [FileTree.avoids_of_resolve leads] using kept
    rw [registered, registered, ofFile, ofFile, FileTree.read_without files wf free leads stays]
  · have missing := not_exists.1 leads
    rw [registered_of_missing missing,
      registered_of_missing (FileTree.missing_without files wf free missing)]

end Removal

theorem Location.isBlueprint_of_mem_all {bases : List String} {l : Location} (h : l ∈ all t bases) :
    isBlueprint l.path = true := by
  obtain ⟨base, -, h⟩ := List.mem_flatMap.1 h
  obtain ⟨-, h⟩ := List.mem_ite_nil_right.1 h
  obtain ⟨c, -, h⟩ := List.mem_flatMap.1 h
  exact (of_mem_ofConvention h).2.1

theorem ComputedField.isScript_of_mem_scripts {root : String} (h : path ∈ scripts t root) :
    isScript path = true := by
  unfold scripts at h
  split at h
  · exact (List.mem_filter.1 h).2
  · obtain ⟨-, h⟩ := List.mem_ite_nil_right.1 h
    exact (List.mem_filter.1 h).2

theorem not_isScript_of_isBlueprint (wf : t.WellFormed) (free : t.LinkFree) {other : String}
    (leads : t.resolve path = .ok p) (leads' : t.resolve other = .ok p)
    (file : t.get? p = some (.file content)) (blueprint : Location.isBlueprint path = true) :
    ComputedField.isScript other = false := by
  -- Both paths end with the name of the file, which has one extension.
  obtain ⟨q, name, split, last⟩ := FileTree.fileName?_of_file wf free.linksDangle leads file
  obtain ⟨q', name', split', last'⟩ := FileTree.fileName?_of_file wf free.linksDangle leads' file
  obtain ⟨-, same⟩ := List.append_inj' (split.symm.trans split') rfl
  obtain rfl := (List.cons.inj same).1
  have yaml : (Path.splitName name).2 = some Location.extension := by
    simp only [Location.isBlueprint, Path.extension?, last, Option.bind_some, Bool.and_eq_true,
      beq_iff_eq] at blueprint
    exact blueprint.1
  rw [ComputedField.isScript, Path.extension?, last', Option.bind_some, yaml]
  decide

namespace Registry

def Full (r : Registry) : Prop := ∀ type, (r.bucket? type).isSome

theorem full_empty : empty.Full := by
  intro type
  cases type <;> rfl

theorem Full.extend {r : Registry} (h : r.Full) (type : ContentType) (fs : List Field) :
    (r.extend type fs).Full := by
  intro u
  rw [Registry.extend, bucket?_put]
  split
  · rfl
  · exact h u

theorem Full.extend_nil {r : Registry} (h : r.Full) (type : ContentType) : r.extend type [] = r := by
  obtain ⟨b, found⟩ := Option.isSome_iff_exists.1 (h type)
  rw [Registry.extend, found]
  cases r
  cases type <;> simp only [bucket?] at found <;> subst found <;> rfl

theorem Full.extendAll_filter {α : Type} {r : Registry} (h : r.Full) (keep : α → Bool)
    (batch : α → ContentType × List Field) {xs : List α}
    (nothing : ∀ x ∈ xs, keep x = false → (batch x).2 = []) :
    r.extendAll ((xs.filter keep).map batch) = r.extendAll (xs.map batch) := by
  induction xs generalizing r with
  | nil => rfl
  | cons x xs ih =>
    have rest := fun y hy => nothing y (List.mem_cons_of_mem x hy)
    have unfolded : r.extendAll ((x :: xs).map batch) =
        (r.extend (batch x).1 (batch x).2).extendAll (xs.map batch) := rfl
    rw [unfolded]
    cases kept : keep x with
    | true =>
      rw [List.filter_cons_of_pos kept]
      exact ih (h.extend _ _) rest
    | false =>
      rw [List.filter_cons_of_neg (by simp [kept]), nothing x List.mem_cons_self kept, h.extend_nil]
      exact ih h rest

end Registry

inductive Config.Spoilt (c : Config) (t : FileTree) (p : Place) : Prop
  | blueprint {content : ByteArray} {l : Location} : t.get? p = some (.file content) →
    l ∈ Location.all t c.blueprintPaths → t.resolve l.path = .ok p → Blueprint.Spoilt content →
      Spoilt c t p
  | script {content : ByteArray} {path : String} : t.get? p = some (.file content) →
    path ∈ c.scanPaths.flatMap (ComputedField.scripts t) → t.resolve path = .ok p →
      ComputedField.Spoilt content → Spoilt c t p

section Spoilt

variable {c : Config}

theorem Config.Spoilt.file (h : c.Spoilt t p) : ∃ content, t.get? p = some (.file content) := by
  cases h with
  | @blueprint content _ file _ _ _ => exact ⟨content, file⟩
  | @script content _ file _ _ _ => exact ⟨content, file⟩

variable (wf : t.WellFormed) (free : t.LinkFree)
include wf free

theorem Config.Spoilt.fields_eq_nil (h : c.Spoilt t p) {l : Location}
    (located : l ∈ Location.all t c.blueprintPaths) (leads : t.resolve l.path = .ok p) :
    Blueprint.fields t l.path = [] := by
  cases h with
  | blueprint file _ _ spoilt => exact Blueprint.fields_of_spoilt leads file spoilt
  | script file found leads' _ =>
    obtain ⟨root, -, found⟩ := List.mem_flatMap.1 found
    have no := not_isScript_of_isBlueprint wf free leads leads' file
      (Location.isBlueprint_of_mem_all located)
    rw [ComputedField.isScript_of_mem_scripts found] at no
    nomatch no

theorem Config.Spoilt.registered_eq_nil (h : c.Spoilt t p)
    (found : path ∈ c.scanPaths.flatMap (ComputedField.scripts t)) (leads : t.resolve path = .ok p) :
    ComputedField.registered t path = [] := by
  cases h with
  | script file _ _ spoilt => exact ComputedField.registered_of_spoilt leads file spoilt
  | blueprint file located leads' _ =>
    obtain ⟨root, -, found⟩ := List.mem_flatMap.1 found
    have no := not_isScript_of_isBlueprint wf free leads' leads file
      (Location.isBlueprint_of_mem_all located)
    rw [ComputedField.isScript_of_mem_scripts found] at no
    nomatch no

variable (spoilt : ∀ p ∈ gone, c.Spoilt t p)
include spoilt

theorem ComputedField.discover_without :
    discover (t.without gone) c.scanPaths = discover t c.scanPaths := by
  have files : t.HoldsFiles gone := fun p member => (spoilt p member).file
  have filtered : c.scanPaths.flatMap (scripts (t.without gone)) =
      (c.scanPaths.flatMap (scripts t)).filter (t.avoids gone) := by
    rw [List.filter_flatMap]
    congr 1
    funext path
    exact scripts_without files wf free path
  rw [discover_eq, discover_eq, filtered, flatMap_filter]
  refine List.flatMap_congr fun path found => ?_
  cases kept : t.avoids gone path with
  | true => exact registered_without files wf free kept
  | false =>
    obtain ⟨p, member, leads⟩ := FileTree.exists_of_not_avoids kept
    exact ((spoilt p member).registered_eq_nil wf free found leads).symm

theorem Registry.ofFiles_without :
    ofFiles (t.without gone) c.blueprintPaths c.scanPaths =
      ofFiles t c.blueprintPaths c.scanPaths := by
  have files : t.HoldsFiles gone := fun p member => (spoilt p member).file
  have kept : ((Location.all t c.blueprintPaths).filter fun l => t.avoids gone l.path).map
        (fun l => (l.contentType, Blueprint.fields (t.without gone) l.path)) =
      ((Location.all t c.blueprintPaths).filter fun l => t.avoids gone l.path).map
        (fun l => (l.contentType, Blueprint.fields t l.path)) := by
    refine List.map_congr_left fun l member => ?_
    rw [Blueprint.fields_without files wf free (List.mem_filter.1 member).2]
  have nothing : ∀ l ∈ Location.all t c.blueprintPaths, t.avoids gone l.path = false →
      Blueprint.fields t l.path = [] := by
    intro l located lost
    obtain ⟨p, member, leads⟩ := FileTree.exists_of_not_avoids lost
    exact (spoilt p member).fields_eq_nil wf free located leads
  have dropped := full_empty.extendAll_filter (fun l : Location => t.avoids gone l.path)
    (fun l => (l.contentType, Blueprint.fields t l.path)) nothing
  rw [ofFiles_eq_extendAll, ofFiles_eq_extendAll, batches, batches,
    ComputedField.discover_without wf free spoilt, Location.all_without files wf free, kept,
    extendAll, extendAll, List.foldl_append, List.foldl_append]
  exact congrArg (fun r : Registry => r.extend .entry (ComputedField.discover t c.scanPaths)) dropped

end Spoilt

namespace Registry

theorem infix_of_load {bases scanPaths : List String} {l : Location} {fs : List Field}
    (located : l ∈ Location.all t bases) (h : Blueprint.load t l.path = .ok fs) :
    fs <:+: (ofFiles t bases scanPaths).fields l.contentType := by
  have own : Blueprint.fields t l.path = fs := by rw [Blueprint.fields, h]
  have member : l ∈ Location.ofType t bases l.contentType :=
    List.mem_filter.2 ⟨located, by simp⟩
  have here := infix_flatMap (f := fun l => Blueprint.fields t l.path) member
  rw [fields_ofFiles, ← own]
  exact here.trans (List.prefix_append _ _).isInfix

theorem infix_of_ofFile {bases scanPaths : List String} {fs : List Field}
    (found : path ∈ scanPaths.flatMap (ComputedField.scripts t))
    (h : ComputedField.ofFile t path = .ok fs) :
    fs <:+: (ofFiles t bases scanPaths).fields .entry := by
  have own : ComputedField.registered t path = fs := by rw [ComputedField.registered, h]
  rw [fields_ofFiles, if_pos rfl, ComputedField.discover_eq, ← own]
  exact (infix_flatMap found).trans (List.suffix_append _ _).isInfix

end Registry

def Event.isAsk : Event → Bool
  | edit _ => false
  | ask _ => true

namespace Session

theorem files_run_of_asks (s : Session) {events : List Event} (h : ∀ e ∈ events, e.isAsk) :
    (s.run events).files = s.files := by
  induction events generalizing s with
  | nil => rfl
  | cons e events ih =>
    have rest := ih (s.step e) fun d hd => h d (List.mem_cons_of_mem _ hd)
    cases e with
    | edit e => nomatch h _ List.mem_cons_self
    | ask q => exact rest.trans (by rw [step_ask])

theorem current_run_of_asks (c : Config) (t : FileTree) {events : List Event}
    (h : ∀ e ∈ events, e.isAsk) :
    ((start c t).run events).current = .ofFiles t c.blueprintPaths c.scanPaths := by
  obtain ⟨before, after, rfl, held⟩ := exists_moment c t events
  rw [held, files_run_of_asks _ fun e he => h e (List.mem_append_left _ he)]
  rfl

/-- Files that are spoilt as what the project looks at them for may as well not be there: the registry
is the same without them, and so are all answers. Every file that can be read has all its fields in
the registry, together and in order. -/
theorem spoilt_cost_only_themselves (c : Config) (wf : t.WellFormed) (free : t.LinkFree)
    (spoilt : ∀ p ∈ gone, c.Spoilt t p) :
    Registry.ofFiles (t.without gone) c.blueprintPaths c.scanPaths =
      Registry.ofFiles t c.blueprintPaths c.scanPaths ∧
    (∀ asked : List Event, (∀ e ∈ asked, e.isAsk) → ∀ {α : Type} (q : Question α),
      ((start c (t.without gone)).run asked).answer q = ((start c t).run asked).answer q) ∧
    (∀ l ∈ Location.all t c.blueprintPaths, ∀ fs, Blueprint.load t l.path = .ok fs →
      fs <:+: (Registry.ofFiles t c.blueprintPaths c.scanPaths).fields l.contentType) ∧
    (∀ path ∈ c.scanPaths.flatMap (ComputedField.scripts t), ∀ fs,
      ComputedField.ofFile t path = .ok fs →
        fs <:+: (Registry.ofFiles t c.blueprintPaths c.scanPaths).fields .entry) := by
  have same := Registry.ofFiles_without wf free spoilt
  refine ⟨same, fun asked asks α q => ?_,
    fun l located fs loads => Registry.infix_of_load located loads,
    fun path found fs reads => Registry.infix_of_ofFile found reads⟩
  rw [answer_eq, answer_eq, current_run_of_asks c _ asks, current_run_of_asks c t asks, same,
    config_run, config_run]
  rfl

/-- A tree in which one blueprint can be read, one is no text and one is no mapping, with a script that
registers nothing and one that breaks off. -/
def mostlySpoilt : FileTree :=
  ⟨[(["site"], .directory), (["site", "collections"], .directory),
    (["site", "collections", "blog"], .directory),
    (["site", "collections", "blog", "post.yaml"], .file ⟨#[0xff]⟩),
    (["site", "taxonomies"], .directory), (["site", "taxonomies", "tags"], .directory),
    (["site", "taxonomies", "tags", "tag.yaml"], .file "only a text".toUTF8),
    (["site", "globals"], .directory),
    (["site", "globals", "seo.yaml"], .file "fields: [{handle: motto}]".toUTF8),
    (["quiet.php"], .file "<?php echo 1;".toUTF8),
    (["broken.php"], .file "<?php Collection::computed(".toUTF8)]⟩

theorem motto_found_beside_spoilt :
    let c : Config := { blueprintPaths := ["site"], scanPaths := ["quiet.php", "broken.php"] }
    let gone : List Place := [["site", "collections", "blog", "post.yaml"],
      ["site", "taxonomies", "tags", "tag.yaml"], ["quiet.php"], ["broken.php"]]
    (∀ p ∈ gone, c.Spoilt mostlySpoilt p) ∧
    (start c (mostlySpoilt.without gone)).answer (.fields .global) =
      (start c mostlySpoilt).answer (.fields .global) ∧
    ((start c mostlySpoilt).answer (.fields .global)).map Field.handle = ["motto"] := by
  intro c gone
  have wf : mostlySpoilt.WellFormed := by decide +kernel
  have free : mostlySpoilt.LinkFree := wf.linkFree (by decide +kernel)
  have located : ∀ path ∈ ["site/collections/blog/post.yaml", "site/taxonomies/tags/tag.yaml"],
      ∃ l ∈ Location.all mostlySpoilt c.blueprintPaths, l.path = path := by
    have any : ∀ path ∈ ["site/collections/blog/post.yaml", "site/taxonomies/tags/tag.yaml"],
        (Location.all mostlySpoilt c.blueprintPaths).any (fun l => l.path == path) = true := by
      decide +kernel
    simpa using any
  have found : ∀ path ∈ ["quiet.php", "broken.php"],
      path ∈ c.scanPaths.flatMap (ComputedField.scripts mostlySpoilt) := by decide +kernel
  have post : c.Spoilt mostlySpoilt ["site", "collections", "blog", "post.yaml"] := by
    obtain ⟨l, member, path⟩ := located "site/collections/blog/post.yaml" (by simp)
    exact .blueprint rfl member (by rw [path]; decide +kernel) (.notText (by decide +kernel))
  have tag : c.Spoilt mostlySpoilt ["site", "taxonomies", "tags", "tag.yaml"] := by
    obtain ⟨l, member, path⟩ := located "site/taxonomies/tags/tag.yaml" (by simp)
    have text : (Yaml.parse "only a text").any (fun v => v.asString?.isSome) = true := by
      decide +kernel
    obtain ⟨v, parses, scalar⟩ := (Option.any_eq_true _ _).1 text
    have noMapping : ∀ m, v ≠ .mapping m := by
      rintro m rfl
      nomatch scalar
    exact .blueprint rfl member (by rw [path]; decide +kernel)
      (.noMapping (by decide +kernel) parses noMapping)
  have quiet : c.Spoilt mostlySpoilt ["quiet.php"] :=
    .script rfl (found "quiet.php" (by simp)) (by decide +kernel)
      (@ComputedField.Spoilt.unmentioned _ "<?php echo 1;" (by decide +kernel) (by decide +kernel))
  have broken : c.Spoilt mostlySpoilt ["broken.php"] := by
    have refused : (Script.parse? "<?php Collection::computed(").isNone = true := by decide +kernel
    exact .script rfl (found "broken.php" (by simp)) (by decide +kernel)
      (.malformed (by decide +kernel) (Option.isNone_iff_eq_none.1 refused))
  have spoilt : ∀ p ∈ gone, c.Spoilt mostlySpoilt p := by simp [gone, post, tag, quiet, broken]
  exact ⟨spoilt, (spoilt_cost_only_themselves c wf free spoilt).2.1 [] (by simp) (.fields .global),
    by decide +kernel⟩

end Session

end BlueprintSchema
