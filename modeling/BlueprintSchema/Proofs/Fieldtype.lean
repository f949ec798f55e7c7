import BlueprintSchema.Fieldtype
import BlueprintSchema.Proofs.Lists
import Mathlib.Data.List.TakeWhile

/-! What the type of a field depends on: its kind, for a kind that relates to other objects whether at
most one is held, and for a kind that is not built in the class that is given for it. Nothing else of a
field or of the given classes matters. Main statement: `Fieldtype.typeOf_depends_on_kind`. -/

namespace BlueprintSchema

theorem bareClass_spec (c : String) : (∃ slashes, c.toList =
    List.replicate slashes '\\' ++ (bareClass c).toList) ∧ (bareClass c).toList.head? ≠ some '\\' := by
  rw [bareClass, Text.dropLeading, String.toList_ofList]
  constructor
  · refine ⟨(c.toList.takeWhile (· == '\\')).length, ?_⟩
    have slashes : ∀ d ∈ c.toList.takeWhile (· == '\\'), d = '\\' :=
      fun d member => beq_iff_eq.1 (List.mem_takeWhile_imp (p := (· == '\\')) member)
    rw [← List.eq_replicate_of_mem slashes, List.takeWhile_append_dropWhile]
  · intro first
    have other := List.head?_dropWhile_not (· == '\\') c.toList
    rw [first] at other
    nomatch other

namespace Fieldtype

def builtinKinds : List String := builtin.map (·.1)

def relationshipKinds : List String := relationshipClasses.map (·.1)

theorem distinct_builtin : builtin.Pairwise fun a b => a.1 ≠ b.1 := by
  decide

/-- A rule fits its kind: one that counts objects if the kind relates to them, else a type that does not
allow null. -/
def Rule.fits (kind : String) : Rule → Bool
  | .fixed t => !relationshipKinds.contains kind && !t.isNullable
  | .relationship _ => relationshipKinds.contains kind

theorem fits_of_mem_builtin : ∀ e ∈ builtin, e.2.fits e.1 = true := by
  decide

variable {kind : String}

theorem lookup_eq_none_iff : builtin.lookup kind = none ↔ kind ∉ builtinKinds := by
  rw [List.lookup_eq_none_iff, builtinKinds, List.mem_map]
  constructor
  · rintro other ⟨e, member, rfl⟩
    simpa using other e member
  · intro unknown e member
    exact bne_iff_ne.2 fun same => unknown ⟨e, member, same.symm⟩

theorem lookup_of_relationship (related : kind ∈ relationshipKinds) :
    ∃ c, builtin.lookup kind = some (.relationship c) := by
  obtain ⟨⟨_, c⟩, member, rfl⟩ := List.mem_map.1 related
  refine ⟨c, (lookup_eq_some_iff_mem distinct_builtin).2 ?_⟩
  exact List.mem_append_right _ (List.mem_map.2 ⟨_, member, rfl⟩)

theorem lookup_of_fixed (known : kind ∈ builtinKinds) (unrelated : kind ∉ relationshipKinds) :
    ∃ t, builtin.lookup kind = some (.fixed t) ∧ t.isNullable = false := by
  obtain ⟨⟨_, rule⟩, member, rfl⟩ := List.mem_map.1 known
  have fits := fits_of_mem_builtin _ member
  have found := (lookup_eq_some_iff_mem distinct_builtin).2 member
  cases rule with
  | fixed t => exact ⟨t, found, by simpa [Rule.fits, unrelated] using fits⟩
  | relationship c => exact absurd (List.contains_iff_mem.1 fits) unrelated

theorem mem_builtinKinds_of_relationship (related : kind ∈ relationshipKinds) :
    kind ∈ builtinKinds := by
  obtain ⟨c, found⟩ := lookup_of_relationship related
  by_contra unknown
  rw [lookup_eq_none_iff.2 unknown] at found
  nomatch found

theorem typeOf_of_relationship (related : kind ∈ relationshipKinds) : ∃ c, ∀ custom (f : Field),
    f.kind = kind → typeOf custom f = relationshipType f c := by
  obtain ⟨c, found⟩ := lookup_of_relationship related
  refine ⟨c, fun custom f same => ?_⟩
  rw [typeOf, same, found]

theorem typeOf_of_fixed (known : kind ∈ builtinKinds) (unrelated : kind ∉ relationshipKinds) :
    ∃ t : SemanticType, t.isNullable = false ∧
      ∀ custom (f : Field), f.kind = kind → typeOf custom f = t := by
  obtain ⟨t, found, notNull⟩ := lookup_of_fixed known unrelated
  refine ⟨t, notNull, fun custom f same => ?_⟩
  rw [typeOf, same, found]

theorem typeOf_of_unknown {f : Field} (unknown : f.kind ∉ builtinKinds) (custom : Dict String) :
    typeOf custom f = ((custom.get? f.kind).map SemanticType.instanceOf).getD .mixed := by
  rw [typeOf, lookup_eq_none_iff.2 unknown]
  cases custom.get? f.kind <;> rfl

theorem relationshipType_eq_iff {f g : Field} (c : String) :
    relationshipType f c = relationshipType g c ↔ f.isSingle = g.isSingle := by
  unfold relationshipType
  cases f.isSingle <;> cases g.isSingle <;> simp [SemanticType.nullable, SemanticType.listOf]

theorem isNullable_relationshipType (f : Field) (c : String) :
    (relationshipType f c).isNullable = f.isSingle := by
  unfold relationshipType
  cases f.isSingle <;> rfl

/-- Two fields of one kind have different types only if the kind relates to other objects and one of
them holds at most one where the other may hold more. Given classes change no built-in kind and decide
every other one. Null is allowed where nothing is known, and where at most one object is held. -/
theorem typeOf_depends_on_kind :
    (∀ (custom : Dict String) (f g : Field), f.kind = g.kind →
      (typeOf custom f ≠ typeOf custom g ↔
        f.kind ∈ relationshipKinds ∧ f.isSingle ≠ g.isSingle)) ∧
    (∀ (custom custom' : Dict String) (f : Field), f.kind ∈ builtinKinds →
      typeOf custom f = typeOf custom' f) ∧
    (∀ (custom : Dict String) (f : Field), f.kind ∉ builtinKinds →
      (∀ c, custom.get? f.kind = some c → ∃ slashes bare, c.toList =
        List.replicate slashes '\\' ++ bare.toList ∧ bare.toList.head? ≠ some '\\' ∧
          typeOf custom f = .object bare) ∧
      (custom.get? f.kind = none → typeOf custom f = .mixed)) ∧
    ∀ (custom : Dict String) (f : Field), (typeOf custom f).isNullable = true ↔
      (f.kind ∉ builtinKinds ∧ custom.get? f.kind = none) ∨
        (f.kind ∈ relationshipKinds ∧ f.isSingle = true) := by
  refine ⟨fun custom f g same => ?_, fun custom custom' f known => ?_, fun custom f unknown => ?_,
    fun custom f => ?_⟩
  · by_cases related : f.kind ∈ relationshipKinds
    · obtain ⟨c, type⟩ := typeOf_of_relationship related
      rw [type custom f rfl, type custom g same.symm, ne_eq, relationshipType_eq_iff]
      simp [related]
    · have equal : typeOf custom f = typeOf custom g := by
        by_cases known : f.kind ∈ builtinKinds
        · obtain ⟨t, -, type⟩ := typeOf_of_fixed known related
          rw [type custom f rfl, type custom g same.symm]
        · rw [typeOf_of_unknown known, typeOf_of_unknown (same ▸ known), same]
      simp [equal, related]
  · by_cases related : f.kind ∈ relationshipKinds
    · obtain ⟨c, type⟩ := typeOf_of_relationship related
      rw [type custom f rfl, type custom' f rfl]
    · obtain ⟨t, -, type⟩ := typeOf_of_fixed known related
      rw [type custom f rfl, type custom' f rfl]
  · rw [typeOf_of_unknown unknown]
    constructor
    · intro c given
      obtain ⟨⟨slashes, split⟩, bare⟩ := bareClass_spec c
      exact ⟨slashes, bareClass c, split, bare, by rw [given]; rfl⟩
    · intro absent
      rw [absent]
      rfl
  · by_cases related : f.kind ∈ relationshipKinds
    · obtain ⟨c, type⟩ := typeOf_of_relationship related
      rw [type custom f rfl, isNullable_relationshipType]
      simp [related, mem_builtinKinds_of_relationship related]
    · by_cases known : f.kind ∈ builtinKinds
      · obtain ⟨t, notNull, type⟩ := typeOf_of_fixed known related
        rw [type custom f rfl, notNull]
        simp [related, known]
      · rw [typeOf_of_unknown known]
        cases custom.get? f.kind <;>
          simp [related, known, SemanticType.instanceOf, SemanticType.isNullable]

theorem asset_alone_and_given_map :
    let custom : Dict String := .ofList [("assets", "App\\Image"), ("map", "\\\\App\\Map")]
    let one : Field := ⟨"hero", "assets", .ofList [("max_items", .int 1)]⟩
    let many : Field := ⟨"gallery", "assets", ∅⟩
    let place : Field := ⟨"place", "map", ∅⟩
    one.kind = many.kind ∧ typeOf custom one ≠ typeOf custom many ∧
      one.kind ∈ builtinKinds ∧ typeOf custom one = typeOf ∅ one ∧
      place.kind ∉ builtinKinds ∧ custom.get? place.kind = some "\\\\App\\Map" ∧
      (∃ slashes bare, "\\\\App\\Map".toList = List.replicate slashes '\\' ++ bare.toList ∧
        bare.toList.head? ≠ some '\\' ∧ typeOf custom place = .object bare) ∧
      (∅ : Dict String).get? place.kind = none ∧ typeOf ∅ place = .mixed ∧
      (typeOf custom one).isNullable = true := by
  intro custom one many place
  obtain ⟨differ, settled, given, nullable⟩ := typeOf_depends_on_kind
  have related : one.kind ∈ relationshipKinds := by decide
  have known : one.kind ∈ builtinKinds := by decide
  have unknown : place.kind ∉ builtinKinds := by decide
  have class_ : custom.get? place.kind = some "\\\\App\\Map" := by decide
  have single : one.isSingle = true := by decide
  exact ⟨rfl, (differ custom one many rfl).2 ⟨related, by decide⟩, known, settled custom ∅ one known,
    unknown, class_, (given custom place unknown).1 _ class_, rfl, (given ∅ place unknown).2 rfl,
    (nullable custom one).2 (.inr ⟨related, single⟩)⟩

end Fieldtype

end BlueprintSchema
