import BlueprintSchema.FileTree

/-! Paths as lists of names. Joining a name to a path adds one step at its end and makes it the last
name, whether or not the path ends with a slash; a name is cut at its last dot. Main statements:
`FileTree.steps_join`, `Path.fileName?_join` and `Path.splitName_eq_iff`. -/

namespace BlueprintSchema

namespace Text

theorem splitAtChar_ne_nil (c : Char) (xs : List Char) : splitAtChar c xs ≠ [] := by
  cases xs with
  | nil => simp [splitAtChar]
  | cons x xs =>
    unfold splitAtChar
    split
    · simp
    · split <;> simp

theorem splitAtChar_append_cons (c : Char) (xs ys : List Char) :
    splitAtChar c (xs ++ c :: ys) = splitAtChar c xs ++ splitAtChar c ys := by
  induction xs with
  | nil => simp [splitAtChar]
  | cons x xs ih =>
    rw [List.cons_append, splitAtChar, splitAtChar, ih]
    by_cases h : x = c
    · simp [h]
    · cases hs : splitAtChar c xs with
      | nil => exact absurd hs (splitAtChar_ne_nil c xs)
      | cons piece pieces => simp [h]

theorem splitAtChar_of_not_mem {c : Char} {xs : List Char} (h : c ∉ xs) :
    splitAtChar c xs = [xs] := by
  induction xs with
  | nil => rfl
  | cons x xs ih =>
    have other : x ≠ c := fun same => h (same ▸ List.mem_cons_self)
    rw [splitAtChar, if_neg other, ih fun later => h (List.mem_cons_of_mem _ later)]

end Text

namespace Path

structure IsName (name : String) : Prop where
  ne_empty : name ≠ ""
  ne_dot : name ≠ "."
  ne_dots : name ≠ ".."
  no_slash : '/' ∉ name.toList

instance (name : String) : Decidable (IsName name) :=
  decidable_of_iff (name ≠ "" ∧ name ≠ "." ∧ name ≠ ".." ∧ '/' ∉ name.toList)
    ⟨fun ⟨a, b, c, d⟩ => ⟨a, b, c, d⟩, fun ⟨a, b, c, d⟩ => ⟨a, b, c, d⟩⟩

def segments (path : String) : List String :=
  ((Text.splitAtChar '/' path.toList).filter fun n => !n.isEmpty).map String.ofList

def endsWithSlash (path : String) : Bool := path.toList.getLast? = some '/'

theorem names_eq_filter (path : String) : names path = (segments path).filter (· ≠ ".") := by
  rw [names, segments, List.filter_map, List.filter_filter]
  congr 1
  refine List.filter_congr fun n _ => ?_
  have dot : String.ofList n = "." ↔ n = ['.'] := by
    rw [← String.toList_inj, String.toList_ofList]
    rfl
  by_cases h : n = ['.'] <;> simp [h, dot]

theorem splitName_eq_iff {name stem extension : String} :
    splitName name = (stem, some extension) ↔
      name = stem ++ "." ++ extension ∧ stem ≠ "" ∧ '.' ∉ extension.toList := by
  have toList_eq : name = stem ++ "." ++ extension ↔
      name.toList.reverse = extension.toList.reverse ++ '.' :: stem.toList.reverse := by
    rw [← String.toList_inj, ← List.reverse_inj]
    simp
  rw [toList_eq]
  simp only [splitName]
  constructor
  · intro h
    split at h
    · next rest split =>
      split at h
      · nomatch h
      · next filled =>
        obtain ⟨rfl, rfl⟩ : String.ofList rest.reverse = stem ∧
            String.ofList (name.toList.reverse.takeWhile (· != '.')).reverse = extension := by
          simpa using h
        refine ⟨?_, by simpa using filled, ?_⟩
        · rw [String.toList_ofList, String.toList_ofList, List.reverse_reverse, List.reverse_reverse,
            ← split, List.takeWhile_append_dropWhile]
        · rw [String.toList_ofList, List.mem_reverse]
          intro dot
          have other := List.all_eq_true.1 List.all_takeWhile _ dot
          exact absurd other (by decide)
    · nomatch h
  · rintro ⟨letters, filled, undotted⟩
    have pass : ∀ c ∈ extension.toList.reverse, (c != '.') = true := by
      intro c member
      rw [bne_iff_ne]
      rintro rfl
      exact undotted (List.mem_reverse.1 member)
    have after : name.toList.reverse.takeWhile (· != '.') = extension.toList.reverse := by
      rw [letters, List.takeWhile_append_of_pos pass]
      simp
    have before : name.toList.reverse.dropWhile (· != '.') = '.' :: stem.toList.reverse := by
      rw [letters, List.dropWhile_append_of_pos pass]
      simp
    simp [after, before, filled]

section Join

variable {base name : String}

theorem toList_join (named : IsName name) (filled : base ≠ "") :
    (join base name).toList =
      base.toList ++ if endsWithSlash base then name.toList else '/' :: name.toList := by
  have relative : isAbsolute name = false := by
    rw [isAbsolute, beq_eq_false_iff_ne]
    exact fun head => named.no_slash (List.mem_of_head? head)
  have nonempty : base.isEmpty = false := by simpa using filled
  by_cases slash : base.toList.getLast? = some '/' <;>
    simp [join, relative, nonempty, endsWithSlash, slash]

theorem segments_of_isName (named : IsName name) :
    ((Text.splitAtChar '/' name.toList).filter fun n => !n.isEmpty).map String.ofList = [name] := by
  have filled : name.toList ≠ [] := by simpa using named.ne_empty
  rw [Text.splitAtChar_of_not_mem named.no_slash]
  simp [filled]

theorem segments_join (named : IsName name) (filled : base ≠ "") :
    segments (join base name) = segments base ++ [name] := by
  have added := segments_of_isName named
  rw [segments, toList_join named filled]
  by_cases slash : endsWithSlash base = true
  -- The empty part after the slash does not count.
  · obtain ⟨front, split⟩ : ∃ front, base.toList = front ++ ['/'] := by
      have last : base.toList.getLast? = some '/' := by simpa [endsWithSlash] using slash
      obtain ⟨front, split⟩ := List.getLast?_eq_some_iff.1 last
      exact ⟨front, split⟩
    have segs : segments base =
        ((Text.splitAtChar '/' front).filter fun n => !n.isEmpty).map String.ofList := by
      rw [segments, split, Text.splitAtChar_append_cons]
      simp [Text.splitAtChar]
    rw [if_pos slash, split, List.append_assoc, List.singleton_append,
      Text.splitAtChar_append_cons, List.filter_append, List.map_append, added, segs]
  · rw [if_neg slash, Text.splitAtChar_append_cons, List.filter_append, List.map_append, added]
    rfl

theorem not_endsWithSlash_join (named : IsName name) (filled : base ≠ "") :
    endsWithSlash (join base name) = false := by
  have last : name.toList.getLast? ≠ some '/' :=
    fun last => named.no_slash (List.mem_of_getLast? last)
  have nonempty : name.toList ≠ [] := by simpa using named.ne_empty
  obtain ⟨c, cs, letters⟩ := List.exists_cons_of_ne_nil nonempty
  rw [endsWithSlash, decide_eq_false_iff_not, toList_join named filled]
  split <;> simpa [letters, List.getLast?_append, List.getLast?_cons] using last

theorem join_ne_empty (named : IsName name) (filled : base ≠ "") : join base name ≠ "" := by
  intro empty
  have segs := segments_join named filled
  rw [empty] at segs
  simp [segments, Text.splitAtChar] at segs

theorem fileName?_join (named : IsName name) (filled : base ≠ "") :
    fileName? (join base name) = some name := by
  rw [fileName?, names_eq_filter, segments_join named filled, List.filter_append]
  have kept : [name].filter (· ≠ ".") = [name] := by simp [named.ne_dot]
  rw [kept, List.getLast?_concat]
  split
  · next dots => exact absurd (Option.some.inj dots) named.ne_dots
  · rfl

end Join

end Path

namespace FileTree

theorem steps_eq (path : String) :
    steps path = Path.segments path ++ if Path.endsWithSlash path then ["."] else [] := by
  simp [steps, Path.segments, Path.endsWithSlash]

theorem steps_join {base name : String} (named : Path.IsName name) (filled : base ≠ "") :
    steps (Path.join base name) = Path.segments base ++ [name] := by
  rw [steps_eq, Path.segments_join named filled, Path.not_endsWithSlash_join named filled]
  simp

end FileTree

end BlueprintSchema
