import BlueprintSchema.Text.Basic
import BlueprintSchema.Text.Blank
import Mathlib.Data.List.TakeWhile

/-! Text without blanks at its ends, and without backslashes at its start. Nothing is left of text by
the first only if it is all blank; and if anything is left of it by both, the second alone leaves more
than blanks. Main statements: `Text.trimChars_eq_nil_iff` and `Text.dropWhile_not_blank`. -/

namespace BlueprintSchema.Text

variable {s front : List Char} {c d : Char}

theorem dropEndWhile_append_blank (h : s.all isBlank = true) :
    dropEndWhile isBlank (front ++ s) = dropEndWhile isBlank front := by
  have blank : ∀ c ∈ s.reverse, isBlank c = true :=
    fun c member => List.all_eq_true.1 h c (List.mem_reverse.1 member)
  rw [dropEndWhile, List.reverse_append, List.dropWhile_append_of_pos blank, ← dropEndWhile]

theorem dropEndWhile_eq_self (last : s.getLast? = some d) (hd : isBlank d = false) :
    dropEndWhile isBlank s = s := by
  obtain ⟨front, rfl⟩ := List.getLast?_eq_some_iff.1 last
  simp [dropEndWhile, hd]

theorem trimChars_between {left right : List Char} (first : s.head? = some c)
    (hc : isBlank c = false) (last : s.getLast? = some d) (hd : isBlank d = false)
    (blank : (left ++ right).all isBlank = true) : trimChars (left ++ s ++ right) = s := by
  rw [List.all_append, Bool.and_eq_true] at blank
  obtain ⟨r, rfl⟩ := List.head?_eq_some_iff.1 first
  rw [trimChars, List.append_assoc, List.dropWhile_append_of_pos (List.all_eq_true.1 blank.1),
    List.cons_append, List.dropWhile_cons_of_neg (by simpa using hc), ← List.cons_append,
    dropEndWhile_append_blank blank.2, dropEndWhile_eq_self last hd]

theorem dropWhile_eq_self_of_head? (visible : ∀ c ∈ s.head?, isBlank c = false) :
    s.dropWhile isBlank = s := by
  cases s with
  | nil => rfl
  | cons c s => exact List.dropWhile_cons_of_neg (by simpa using visible c rfl)

theorem dropEndWhile_append_of_visible (visible : ∀ c ∈ front, isBlank c = false) :
    dropEndWhile isBlank (front ++ s) = front ++ dropEndWhile isBlank s := by
  have stays : front.reverse.dropWhile isBlank = front.reverse :=
    dropWhile_eq_self_of_head? fun c first => visible c (List.mem_reverse.1 (List.mem_of_mem_head? first))
  rw [dropEndWhile, dropEndWhile, List.reverse_append, List.dropWhile_append]
  split
  · next none => simp [stays, List.isEmpty_iff.1 none]
  · simp

theorem trimChars_append_of_visible (before : ∀ c ∈ front, isBlank c = false)
    (visible : ∀ c ∈ s.head?, isBlank c = false) : trimChars (front ++ s) = front ++ trimChars s := by
  have first : ∀ c ∈ (front ++ s).head?, isBlank c = false := by
    cases front with
    | nil => exact visible
    | cons d front => exact fun c first => before c (Option.mem_some.1 first ▸ List.mem_cons_self)
  rw [trimChars, trimChars, dropWhile_eq_self_of_head? first, dropWhile_eq_self_of_head? visible,
    dropEndWhile_append_of_visible before]

theorem trimChars_eq_nil_iff : trimChars s = [] ↔ s.all isBlank = true := by
  rw [trimChars, dropEndWhile, List.reverse_eq_nil_iff, List.dropWhile_eq_nil_iff, List.all_eq_true]
  constructor
  · intro rest
    by_contra some
    obtain ⟨c, r, split⟩ := List.exists_cons_of_ne_nil (mt List.dropWhile_eq_nil_iff.1 some)
    have inked : ¬ isBlank c = true := by
      have := List.head?_dropWhile_not isBlank s
      rw [split] at this
      simpa using this
    exact inked (rest c (by rw [split]; simp))
  · intro blank
    rw [List.dropWhile_eq_nil_iff.2 blank]
    nofun

theorem dropWhile_not_blank (h : (trimChars s).dropWhile (· == '\\') ≠ []) :
    (s.dropWhile (· == '\\')).all isBlank = false := by
  rw [← Bool.not_eq_true]
  intro blank
  refine h ?_
  have dropped : ∀ c ∈ s.takeWhile (· == '\\'), (c == '\\') = true :=
    fun c member => List.mem_takeWhile_imp (p := (· == '\\')) member
  have split := List.takeWhile_append_dropWhile (p := (· == '\\')) (l := s)
  generalize s.dropWhile (· == '\\') = rest at split blank
  generalize s.takeWhile (· == '\\') = front at split dropped
  subst split
  have slashes : ∀ c ∈ front, c = '\\' := fun c member => beq_iff_eq.1 (dropped c member)
  -- With a backslash in front, the blanks before it are none and those behind are dropped.
  cases front with
  | nil => rw [List.nil_append, trimChars_eq_nil_iff.2 blank, List.dropWhile_nil]
  | cons c front =>
    have inked : isBlank c = false := slashes c List.mem_cons_self ▸ by decide
    rw [trimChars, List.cons_append, List.dropWhile_cons_of_neg (by simpa using inked),
      ← List.cons_append, dropEndWhile_append_blank blank]
    obtain ⟨d, last⟩ : ∃ d, (c :: front).getLast? = some d := ⟨_, List.getLast?_cons⟩
    have inked' : isBlank d = false := slashes d (List.mem_of_getLast? last) ▸ by decide
    rw [dropEndWhile_eq_self last inked', List.dropWhile_eq_nil_iff]
    exact dropped

end BlueprintSchema.Text
