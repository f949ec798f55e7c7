import BlueprintSchema.Field
import BlueprintSchema.Proofs.Binary64.Saturation
import BlueprintSchema.Proofs.Text.Trimming

/-! How many related items a field holds, given as an integer or as a numeral of any length. Within 64
bits both count for what they say; beyond, an integer counts for nothing and a numeral at most for an
end of the range, so neither is ever taken for one. Main statement: `Field.maxItems_whole`. -/

namespace BlueprintSchema.Field

open Binary64

inductive Numeral : List Char → Int → Prop
  | bare {ds : List Char} (nonempty : ds ≠ []) (digits : ∀ c ∈ ds, c.isDigit = true) :
      Numeral ds (Nat.ofDigitChars 10 ds 0)
  | plus {ds : List Char} (nonempty : ds ≠ []) (digits : ∀ c ∈ ds, c.isDigit = true) :
      Numeral ('+' :: ds) (Nat.ofDigitChars 10 ds 0)
  | minus {ds : List Char} (nonempty : ds ≠ []) (digits : ∀ c ∈ ds, c.isDigit = true) :
      Numeral ('-' :: ds) (-(Nat.ofDigitChars 10 ds 0 : Int))

inductive Sign (n : Int) : List Char → Prop
  | none (notNegative : 0 ≤ n) : Sign n []
  | plus (notNegative : 0 ≤ n) : Sign n ['+']
  | minus (notPositive : n ≤ 0) : Sign n ['-']

variable {s ds : List Char} {v n : Int}

theorem natOfDigits_eq (ds : List Char) : natOfDigits ds = Nat.ofDigitChars 10 ds 0 := by
  unfold natOfDigits Nat.ofDigitChars
  refine congrArg (fun step => List.foldl step 0 ds) ?_
  funext n c
  rw [Nat.mul_comm]
  rfl

theorem ofDigitChars_zeros (zeros : Nat) :
    Nat.ofDigitChars 10 (List.replicate zeros '0') 0 = 0 := by
  induction zeros with
  | zero => rfl
  | succ zeros ih => exact ih

theorem Sign.numeral {sign : List Char} (signed : Sign n sign) (zeros : Nat) :
    Numeral (sign ++ (List.replicate zeros '0' ++ Nat.toDigits 10 n.natAbs)) n := by
  have nonempty : List.replicate zeros '0' ++ Nat.toDigits 10 n.natAbs ≠ [] := by
    simp [Nat.toDigits_ne_nil]
  have digits : ∀ c ∈ List.replicate zeros '0' ++ Nat.toDigits 10 n.natAbs, c.isDigit = true := by
    intro c member
    rcases List.mem_append.1 member with member | member
    · rw [List.eq_of_mem_replicate member]
      decide
    · exact Nat.isDigit_of_mem_toDigits (by decide) (by decide) member
  have value : Nat.ofDigitChars 10 (List.replicate zeros '0' ++ Nat.toDigits 10 n.natAbs) 0 =
      n.natAbs := by
    rw [Nat.ofDigitChars_append, ofDigitChars_zeros,
      Nat.ofDigitChars_toDigits (by decide) (by decide)]
  cases signed with
  | none notNegative =>
    have numeral := Numeral.bare nonempty digits
    rwa [value, Int.natAbs_of_nonneg notNegative] at numeral
  | plus notNegative =>
    have numeral := Numeral.plus nonempty digits
    rwa [value, Int.natAbs_of_nonneg notNegative] at numeral
  | minus notPositive =>
    have numeral := Numeral.minus nonempty digits
    rwa [value, Int.ofNat_natAbs_of_nonpos notPositive, Int.neg_neg] at numeral

theorem Numeral.takeSign (numeral : Numeral s v) : ∃ negative ds,
    takeSign s = (negative, ds) ∧ ds ≠ [] ∧ ds.all Char.isDigit = true ∧
      v = if negative then -(natOfDigits ds : Int) else natOfDigits ds := by
  cases numeral with
  | bare nonempty digits =>
    refine ⟨false, s, ?_, nonempty, List.all_eq_true.2 digits, by rw [natOfDigits_eq]; rfl⟩
    unfold Binary64.takeSign
    split
    · exact absurd (digits '-' List.mem_cons_self) (by decide)
    · exact absurd (digits '+' List.mem_cons_self) (by decide)
    · rfl
  | @plus ds nonempty digits =>
    exact ⟨false, ds, rfl, nonempty, List.all_eq_true.2 digits, by rw [natOfDigits_eq]; rfl⟩
  | @minus ds nonempty digits =>
    exact ⟨true, ds, rfl, nonempty, List.all_eq_true.2 digits, by rw [natOfDigits_eq]; rfl⟩

theorem int64?_of_numeral (numeral : Numeral s v) :
    int64? s = if int64Min ≤ v ∧ v ≤ int64Max then some v else none := by
  obtain ⟨negative, ds, split, nonempty, digits, rfl⟩ := numeral.takeSign
  simp [int64?, split, nonempty, digits]

theorem unsignedDecimal?_of_digits (nonempty : ds ≠ []) (digits : ds.all Char.isDigit = true) :
    unsignedDecimal? ds = some (natOfDigits ds, 0) := by
  have whole : ds.takeWhile Char.isDigit = ds :=
    List.takeWhile_eq_self_iff.2 (List.all_eq_true.1 digits)
  have rest : ds.dropWhile Char.isDigit = [] :=
    List.dropWhile_eq_nil_iff.2 (List.all_eq_true.1 digits)
  simp [unsignedDecimal?, whole, rest, nonempty, exponent?]

theorem numeric?_of_beyond (numeral : Numeral s v) (beyond : ¬ (int64Min ≤ v ∧ v ≤ int64Max))
    (found : numeric? s = some n) : n = int64Min ∨ n = int64Max := by
  have notWhole := int64?_of_numeral numeral
  rw [if_neg beyond] at notWhole
  obtain ⟨negative, ds, split, nonempty, digits, rfl⟩ := numeral.takeSign
  have large : twoTo 63 ≤ natOfDigits ds := by
    rw [int64Min, int64Max] at beyond
    cases negative <;> simp only [if_true, if_false, Bool.false_eq_true] at beyond <;> omega
  have read : ofText? s = some (ofDecimal negative (natOfDigits ds) 0) := by
    rw [ofText?, split]
    dsimp only
    rw [unsignedDecimal?_of_digits nonempty digits]
    rfl
  rw [numeric?, notWhole, read] at found
  dsimp only at found
  split at found
  · next finite =>
    rw [toInt64_ofDecimal large finite] at found
    obtain rfl := Option.some.inj found
    cases negative
    · exact .inr rfl
    · exact .inl rfl
  · exact absurd found.symm (Option.some_ne_none n)

theorem numeric?_of_within (numeral : Numeral s v) (least : int64Min ≤ v) (most : v ≤ int64Max) :
    numeric? s = some v := by
  rw [numeric?, int64?_of_numeral numeral, if_pos ⟨least, most⟩]

theorem Numeral.isBlank_eq_false (numeral : Numeral s v) : ∀ c ∈ s, Text.isBlank c = false := by
  have digit : ∀ c : Char, c.isDigit = true → Text.isBlank c = false := by
    intro c digit
    have range : 48 ≤ c.toNat ∧ c.toNat ≤ 57 := by
      simpa [Char.isDigit, UInt32.le_iff_toNat_le] using digit
    simp [Text.isBlank]
    omega
  cases numeral with
  | bare _ digits => exact fun c member => digit c (digits c member)
  | plus _ digits =>
    intro c member
    rcases List.mem_cons.1 member with rfl | member
    · decide
    · exact digit c (digits c member)
  | minus _ digits =>
    intro c member
    rcases List.mem_cons.1 member with rfl | member
    · decide
    · exact digit c (digits c member)

theorem Numeral.ne_nil (numeral : Numeral s v) : s ≠ [] := by
  cases numeral with
  | bare nonempty _ => exact nonempty
  | plus _ _ | minus _ _ => nofun

theorem Numeral.trimChars {left right : List Char} (numeral : Numeral s v)
    (blank : ∀ c ∈ left ++ right, Text.isBlank c = true) :
    Text.trimChars (left ++ s ++ right) = s :=
  Text.trimChars_between (List.head?_eq_some_head numeral.ne_nil)
    (numeral.isBlank_eq_false _ (List.head_mem _)) (List.getLast?_eq_some_getLast numeral.ne_nil)
    (numeral.isBlank_eq_false _ (List.getLast_mem _)) (List.all_eq_true.2 blank)

/-- Whole numbers count for what they say as far as 64 bits go, written in whatever way. A numeral of
any length makes a field hold at most one item exactly if it spells one. -/
theorem maxItems_whole :
    (∀ (f : Field) (n : Int), -2 ^ 63 ≤ n → n < 2 ^ 63 →
      f.config.get? "max_items" = some (.int n) → f.maxItems = some n) ∧
    (∀ (f : Field) (n : Int) (sign left right : List Char) (zeros : Nat), -2 ^ 63 ≤ n → n < 2 ^ 63 →
      Sign n sign → (∀ c ∈ left ++ right, Text.isBlank c = true) →
      f.config.get? "max_items" = some (.string (.ofList (left ++
        (sign ++ (List.replicate zeros '0' ++ Nat.toDigits 10 n.natAbs)) ++ right))) →
      f.maxItems = some n) ∧
    (∀ (f : Field) (s : String) (v : Int), Numeral (Text.trimChars s.toList) v →
      f.config.get? "max_items" = some (.string s) → (f.isSingle = true ↔ v = 1)) ∧
    ∀ (f : Field) (n : Int), 2 ^ 63 ≤ n → f.config.get? "max_items" = some (.int n) →
      f.maxItems = none := by
  have least : int64Min = -2 ^ 63 := rfl
  have most : int64Max = 2 ^ 63 - 1 := rfl
  refine ⟨?_, ?_, ?_, ?_⟩
  · intro f n lower upper given
    simp only [maxItems, given]
    rw [if_pos (by omega)]
  · intro f n sign left right zeros lower upper signed blank given
    have numeral := signed.numeral zeros
    simp only [maxItems, given, String.toList_ofList]
    rw [numeral.trimChars blank, numeric?_of_within numeral (by omega) (by omega)]
  · intro f s v numeral given
    simp only [isSingle, maxItems, given, beq_iff_eq]
    by_cases within : int64Min ≤ v ∧ v ≤ int64Max
    · rw [numeric?_of_within numeral within.1 within.2, Option.some_inj]
    · constructor
      · intro one
        rcases numeric?_of_beyond numeral within one with h | h <;> omega
      · rintro rfl
        exact absurd ⟨by omega, by omega⟩ within
  · intro f n upper given
    simp only [maxItems, given]
    rw [if_neg (by omega)]

theorem ends_of_range_and_beyond :
    let holding (v : Yaml.Value) : Field := ⟨"hero", "assets", .ofList [("max_items", v)]⟩
    let least := ['\u00A0'] ++ (['-'] ++ (List.replicate 3 '0' ++
      Nat.toDigits 10 (-2 ^ 63 : Int).natAbs)) ++ [' ']
    (holding (.int (2 ^ 63 - 1))).maxItems = some (2 ^ 63 - 1) ∧
    String.ofList least = "\u00A0-0009223372036854775808 " ∧
    (holding (.string (.ofList least))).maxItems = some (-2 ^ 63) ∧
    Numeral (Text.trimChars " 18446744073709551617".toList) (2 ^ 64 + 1) ∧
    ((holding (.string " 18446744073709551617")).isSingle = true ↔ (2 ^ 64 + 1 : Int) = 1) ∧
    (holding (.int (2 ^ 64 - 1))).maxItems = none := by
  intro holding least
  have given : ∀ v, (holding v).config.get? "max_items" = some v := fun _ => rfl
  have numeral : Numeral (Text.trimChars " 18446744073709551617".toList) (2 ^ 64 + 1) :=
    .bare (by decide) (List.all_eq_true.1 (by decide))
  obtain ⟨integers, numerals, singles, beyond⟩ := maxItems_whole
  exact ⟨integers _ _ (by decide) (by decide) (given _), by decide,
    numerals _ _ _ _ _ 3 (by decide) (by decide) (.minus (by decide))
      (List.all_eq_true.1 (by decide)) (given _), numeral,
    singles _ _ _ numeral (given _), beyond _ _ (by decide) (given _)⟩

end BlueprintSchema.Field
