import BlueprintSchema.Binary64.Decimal
import Mathlib.Algebra.Order.Ring.Nat

/-! Numbers beyond the 64-bit integers. A whole number from `2 ^ 63` on is rounded to a number whose
pattern is at least that of `2 ^ 63`, and every finite number with such a pattern is cut to the end of
the integers on its side. Main statement: `Binary64.toInt64_ofDecimal`. -/

namespace BlueprintSchema.Binary64

def overflowBits : Nat := 1086 * twoTo 52

theorem twoTo_eq (n : Nat) : twoTo n = 2 ^ n := rfl

theorem le_roundRatio (num den : Nat) : num / den ≤ roundRatio num den := by
  unfold roundRatio
  dsimp only
  split
  · exact Nat.le_succ _
  · exact Nat.le_refl _

theorem magnitudeBits_le (num den : Nat) : magnitudeBits num den ≤ infinityBits := by
  unfold magnitudeBits
  split
  · exact Nat.zero_le _
  · exact Nat.min_le_right _ _

theorem magnitudeBits_whole {m : Nat} (large : twoTo 63 ≤ m) : magnitudeBits m 1 =
    min ((m.log2 + 1022) * twoTo 52 + roundRatio m (twoTo (m.log2 - 52))) infinityBits := by
  have positive : m ≠ 0 := by
    rw [twoTo_eq] at large
    omega
  have order : 63 ≤ m.log2 := (Nat.le_log2 positive).2 large
  have one : Nat.log2 1 = 0 := by decide
  have highest : ¬ m < twoTo m.log2 := Nat.not_lt.2 (Nat.log2_self_le positive)
  have exponent : max ((m.log2 : Int) - 52) (-1074) = ((m.log2 - 52 : Nat) : Int) := by omega
  have field : (((m.log2 - 52 : Nat) : Int) + 1074).toNat = m.log2 + 1022 := by omega
  simp [magnitudeBits, positive, one, highest, exponent, field]

theorem overflowBits_le_magnitudeBits {m : Nat} (large : twoTo 63 ≤ m) :
    overflowBits ≤ magnitudeBits m 1 := by
  have positive : m ≠ 0 := by
    rw [twoTo_eq] at large
    omega
  have order : 63 ≤ m.log2 := (Nat.le_log2 positive).2 large
  have significand : twoTo 52 ≤ roundRatio m (twoTo (m.log2 - 52)) := by
    refine Nat.le_trans ?_ (le_roundRatio _ _)
    rw [twoTo_eq, twoTo_eq, Nat.le_div_iff_mul_le (Nat.two_pow_pos _), ← Nat.pow_add,
      Nat.add_sub_cancel' (by omega)]
    exact Nat.log2_self_le positive
  have exponent : 1085 * twoTo 52 ≤ (m.log2 + 1022) * twoTo 52 :=
    Nat.mul_le_mul_right _ (by omega)
  rw [magnitudeBits_whole large]
  refine Nat.le_min.2 ⟨?_, by decide⟩
  calc overflowBits = 1085 * twoTo 52 + twoTo 52 := by decide
    _ ≤ _ := Nat.add_le_add exponent significand

theorem toNat_ofMagnitude (negative : Bool) {m : Nat} (small : m < twoTo 63) :
    (ofMagnitude negative m).bits.toNat = m + if negative then twoTo 63 else 0 := by
  rw [twoTo_eq] at small
  rw [ofMagnitude, UInt64.toNat_ofNat', Nat.mod_eq_of_lt]
  rw [twoTo_eq]
  split <;> omega

theorem magnitude_ofMagnitude (negative : Bool) {m : Nat} (small : m < twoTo 63) :
    (ofMagnitude negative m).magnitude = m := by
  rw [magnitude, toNat_ofMagnitude negative small]
  cases negative with
  | false => exact Nat.mod_eq_of_lt small
  | true => rw [if_pos rfl, Nat.add_mod_right, Nat.mod_eq_of_lt small]

theorem isNegative_ofMagnitude (negative : Bool) {m : Nat} (small : m < twoTo 63) :
    (ofMagnitude negative m).isNegative = negative := by
  rw [isNegative, toNat_ofMagnitude negative small]
  cases negative with
  | false => simpa using small
  | true => simp

theorem toInt64_of_overflowBits_le {x : Binary64} (large : overflowBits ≤ x.magnitude)
    (finite : x.isFinite = true) : x.toInt64 = if x.isNegative then int64Min else int64Max := by
  have below : x.magnitude < infinityBits := of_decide_eq_true finite
  have number : x.isNaN = false := decide_eq_false (Nat.not_lt.2 (Nat.le_of_lt below))
  have field : 1086 ≤ x.magnitude / twoTo 52 :=
    (Nat.le_div_iff_mul_le (Nat.two_pow_pos 52)).2 large
  generalize hf : x.magnitude / twoTo 52 = f at field
  have whole : twoTo 63 ≤ (x.magnitude % twoTo 52 + twoTo 52) * twoTo (f - 1075) := by
    calc twoTo 63 = twoTo 52 * twoTo 11 := by decide
      _ ≤ _ := Nat.mul_le_mul (Nat.le_add_left _ _) (Nat.pow_le_pow_right (by decide) (by omega))
  have exponent : ((f : Int) - 1075).toNat = f - 1075 := by omega
  have scaled : 0 ≤ (f : Int) - 1075 := by omega
  have parts : x.parts = (x.magnitude % twoTo 52 + twoTo 52, (f : Int) - 1075) := by
    rw [Binary64.parts, hf, if_neg (by omega)]
  rw [toInt64, number, if_neg (by decide), if_neg (Nat.ne_of_lt below), parts]
  dsimp only
  rw [if_pos scaled, exponent]
  generalize (x.magnitude % twoTo 52 + twoTo 52) * twoTo (f - 1075) = w at whole
  rw [int64Min, int64Max]
  rw [twoTo_eq] at whole ⊢
  cases x.isNegative <;> simp only [if_true, if_false, Bool.false_eq_true] <;> omega

/-- A whole number that no 64-bit integer reaches is rounded to one that is cut to the end of the
integers on its side, unless it is rounded to infinity. -/
theorem toInt64_ofDecimal {negative : Bool} {m : Nat} (large : twoTo 63 ≤ m)
    (finite : (ofDecimal negative m 0).isFinite = true) :
    (ofDecimal negative m 0).toInt64 = if negative then int64Min else int64Max := by
  have positive : m ≠ 0 := by
    rw [twoTo_eq] at large
    omega
  have infinite : (infinity negative).isFinite = false := by cases negative <;> decide
  have small : magnitudeBits m 1 < twoTo 63 :=
    Nat.lt_of_le_of_lt (magnitudeBits_le m 1) (by decide)
  have rounded : ofDecimal negative m 0 = ofMagnitude negative (magnitudeBits m 1) := by
    unfold ofDecimal at finite ⊢
    rw [if_neg positive] at finite ⊢
    dsimp only at finite ⊢
    split at finite
    · rw [infinite] at finite
      nomatch finite
    · next order =>
      rw [if_neg order, if_neg (by omega), if_pos (Int.le_refl 0), ofRatio, tenTo]
      simp
  rw [rounded] at finite ⊢
  rw [toInt64_of_overflowBits_le _ finite, isNegative_ofMagnitude negative small]
  rw [magnitude_ofMagnitude negative small]
  exact overflowBits_le_magnitudeBits large

end BlueprintSchema.Binary64
