import HtmlTemplate.Number.Double
import Mathlib.Algebra.Order.Field.Power
import Mathlib.Algebra.Order.Field.Rat
import Mathlib.Tactic.Linarith
import Mathlib.Tactic.NormNum
import Mathlib.Tactic.Positivity
import Mathlib.Tactic.Ring

namespace HtmlTemplate

def signed (isNegative : Bool) (r : ℚ) : ℚ :=
  if isNegative then -r else r

theorem abs_signed (isNegative : Bool) {r : ℚ} (h : 0 ≤ r) : |signed isNegative r| = r := by
  cases isNegative with
  | true => rw [signed, if_pos rfl, abs_neg, abs_of_nonneg h]
  | false => rw [signed, if_neg Bool.false_ne_true, abs_of_nonneg h]

theorem decide_signed_neg (isNegative : Bool) {r : ℚ} (h : 0 < r) :
    decide (signed isNegative r < 0) = isNegative := by
  cases isNegative with
  | true => simpa [signed] using h
  | false => simpa [signed] using h.le

namespace Double

def place (x : Double) : Nat :=
  max x.biasedExponent 1 - 1

def ulp (x : Double) : ℚ :=
  2 ^ x.exponent

def size (x : Double) : ℚ :=
  x.significand * x.ulp

def value (x : Double) : ℚ :=
  signed x.isNegative x.size

theorem magnitude_eq (x : Double) : x.magnitude = x.place * fractionRange + x.significand := by
  have hdiv := Nat.div_add_mod x.magnitude fractionRange
  unfold place significand biasedExponent fraction
  split <;> simp only [fractionRange] at * <;> omega

theorem significand_lt (x : Double) : x.significand < 2 * fractionRange := by
  have hmod := Nat.mod_lt x.magnitude (show 0 < fractionRange by decide)
  unfold significand fraction
  split <;> omega

theorem fractionRange_le_significand {x : Double} (h : x.place ≠ 0) :
    fractionRange ≤ x.significand := by
  unfold place at h
  unfold significand
  split <;> omega

theorem exponent_eq (x : Double) : x.exponent = x.place - 1074 := by
  unfold exponent place
  omega

theorem place_le_of_isFinite {x : Double} (h : x.isFinite = true) : x.place ≤ 2045 := by
  simp only [isFinite, decide_eq_true_eq] at h
  unfold place
  omega

theorem isNarrowBelow_iff (x : Double) :
    x.isNarrowBelow = true ↔ x.significand = fractionRange ∧ x.place ≠ 0 := by
  have hmod := Nat.mod_lt x.magnitude (show 0 < fractionRange by decide)
  simp only [isNarrowBelow, Bool.and_eq_true, decide_eq_true_eq]
  unfold significand place
  unfold fraction at *
  split <;> omega

theorem ulp_pos (x : Double) : 0 < x.ulp :=
  zpow_pos (by norm_num) _

theorem size_nonneg (x : Double) : 0 ≤ x.size :=
  mul_nonneg (Nat.cast_nonneg _) x.ulp_pos.le

theorem abs_value (x : Double) : |x.value| = x.size :=
  abs_signed x.isNegative x.size_nonneg

theorem significand_pos_iff {x : Double} : 0 < x.significand ↔ x.magnitude ≠ 0 := by
  have hmagnitude := x.magnitude_eq
  have hplace := @fractionRange_le_significand x
  simp only [fractionRange] at *
  omega

theorem value_ne_zero_iff {x : Double} : x.value ≠ 0 ↔ 0 < x.significand := by
  rw [← abs_pos, abs_value, size, mul_pos_iff_of_pos_right x.ulp_pos, Nat.cast_pos]

theorem ulp_of_place_eq {x y : Double} (h : x.place = y.place) : x.ulp = y.ulp := by
  rw [ulp, ulp, exponent_eq, exponent_eq, h]

theorem ulp_of_place_lt {x y : Double} (h : x.place < y.place) : 2 * x.ulp ≤ y.ulp := by
  rw [ulp, ulp, ← zpow_one_add₀ (by norm_num : (2 : ℚ) ≠ 0)]
  apply zpow_le_zpow_right₀ (by norm_num)
  rw [exponent_eq, exponent_eq]
  omega

theorem place_cases {x y : Double} (h : x.magnitude < y.magnitude) :
    (x.place = y.place ∧ x.significand < y.significand) ∨
      (x.place < y.place ∧ fractionRange ≤ y.significand) := by
  have hx := x.magnitude_eq
  have hy := y.magnitude_eq
  have hxs := x.significand_lt
  have hys := y.significand_lt
  have hxr := @fractionRange_le_significand x
  have hyr := @fractionRange_le_significand y
  simp only [fractionRange] at *
  omega

theorem size_add_ulp_le {x y : Double} (h : x.magnitude < y.magnitude) :
    x.size + x.ulp ≤ y.size := by
  have hpos := x.ulp_pos
  unfold size
  rcases place_cases h with ⟨hplace, hsig⟩ | ⟨hplace, hsig⟩
  · rw [← ulp_of_place_eq hplace]
    have hsig : (x.significand : ℚ) + 1 ≤ y.significand := by exact_mod_cast hsig
    nlinarith
  · have hulp := ulp_of_place_lt hplace
    have hx : (x.significand : ℚ) + 1 ≤ 2 * fractionRange := by exact_mod_cast x.significand_lt
    have hy : (fractionRange : ℚ) ≤ y.significand := by exact_mod_cast hsig
    calc x.significand * x.ulp + x.ulp = (x.significand + 1) * x.ulp := by ring
      _ ≤ 2 * fractionRange * x.ulp := mul_le_mul_of_nonneg_right hx hpos.le
      _ = fractionRange * (2 * x.ulp) := by ring
      _ ≤ y.significand * y.ulp := mul_le_mul hy hulp (by linarith) (by positivity)

theorem size_congr {x y : Double} (h : x.magnitude = y.magnitude) : x.size = y.size := by
  have hexponent : x.biasedExponent = y.biasedExponent := by rw [biasedExponent, h, biasedExponent]
  have hfraction : x.fraction = y.fraction := by rw [fraction, h, fraction]
  simp only [size, ulp, significand, exponent, hexponent, hfraction]

theorem size_lt_size_iff {x y : Double} : x.size < y.size ↔ x.magnitude < y.magnitude := by
  constructor
  · intro h
    by_contra hle
    rcases (Nat.not_lt.mp hle).lt_or_eq with hlt | heq
    · linarith [size_add_ulp_le hlt, y.ulp_pos]
    · exact h.ne (size_congr heq.symm)
  · intro h
    linarith [size_add_ulp_le h, x.ulp_pos]

theorem size_add_half_ulp_le {x y : Double} (h : y.place < x.place) :
    y.size + x.ulp / 2 ≤ fractionRange * x.ulp := by
  have hpos := y.ulp_pos
  have hulp := ulp_of_place_lt h
  have hy : (y.significand : ℚ) ≤ 2 * fractionRange - 1 := by
    have hlt : (y.significand : ℚ) + 1 ≤ 2 * fractionRange := by exact_mod_cast y.significand_lt
    linarith
  have hsize : y.significand * y.ulp ≤ (2 * fractionRange - 1) * (x.ulp / 2) := by
    apply mul_le_mul hy (by linarith) hpos.le
    norm_num [fractionRange]
  unfold size
  linarith

def ulpBelow (x : Double) : ℚ :=
  if x.isNarrowBelow then x.ulp / 2 else x.ulp

theorem ulpBelow_pos (x : Double) : 0 < x.ulpBelow := by
  unfold ulpBelow
  split <;> linarith [x.ulp_pos]

theorem ulpBelow_le (x : Double) : x.ulpBelow ≤ x.ulp := by
  unfold ulpBelow
  split <;> linarith [x.ulp_pos]

theorem size_add_ulpBelow_le {x y : Double} (h : y.magnitude < x.magnitude) :
    y.size + x.ulpBelow ≤ x.size := by
  have hpos := x.ulp_pos
  rcases place_cases h with ⟨hplace, -⟩ | ⟨hplace, hsig⟩
  · have hulp := ulp_of_place_eq hplace
    linarith [size_add_ulp_le h, x.ulpBelow_le]
  · have hy := size_add_half_ulp_le hplace
    unfold ulpBelow
    split
    next hnarrow =>
      have hsize : x.size = fractionRange * x.ulp := by
        rw [size, ((isNarrowBelow_iff x).mp hnarrow).1]
      rwa [hsize]
    next hnarrow =>
      rw [isNarrowBelow_iff] at hnarrow
      have hne : x.significand ≠ fractionRange := fun heq => hnarrow ⟨heq, by omega⟩
      have hx : (fractionRange : ℚ) + 1 ≤ x.significand := by
        exact_mod_cast Nat.lt_of_le_of_ne hsig hne.symm
      have hsize : (fractionRange + 1) * x.ulp ≤ x.size := mul_le_mul_of_nonneg_right hx hpos.le
      linarith

theorem bits_eq (x : Double) :
    x.bits.toNat = (if x.isNegative then signWeight else 0) + x.magnitude := by
  have hx := x.bits.toNat_lt
  simp only [isNegative, decide_eq_true_eq, magnitude]
  split <;> simp only [signWeight] at * <;> omega

theorem magnitude_lt (x : Double) : x.magnitude < signWeight :=
  Nat.mod_lt _ (by decide)

theorem ext_magnitude {x y : Double} (hsign : x.isNegative = y.isNegative)
    (hmagnitude : x.magnitude = y.magnitude) : x = y := by
  obtain ⟨a⟩ := x
  obtain ⟨b⟩ := y
  rw [mk.injEq, ← UInt64.toNat_inj]
  have ha := bits_eq ⟨a⟩
  have hb := bits_eq ⟨b⟩
  rw [hsign, hmagnitude] at ha
  exact ha.trans hb.symm

def next (x : Double) : Double :=
  ⟨x.bits + 1⟩

theorem toNat_bits_next {x : Double} (h : x.magnitude + 1 < signWeight) :
    x.next.bits.toNat = x.bits.toNat + 1 := by
  have hx := x.bits_eq
  rw [next, UInt64.toNat_add, UInt64.toNat_one]
  simp only [signWeight] at *
  split at hx <;> omega

theorem magnitude_next {x : Double} (h : x.magnitude + 1 < signWeight) :
    x.next.magnitude = x.magnitude + 1 := by
  have hbits := toNat_bits_next h
  unfold magnitude at *
  simp only [signWeight] at *
  omega

theorem isNegative_next {x : Double} (h : x.magnitude + 1 < signWeight) :
    x.next.isNegative = x.isNegative := by
  have hbits := toNat_bits_next h
  unfold magnitude at h
  unfold isNegative
  rw [decide_eq_decide]
  simp only [signWeight] at *
  omega

theorem place_next {x : Double} (h : x.magnitude + 1 < signWeight) :
    (x.next.place = x.place ∧ x.next.significand = x.significand + 1) ∨
      (x.next.place = x.place + 1 ∧ x.significand + 1 = 2 * fractionRange ∧
        x.next.significand = fractionRange) := by
  have hnext := magnitude_next h
  have hx := x.magnitude_eq
  have hy := x.next.magnitude_eq
  have hxs := x.significand_lt
  have hys := x.next.significand_lt
  have hxr := @fractionRange_le_significand x
  have hyr := @fractionRange_le_significand x.next
  simp only [fractionRange] at *
  omega

theorem size_next {x : Double} (h : x.magnitude + 1 < signWeight) :
    x.next.size = x.size + x.ulp ∧ x.next.ulpBelow = x.ulp := by
  rw [size, size, ulpBelow]
  rcases place_next h with ⟨hplace, hsig⟩ | ⟨hplace, hsig, hnext⟩
  · have hnarrow : x.next.isNarrowBelow ≠ true := by
      rw [Ne, isNarrowBelow_iff, hplace, hsig]
      rintro ⟨heq, hne⟩
      have hle := fractionRange_le_significand hne
      omega
    rw [if_neg hnarrow, ulp_of_place_eq hplace, hsig]
    push_cast
    exact ⟨by ring, rfl⟩
  · have hnarrow : x.next.isNarrowBelow = true := by
      rw [isNarrowBelow_iff, hplace]
      exact ⟨hnext, Nat.succ_ne_zero _⟩
    have hulp : x.next.ulp = 2 * x.ulp := by
      rw [ulp, ulp, ← zpow_one_add₀ (by norm_num : (2 : ℚ) ≠ 0), exponent_eq, exponent_eq, hplace]
      congr 1
      push_cast
      ring
    have hrange : (x.significand : ℚ) + 1 = 2 * fractionRange := by exact_mod_cast hsig
    rw [if_pos hnarrow, hulp, hnext]
    constructor
    · calc (fractionRange : ℚ) * (2 * x.ulp) = 2 * fractionRange * x.ulp := by ring
        _ = (x.significand + 1) * x.ulp := by rw [hrange]
        _ = x.significand * x.ulp + x.ulp := by ring
    · ring

theorem exists_next_eq {x : Double} (h : x.magnitude ≠ 0) :
    ∃ y : Double, y.next = x ∧ y.magnitude + 1 = x.magnitude := by
  have hx := x.bits_eq
  have hbits : (x.bits - 1).toNat = x.bits.toNat - 1 := by
    rw [UInt64.toNat_sub_of_le]
    · rfl
    · rw [UInt64.le_iff_toNat_le, UInt64.toNat_one]
      omega
  refine ⟨⟨x.bits - 1⟩, ?_, ?_⟩
  · rw [next, UInt64.sub_add_cancel]
  · unfold magnitude at *
    simp only [hbits, signWeight] at *
    omega

theorem isFinite_of_magnitude_le {x y : Double} (h : x.magnitude ≤ y.magnitude)
    (hy : y.isFinite = true) : x.isFinite = true := by
  have hle : x.biasedExponent ≤ y.biasedExponent := Nat.div_le_div_right h
  simp only [isFinite, decide_eq_true_eq] at hy ⊢
  omega

theorem succ_magnitude_lt {x : Double} (h : x.isFinite = true) : x.magnitude + 1 < signWeight := by
  have hmagnitude := x.magnitude_eq
  have hsig := x.significand_lt
  have hplace := place_le_of_isFinite h
  simp only [fractionRange, signWeight] at *
  omega

end Double

end HtmlTemplate
