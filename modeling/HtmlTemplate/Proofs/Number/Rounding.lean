import HtmlTemplate.Number.Nearest
import HtmlTemplate.Proofs.Number.Size

/-! Rounding to the nearest number, of two nearest ones to that with the even significand. -/

namespace HtmlTemplate.Double

structure RoundsTo (q : ℚ) (x : Double) : Prop where
  isFinite : x.isFinite = true
  lt_overflow : |q| < overflow
  isNegative : x.isNegative = decide (q < 0)
  nearest : ∀ y : Double, y.isFinite = true → |q - x.value| ≤ |q - y.value|
  even : ∀ y : Double, y.isFinite = true → |q - y.value| = |q - x.value| →
    y.value = x.value ∨ x.significand % 2 = 0

section

variable {r a b : ℚ} (hab : a < b)
include hab

theorem abs_sub_le_iff_le_middle : |r - a| ≤ |r - b| ↔ r ≤ (a + b) / 2 := by
  have hsquares : (r - b) ^ 2 - (r - a) ^ 2 = (b - a) * (a + b - 2 * r) := by ring
  rw [← sq_le_sq, ← sub_nonneg, hsquares, mul_nonneg_iff_of_pos_left (sub_pos.mpr hab)]
  constructor <;> intro h <;> linarith

theorem abs_sub_le_iff_middle_le : |r - b| ≤ |r - a| ↔ (a + b) / 2 ≤ r := by
  have hsquares : (r - a) ^ 2 - (r - b) ^ 2 = (b - a) * (2 * r - (a + b)) := by ring
  rw [← sq_le_sq, ← sub_nonneg, hsquares, mul_nonneg_iff_of_pos_left (sub_pos.mpr hab)]
  constructor <;> intro h <;> linarith

theorem abs_sub_eq_iff_eq_middle : |r - a| = |r - b| ↔ r = (a + b) / 2 := by
  rw [le_antisymm_iff, abs_sub_le_iff_le_middle hab, abs_sub_le_iff_middle_le hab,
    ← le_antisymm_iff]

end

def low (x : Double) : ℚ :=
  x.size - x.ulpBelow / 2

def high (x : Double) : ℚ :=
  x.size + x.ulp / 2

theorem high_eq (x : Double) : x.high = (2 * x.significand + 1) * (x.ulp / 2) := by
  rw [high, size]
  ring

theorem high_le_middle {x y : Double} (h : x.magnitude < y.magnitude) :
    x.high ≤ (x.size + y.size) / 2 := by
  rw [high]
  linarith [size_add_ulp_le h]

theorem middle_le_low {x y : Double} (h : y.magnitude < x.magnitude) :
    (y.size + x.size) / 2 ≤ x.low := by
  rw [low]
  linarith [size_add_ulpBelow_le h]

/-- The sizes that are rounded to a number: up to the middle between it and its neighbours, with
the middle itself if the significand is even. -/
structure Covers (x : Double) (r : ℚ) : Prop where
  low_le : x.low ≤ r
  le_high : r ≤ x.high
  even : r = x.low ∨ r = x.high → x.significand % 2 = 0

theorem half_ulp_le {x : Double} (h : x.isFinite = true) : x.ulp / 2 ≤ 2 ^ 970 := by
  have hplace := place_le_of_isFinite h
  have hle : x.ulp ≤ 2 ^ (971 : ℤ) := by
    apply zpow_le_zpow_right₀ (by norm_num)
    rw [exponent_eq]
    omega
  rw [show (971 : ℤ) = 1 + (970 : ℕ) from rfl, zpow_one_add₀ (by norm_num), zpow_natCast] at hle
  generalize (2 : ℚ) ^ 970 = top at hle ⊢
  linarith

theorem cast_overflow : (overflow : ℚ) = (4 * fractionRange - 1) * 2 ^ 970 := by
  unfold overflow
  -- With variables for the two exponents no step evaluates the powers.
  generalize hk : 1024 = k
  generalize hj : 970 = j
  obtain rfl : k = 54 + j := by omega
  have hle : Nat.pow 2 j ≤ Nat.pow 2 (54 + j) := Nat.pow_le_pow_right (by decide) (by omega)
  have hrange : (fractionRange : ℚ) = 2 ^ 52 := by norm_num [fractionRange]
  rw [Nat.cast_sub hle, Nat.pow_eq, Nat.pow_eq, pow_add, hrange]
  push_cast
  ring

namespace Covers

variable {x : Double} {r : ℚ}

theorem of_lt (hlow : x.low < r) (hhigh : r < x.high) : x.Covers r :=
  ⟨hlow.le, hhigh.le, fun h => absurd h (not_or.mpr ⟨hlow.ne', hhigh.ne⟩)⟩

theorem convex {a b : ℚ} (ha : x.Covers a) (hb : x.Covers b) (har : a ≤ r) (hrb : r ≤ b) :
    x.Covers r where
  low_le := ha.low_le.trans har
  le_high := hrb.trans hb.le_high
  even := by
    rintro (hlow | hhigh)
    · exact ha.even (.inl (le_antisymm (har.trans hlow.le) ha.low_le))
    · exact hb.even (.inr (le_antisymm hb.le_high (hhigh.ge.trans hrb)))

theorem nearest (h : x.Covers r) (y : Double) : |r - x.size| ≤ |r - y.size| := by
  rcases Nat.lt_trichotomy x.magnitude y.magnitude with hlt | heq | hgt
  · rw [abs_sub_le_iff_le_middle (size_lt_size_iff.mpr hlt)]
    exact h.le_high.trans (high_le_middle hlt)
  · rw [size_congr heq]
  · rw [abs_sub_le_iff_middle_le (size_lt_size_iff.mpr hgt)]
    exact (middle_le_low hgt).trans h.low_le

theorem even_of_tie (h : x.Covers r) {y : Double} (htie : |r - y.size| = |r - x.size|) :
    y.size = x.size ∨ x.significand % 2 = 0 := by
  rcases Nat.lt_trichotomy x.magnitude y.magnitude with hlt | heq | hgt
  · have hmiddle := (abs_sub_eq_iff_eq_middle (size_lt_size_iff.mpr hlt)).mp htie.symm
    exact .inr (h.even (.inr (le_antisymm h.le_high (hmiddle ▸ high_le_middle hlt))))
  · exact .inl (size_congr heq.symm)
  · have hmiddle := (abs_sub_eq_iff_eq_middle (size_lt_size_iff.mpr hgt)).mp htie
    exact .inr (h.even (.inl (le_antisymm (hmiddle ▸ middle_le_low hgt) h.low_le)))

theorem size_eq_zero (h : x.Covers 0) : x.size = 0 := by
  have hzero : (⟨0⟩ : Double).size = 0 := by
    rw [size, show (⟨0⟩ : Double).significand = 0 by decide, Nat.cast_zero, zero_mul]
  have hnear := h.nearest ⟨0⟩
  rw [hzero, sub_zero, abs_zero, zero_sub, abs_neg] at hnear
  exact abs_eq_zero.mp (le_antisymm hnear (abs_nonneg _))

theorem lt_overflow (h : x.Covers r) (hfinite : x.isFinite = true) : r < overflow := by
  have hhigh := x.high_eq
  have hulp := half_ulp_le hfinite
  have htop : (0 : ℚ) < 2 ^ 970 := pow_pos (by norm_num) 970
  have hpos := x.ulp_pos
  have hsig := x.significand_lt
  rw [cast_overflow]
  generalize (2 : ℚ) ^ 970 = top at hulp htop
  by_cases heven : x.significand % 2 = 0
  · have hle : (2 * x.significand + 1 : ℚ) ≤ 4 * fractionRange - 3 := by
      have hnat : 2 * x.significand + 4 ≤ 4 * fractionRange := by
        simp only [fractionRange] at *
        omega
      have hrat : (2 * x.significand + 4 : ℚ) ≤ 4 * fractionRange := by exact_mod_cast hnat
      linarith
    calc r ≤ (2 * x.significand + 1) * (x.ulp / 2) := hhigh ▸ h.le_high
      _ ≤ (4 * fractionRange - 3) * top :=
          mul_le_mul hle hulp (by linarith) (by norm_num [fractionRange])
      _ < (4 * fractionRange - 1) * top := by linarith
  · have hlt : r < x.high := lt_of_le_of_ne h.le_high fun heq => heven (h.even (.inr heq))
    have hle : (2 * x.significand + 1 : ℚ) ≤ 4 * fractionRange - 1 := by
      have hrat : (x.significand : ℚ) + 1 ≤ 2 * fractionRange := by exact_mod_cast hsig
      linarith
    calc r < (2 * x.significand + 1) * (x.ulp / 2) := hhigh ▸ hlt
      _ ≤ (4 * fractionRange - 1) * top :=
          mul_le_mul hle hulp (by linarith) (by norm_num [fractionRange])

end Covers

theorem covers_size (x : Double) : x.Covers x.size := by
  have hbelow := x.ulpBelow_pos
  have hulp := x.ulp_pos
  apply Covers.of_lt
  · rw [low]
    linarith
  · rw [high]
    linarith

theorem abs_sub_value {q : ℚ} {x : Double} (h : x.isNegative = decide (q < 0)) :
    |q - x.value| = |(|q| - x.size)| := by
  rw [value, signed]
  by_cases hq : q < 0
  · rw [h, decide_eq_true hq, if_pos rfl, abs_of_neg hq, ← abs_neg]
    congr 1
    ring
  · rw [h, decide_eq_false hq, if_neg Bool.false_ne_true, abs_of_nonneg (not_lt.mp hq)]

theorem abs_sub_size_le (q : ℚ) (y : Double) : |(|q| - y.size)| ≤ |q - y.value| := by
  rw [← y.abs_value]
  exact abs_abs_sub_abs_le q y.value

theorem value_eq_or_neg {x y : Double} (h : y.size = x.size) :
    y.value = x.value ∨ y.value = -x.value := by
  rw [value, value, signed, signed, h]
  split <;> split <;> simp

theorem value_eq_of_tie {q : ℚ} {x y : Double} (h : x.Covers |q|) (hsize : y.size = x.size)
    (htie : |q - y.value| = |q - x.value|) : y.value = x.value := by
  rcases value_eq_or_neg hsize with heq | hneg
  · exact heq
  · have hzero : x.value = 0 := by
      rw [hneg] at htie
      rcases abs_eq_abs.mp htie with hsame | hopposite
      · linarith
      · have hq : q = 0 := by linarith
        rw [hq, abs_zero] at h
        rw [← abs_eq_zero, abs_value]
        exact h.size_eq_zero
    rw [hneg, hzero, neg_zero]

theorem roundsTo_of_covers {q : ℚ} {x : Double} (hfinite : x.isFinite = true)
    (hsign : x.isNegative = decide (q < 0)) (h : x.Covers |q|) : RoundsTo q x where
  isFinite := hfinite
  lt_overflow := h.lt_overflow hfinite
  isNegative := hsign
  nearest := by
    intro y _
    rw [abs_sub_value hsign]
    exact (h.nearest y).trans (abs_sub_size_le q y)
  even := by
    intro y _ htie
    rw [abs_sub_value hsign] at htie
    have hsize := abs_sub_size_le q y
    rcases h.even_of_tie (le_antisymm (htie ▸ hsize) (h.nearest y)) with heq | heven
    · rw [← abs_sub_value hsign] at htie
      exact .inl (value_eq_of_tie h heq htie)
    · exact .inr heven

theorem high_eq_overflow {x : Double} (hx : x.isFinite = true)
    (hbound : x.magnitude + 1 < signWeight) (h : x.next.isFinite ≠ true) : x.high = overflow := by
  obtain ⟨hplace, hsig⟩ : x.place = 2045 ∧ x.significand + 1 = 2 * fractionRange := by
    have hmagnitude := x.magnitude_eq
    have hlt := x.significand_lt
    have hle := @fractionRange_le_significand x
    have hplace := place_le_of_isFinite hx
    simp only [isFinite, ne_eq, decide_eq_true_eq, biasedExponent, magnitude_next hbound] at h
    simp only [fractionRange] at *
    omega
  have hulp : x.ulp / 2 = 2 ^ 970 := by
    rw [ulp, exponent_eq, hplace, show ((2045 : ℕ) : ℤ) - 1074 = (970 : ℕ) + 1 by norm_num,
      zpow_add_one₀ (by norm_num), zpow_natCast, mul_div_cancel_right₀ _ (by norm_num)]
  have hrange : (x.significand : ℚ) = 2 * fractionRange - 1 := by
    rw [eq_sub_iff_add_eq]
    exact_mod_cast hsig
  rw [high_eq, hrange, hulp, cast_overflow]
  congr 1
  ring

namespace RoundsTo

variable {q : ℚ} {x y : Double}

theorem tie (hx : RoundsTo q x) (hy : RoundsTo q y) : |q - x.value| = |q - y.value| :=
  le_antisymm (hx.nearest y hy.isFinite) (hy.nearest x hx.isFinite)

theorem not_lt (hx : RoundsTo q x) (hy : RoundsTo q y) : ¬x.magnitude < y.magnitude := by
  intro hlt
  have hsign : y.isNegative = x.isNegative := hy.isNegative.trans hx.isNegative.symm
  have htie := hx.tie hy
  have hsize := size_lt_size_iff.mpr hlt
  rw [abs_sub_value hx.isNegative, abs_sub_value hy.isNegative] at htie
  have hne : y.value ≠ x.value := by
    intro heq
    rw [← abs_value, ← abs_value, heq] at hsize
    exact lt_irrefl _ hsize
  have hxeven := (hx.even y hy.isFinite (hx.tie hy).symm).resolve_left hne
  have hyeven := (hy.even x hx.isFinite (hx.tie hy)).resolve_left hne.symm
  have hnext : x.magnitude + 1 < y.magnitude := by
    have hxm := x.magnitude_eq
    have hym := y.magnitude_eq
    simp only [fractionRange] at *
    omega
  have hbound : x.magnitude + 1 < signWeight := hnext.trans y.magnitude_lt
  have hmagnitude := magnitude_next hbound
  have hfinite : x.next.isFinite = true :=
    isFinite_of_magnitude_le (hmagnitude ▸ hnext.le) hy.isFinite
  have hnear := hx.nearest x.next hfinite
  rw [abs_sub_value hx.isNegative,
    abs_sub_value ((isNegative_next hbound).trans hx.isNegative)] at hnear
  have hlower : x.size < x.next.size := size_lt_size_iff.mpr (by omega)
  have hupper : x.next.size < y.size := size_lt_size_iff.mpr (by omega)
  rw [abs_sub_le_iff_le_middle hlower] at hnear
  rw [abs_sub_eq_iff_eq_middle hsize] at htie
  linarith

theorem unique (hx : RoundsTo q x) (hy : RoundsTo q y) : x = y := by
  apply ext_magnitude
  · exact hx.isNegative.trans hy.isNegative.symm
  · have hxy := hx.not_lt hy
    have hyx := hy.not_lt hx
    omega

section

variable (h : RoundsTo q x) (hfinite : y.isFinite = true) (hsign : y.isNegative = x.isNegative)
include h hfinite hsign

theorem nearest_size : |(|q| - x.size)| ≤ |(|q| - y.size)| := by
  have hnear := h.nearest y hfinite
  rwa [abs_sub_value h.isNegative, abs_sub_value (hsign.trans h.isNegative)] at hnear

theorem even_of_tie (hne : y.size ≠ x.size) (htie : |(|q| - y.size)| = |(|q| - x.size)|) :
    x.significand % 2 = 0 := by
  rw [← abs_sub_value h.isNegative, ← abs_sub_value (hsign.trans h.isNegative)] at htie
  refine (h.even y hfinite htie).resolve_left fun heq => hne ?_
  rw [← abs_value, ← abs_value, heq]

end

theorem le_high (h : RoundsTo q x) : |q| ≤ x.high ∧ (|q| = x.high → x.significand % 2 = 0) := by
  have hbound := succ_magnitude_lt h.isFinite
  have hulp := x.ulp_pos
  by_cases hnext : x.next.isFinite = true
  · have hsize := (size_next hbound).1
    have hlt : x.size < x.next.size := by linarith
    have hmiddle : x.high = (x.size + x.next.size) / 2 := by
      rw [high, hsize]
      ring
    rw [hmiddle]
    rw [← abs_sub_le_iff_le_middle hlt, ← abs_sub_eq_iff_eq_middle hlt]
    exact ⟨h.nearest_size hnext (isNegative_next hbound),
      fun htie => h.even_of_tie hnext (isNegative_next hbound) hlt.ne' htie.symm⟩
  · have hlt := h.lt_overflow
    rw [← high_eq_overflow h.isFinite hbound hnext] at hlt
    exact ⟨hlt.le, fun heq => absurd heq hlt.ne⟩

theorem low_le (h : RoundsTo q x) : x.low ≤ |q| ∧ (|q| = x.low → x.significand % 2 = 0) := by
  have hbelow := x.ulpBelow_pos
  by_cases hzero : x.magnitude = 0
  · have hlt : x.low < |q| := by
      have hsize : x.size = 0 := by
        have hsig : x.significand = 0 := by
          have hx := x.magnitude_eq
          omega
        rw [size, hsig, Nat.cast_zero, zero_mul]
      rw [low, hsize]
      linarith [abs_nonneg q]
    exact ⟨hlt.le, fun heq => absurd heq hlt.ne'⟩
  · obtain ⟨y, rfl, hy⟩ := exists_next_eq hzero
    have hbound : y.magnitude + 1 < signWeight := hy ▸ y.next.magnitude_lt
    have hsign := (isNegative_next hbound).symm
    have hfinite : y.isFinite = true := isFinite_of_magnitude_le (by omega) h.isFinite
    obtain ⟨hsize, hulp⟩ := size_next hbound
    have hlt : y.size < y.next.size := by linarith [y.ulp_pos]
    have hmiddle : y.next.low = (y.size + y.next.size) / 2 := by
      rw [low, hulp, hsize]
      ring
    rw [hmiddle]
    rw [← abs_sub_le_iff_middle_le hlt, ← abs_sub_eq_iff_eq_middle hlt]
    exact ⟨h.nearest_size hfinite hsign, h.even_of_tie hfinite hsign hlt.ne⟩

theorem covers (h : RoundsTo q x) : x.Covers |q| :=
  ⟨h.low_le.1, h.le_high.1, fun hends => hends.elim h.low_le.2 h.le_high.2⟩

end RoundsTo

theorem roundsTo_iff {q : ℚ} {x : Double} :
    RoundsTo q x ↔ x.isFinite = true ∧ x.isNegative = decide (q < 0) ∧ x.Covers |q| :=
  ⟨fun h => ⟨h.isFinite, h.isNegative, h.covers⟩, fun h => roundsTo_of_covers h.1 h.2.1 h.2.2⟩

end HtmlTemplate.Double
