import HtmlTemplate.Number.Shortest
import HtmlTemplate.Proofs.Number.Rounding

namespace HtmlTemplate

def Decimal.value (d : Decimal) : ℚ :=
  d.digits * 10 ^ d.exponent

namespace Double

theorem pow_toNat {b : ℚ} (hb : b ≠ 0) (k : ℤ) : b ^ k.toNat = b ^ k * b ^ (-k).toNat := by
  rw [← zpow_natCast, ← zpow_natCast, ← zpow_add₀ hb]
  congr 1
  omega

theorem gridStep_pos (x : Double) (i : ℤ) : 0 < x.gridStep i :=
  Nat.mul_pos (Nat.pow_pos (by decide)) (Nat.pow_pos (by decide))

def gridUnit (x : Double) (i : ℤ) : ℚ :=
  10 ^ i / x.gridStep i

section

variable (x : Double) (i : ℤ)

theorem gridUnit_pos : 0 < x.gridUnit i :=
  div_pos (zpow_pos (by norm_num) i) (by exact_mod_cast x.gridStep_pos i)

theorem gridStep_mul_unit : x.gridStep i * x.gridUnit i = 10 ^ i :=
  mul_div_cancel₀ _ (by exact_mod_cast (x.gridStep_pos i).ne')

theorem quarter_mul_unit : x.quarter i * x.gridUnit i = x.ulp / 4 := by
  have hten := pow_toNat (show (10 : ℚ) ≠ 0 by norm_num) i
  have htwo := pow_toNat (show (2 : ℚ) ≠ 0 by norm_num) (x.exponent - 2)
  have hulp : x.ulp / 4 = 2 ^ (x.exponent - 2) := by
    rw [ulp, zpow_sub₀ (by norm_num)]
    norm_num
  have hstep : (x.gridStep i : ℚ) ≠ 0 := by exact_mod_cast (x.gridStep_pos i).ne'
  rw [gridUnit, mul_div_assoc', div_eq_iff hstep, hulp]
  simp only [quarter, gridStep, Nat.pow_eq]
  push_cast
  rw [hten, htwo, neg_sub]
  ring

theorem le_iff_mul_unit (a b : ℕ) : a ≤ b ↔ a * x.gridUnit i ≤ b * x.gridUnit i := by
  rw [mul_le_mul_iff_of_pos_right (x.gridUnit_pos i), Nat.cast_le]

theorem lt_iff_mul_unit (a b : ℕ) : a < b ↔ a * x.gridUnit i < b * x.gridUnit i := by
  rw [mul_lt_mul_iff_of_pos_right (x.gridUnit_pos i), Nat.cast_lt]

end

theorem isRoundedFrom_iff {x : Double} (hpos : 0 < x.significand) (i : ℤ) (n : ℕ) :
    x.isRoundedFrom i n = true ↔ x.Covers (n * 10 ^ i) := by
  have hquarter := x.quarter_mul_unit i
  have hpoint : ((n * x.gridStep i : ℕ) : ℚ) * x.gridUnit i = n * 10 ^ i := by
    rw [Nat.cast_mul, mul_assoc, gridStep_mul_unit]
  have hlow : (((4 * x.significand - if x.isNarrowBelow then 1 else 2) * x.quarter i : ℕ) : ℚ) *
      x.gridUnit i = x.low := by
    have hle : (if x.isNarrowBelow then 1 else 2) ≤ 4 * x.significand := by
      split <;> omega
    rw [Nat.cast_mul, mul_assoc, hquarter, Nat.cast_sub hle, low, size, ulpBelow]
    split <;> push_cast <;> ring
  have hhigh : (((4 * x.significand + 2) * x.quarter i : ℕ) : ℚ) * x.gridUnit i = x.high := by
    rw [Nat.cast_mul, mul_assoc, hquarter, high, size]
    push_cast
    ring
  by_cases heven : x.significand % 2 = 0
  · simp only [isRoundedFrom, if_pos heven, Bool.and_eq_true, decide_eq_true_eq,
      le_iff_mul_unit x i, hlow, hpoint, hhigh]
    exact ⟨fun h => ⟨h.1, h.2, fun _ => heven⟩, fun h => ⟨h.low_le, h.le_high⟩⟩
  · simp only [isRoundedFrom, if_neg heven, Bool.and_eq_true, decide_eq_true_eq,
      lt_iff_mul_unit x i, hlow, hpoint, hhigh]
    constructor
    · rintro ⟨hl, hh⟩
      exact ⟨hl.le, hh.le, fun h => absurd h (not_or.mpr ⟨hl.ne', hh.ne⟩)⟩
    · intro h
      obtain ⟨hl, hh⟩ := not_or.mp (mt h.even heven)
      exact ⟨lt_of_le_of_ne h.low_le (Ne.symm hl), lt_of_le_of_ne h.le_high hh⟩

theorem isRoundedFrom_of_gridPoint {x : Double} {i : ℤ} {n : ℕ} (h : x.gridPoint i = some n) :
    x.isRoundedFrom i n = true := by
  simp only [gridPoint] at h
  split at h
  next hbelow habove => split at h <;> cases h <;> assumption
  next hbelow _ =>
    cases h
    exact hbelow
  next _ habove =>
    cases h
    exact habove
  next => cases h

theorem grid_le_size (x : Double) (i : ℤ) :
    ((x.gridValue i / x.gridStep i : ℕ) : ℚ) * 10 ^ i ≤ x.size ∧
      x.size < ((x.gridValue i / x.gridStep i + 1 : ℕ) : ℚ) * 10 ^ i := by
  have hvalue : (x.gridValue i : ℚ) * x.gridUnit i = x.size := by
    rw [gridValue, Nat.cast_mul, mul_assoc, quarter_mul_unit, size]
    push_cast
    ring
  have hpoint (n : ℕ) : (n : ℚ) * 10 ^ i = ((n * x.gridStep i : ℕ) : ℚ) * x.gridUnit i := by
    rw [Nat.cast_mul, mul_assoc, gridStep_mul_unit]
  rw [hpoint, hpoint, ← hvalue, ← le_iff_mul_unit, ← lt_iff_mul_unit]
  refine ⟨Nat.div_mul_le_self _ _, ?_⟩
  rw [Nat.mul_comm]
  exact Nat.lt_mul_div_succ _ (x.gridStep_pos i)

theorem mem_gridExponents {x : Double} {i : ℤ} :
    i ∈ x.gridExponents ↔ -324 ≤ i ∧ i ≤ x.decimalCeiling := by
  rw [gridExponents, List.mem_map]
  constructor
  · rintro ⟨j, hj, rfl⟩
    rw [List.mem_range] at hj
    omega
  · intro h
    refine ⟨(x.decimalCeiling - i).toNat, List.mem_range.mpr ?_, ?_⟩ <;> omega

theorem finest_le_decimalCeiling (x : Double) : -324 ≤ x.decimalCeiling := by
  have hceiling : -1073 ≤ x.binaryCeiling := by
    rw [binaryCeiling, exponent_eq]
    omega
  unfold decimalCeiling
  split <;> omega

theorem finest_lt_half_ulpBelow (x : Double) : (10 : ℚ) ^ (-324 : ℤ) < x.ulpBelow / 2 := by
  have hpow : (2 : ℚ) ^ 1075 < 10 ^ 324 := by
    calc (2 : ℚ) ^ 1075 = (2 ^ 93) ^ 11 * 2 ^ 52 := by rw [← pow_mul, ← pow_add]
      _ < (10 ^ 28) ^ 11 * 10 ^ 16 := by norm_num
      _ = 10 ^ 324 := by rw [← pow_mul, ← pow_add]
  have hfinest : (10 : ℚ) ^ (-324 : ℤ) < 2 ^ (-1075 : ℤ) := by
    rw [zpow_neg, zpow_neg]
    exact inv_strictAnti₀ (by positivity) hpow
  have hhalf (k : ℤ) : (2 : ℚ) ^ k / 2 = 2 ^ (k - 1) := by
    rw [zpow_sub_one₀ (by norm_num), div_eq_mul_inv]
  have hexponent := x.exponent_eq
  refine hfinest.trans_le ?_
  unfold ulpBelow ulp
  split
  next hnarrow =>
    have hplace := ((isNarrowBelow_iff x).mp hnarrow).2
    rw [hhalf, hhalf]
    exact zpow_le_zpow_right₀ (by norm_num) (by omega)
  next =>
    rw [hhalf]
    exact zpow_le_zpow_right₀ (by norm_num) (by omega)

theorem isSome_gridPoint_iff (x : Double) (i : ℤ) :
    (x.gridPoint i).isSome = true ↔
      x.isRoundedFrom i (x.gridValue i / x.gridStep i) = true ∨
        x.isRoundedFrom i (x.gridValue i / x.gridStep i + 1) = true := by
  simp only [gridPoint]
  cases x.isRoundedFrom i (x.gridValue i / x.gridStep i) <;>
    cases x.isRoundedFrom i (x.gridValue i / x.gridStep i + 1) <;> simp
  split <;> rfl

theorem isSome_gridPoint_finest {x : Double} (hpos : 0 < x.significand) :
    (x.gridPoint (-324)).isSome = true := by
  obtain ⟨hbelow, habove⟩ := x.grid_le_size (-324)
  have hfinest := x.finest_lt_half_ulpBelow
  have hulp := x.ulp_pos
  rw [isSome_gridPoint_iff, isRoundedFrom_iff hpos]
  rw [Nat.cast_add, Nat.cast_one, add_mul, one_mul] at habove
  refine .inl (.of_lt ?_ ?_)
  · rw [low]
    linarith
  · rw [high]
    linarith

theorem isSome_gridPoint_of_covers {x : Double} (hpos : 0 < x.significand) {i : ℤ} {n : ℕ}
    (h : x.Covers (n * 10 ^ i)) : (x.gridPoint i).isSome = true := by
  obtain ⟨hbelow, habove⟩ := x.grid_le_size i
  have hten : (0 : ℚ) ≤ 10 ^ i := (zpow_pos (by norm_num) i).le
  rw [isSome_gridPoint_iff, isRoundedFrom_iff hpos, isRoundedFrom_iff hpos]
  by_cases hn : n ≤ x.gridValue i / x.gridStep i
  · left
    have hle := mul_le_mul_of_nonneg_right (Nat.cast_le.mpr hn) hten
    exact h.convex x.covers_size hle hbelow
  · right
    have hle := mul_le_mul_of_nonneg_right (Nat.cast_le.mpr (Nat.not_le.mp hn)) hten
    exact x.covers_size.convex h habove.le hle

theorem exists_gridExponents_split {x : Double} (hpos : 0 < x.significand) :
    ∃ coarse fine, x.gridExponents = coarse ++ x.shortest.exponent :: fine ∧
      x.gridPoint x.shortest.exponent = some x.shortest.digits ∧
      ∀ i ∈ coarse, x.gridPoint i = none := by
  have hsome : (x.gridExponents.findSome? x.gridDecimal).isSome = true := by
    rw [List.findSome?_isSome_iff]
    refine ⟨-324, mem_gridExponents.mpr ⟨le_refl _, x.finest_le_decimalCeiling⟩, ?_⟩
    rw [gridDecimal, Option.isSome_map, isSome_gridPoint_finest hpos]
  obtain ⟨d, hd⟩ := Option.isSome_iff_exists.mp hsome
  have hshortest : x.shortest = d := by rw [shortest, hd, Option.getD_some]
  obtain ⟨coarse, i, fine, hsplit, hi, hnone⟩ := List.findSome?_eq_some_iff.mp hd
  obtain ⟨n, hn, rfl⟩ := Option.map_eq_some_iff.mp hi
  rw [hshortest]
  refine ⟨coarse, fine, hsplit, hn, fun j hj => ?_⟩
  exact Option.map_eq_none_iff.mp (hnone j hj)

theorem covers_shortest {x : Double} (hpos : 0 < x.significand) : x.Covers x.shortest.value := by
  obtain ⟨-, -, -, hpoint, -⟩ := exists_gridExponents_split hpos
  exact (isRoundedFrom_iff hpos _ _).mp (isRoundedFrom_of_gridPoint hpoint)

theorem gridExponents_pairwise (x : Double) : x.gridExponents.Pairwise (· > ·) := by
  rw [gridExponents, List.pairwise_map]
  refine List.pairwise_lt_range.imp fun h => ?_
  omega

theorem zpow_le_zpow_of_pow {a b m k : ℕ} {s t : ℤ} (hb : 1 ≤ b) (hm : m ≠ 0)
    (hpow : Nat.pow a m ≤ Nat.pow b k) (hs : 0 ≤ s) (h : k * s ≤ m * t) :
    (a : ℚ) ^ s ≤ (b : ℚ) ^ t := by
  have hcast : (a : ℚ) ^ m ≤ (b : ℚ) ^ k := by exact_mod_cast hpow
  have hpowers : ((a : ℚ) ^ s) ^ m ≤ ((b : ℚ) ^ t) ^ m := by
    calc ((a : ℚ) ^ s) ^ m = (a ^ m) ^ s := by rw [← zpow_natCast, ← zpow_natCast, zpow_comm]
      _ ≤ (b ^ k) ^ s := zpow_le_zpow_left₀ hs (by positivity) hcast
      _ = b ^ (k * s) := by rw [← zpow_natCast, ← zpow_mul]
      _ ≤ b ^ (m * t) := zpow_le_zpow_right₀ (by exact_mod_cast hb) h
      _ = (b ^ t) ^ m := by rw [mul_comm, zpow_mul, zpow_natCast]
  exact (pow_le_pow_iff_left₀ (by positivity) (by positivity) hm).mp hpowers

-- The decimal logarithm of two lies between 59 / 196 and 4004 / 13301, and these lie between the
-- two fractions of the definition.
theorem binaryCeiling_le_decimalCeiling (x : Double) :
    (2 : ℚ) ^ x.binaryCeiling ≤ 10 ^ x.decimalCeiling := by
  unfold decimalCeiling
  split
  next hnonneg =>
    have hpow : Nat.pow 2 13301 ≤ Nat.pow 10 4004 := by decide +kernel
    exact_mod_cast zpow_le_zpow_of_pow (by decide) (by decide) hpow hnonneg (by omega)
  next hneg =>
    have hpow : Nat.pow 10 59 ≤ Nat.pow 2 196 := by decide +kernel
    have hinv : (10 : ℚ) ^ (-(x.binaryCeiling * 30102 / 100000 + 1)) ≤ 2 ^ (-x.binaryCeiling) := by
      exact_mod_cast zpow_le_zpow_of_pow (by decide) (by decide) hpow (by omega) (by omega)
    rw [zpow_neg, zpow_neg] at hinv
    exact (inv_le_inv₀ (by positivity) (by positivity)).mp hinv

theorem size_lt_ceiling (x : Double) : x.size < 10 ^ x.decimalCeiling := by
  have hsig : (x.significand : ℚ) < 2 ^ (Nat.log2 x.significand + 1) := by
    exact_mod_cast Nat.lt_log2_self
  calc x.size < 2 ^ (Nat.log2 x.significand + 1) * x.ulp := mul_lt_mul_of_pos_right hsig x.ulp_pos
    _ = 2 ^ x.binaryCeiling := by
        rw [ulp, ← zpow_natCast, ← zpow_add₀ (by norm_num), binaryCeiling]
        push_cast
        rfl
    _ ≤ 10 ^ x.decimalCeiling := x.binaryCeiling_le_decimalCeiling

theorem ulp_le_size {x : Double} (hpos : 0 < x.significand) : x.ulp ≤ x.size := by
  have hone : (1 : ℚ) ≤ x.significand := by exact_mod_cast hpos
  exact le_mul_of_one_le_left x.ulp_pos.le hone

theorem low_pos {x : Double} (hpos : 0 < x.significand) : 0 < x.low := by
  rw [low]
  linarith [x.ulp_pos, x.ulpBelow_le, ulp_le_size hpos]

theorem not_covers_above_ceiling {x : Double} (hpos : 0 < x.significand) {i : ℤ}
    (hi : x.decimalCeiling < i) (n : ℕ) : ¬x.Covers (n * 10 ^ i) := by
  intro h
  have hn : (1 : ℚ) ≤ n := by
    rcases Nat.eq_zero_or_pos n with rfl | hn
    · have hzero := h.low_le
      rw [Nat.cast_zero, zero_mul] at hzero
      linarith [low_pos hpos]
    · exact_mod_cast hn
  have hgrid : (10 : ℚ) ^ x.decimalCeiling * 10 ≤ n * 10 ^ i := by
    calc (10 : ℚ) ^ x.decimalCeiling * 10 = 10 ^ (x.decimalCeiling + 1) := by
          rw [zpow_add_one₀ (by norm_num)]
      _ ≤ 10 ^ i := zpow_le_zpow_right₀ (by norm_num) (by omega)
      _ ≤ n * 10 ^ i := le_mul_of_one_le_left (zpow_pos (by norm_num) i).le hn
  have hhigh := h.le_high
  rw [high] at hhigh
  linarith [x.size_lt_ceiling, ulp_le_size hpos, x.size_nonneg]

theorem not_covers_coarser {x : Double} (hpos : 0 < x.significand) {i : ℤ}
    (hi : x.shortest.exponent < i) (n : ℕ) : ¬x.Covers (n * 10 ^ i) := by
  intro h
  obtain ⟨coarse, fine, hsplit, -, hnone⟩ := exists_gridExponents_split hpos
  have hpairwise := x.gridExponents_pairwise
  rw [hsplit, List.pairwise_append, List.pairwise_cons] at hpairwise
  obtain ⟨-, ⟨hfine, -⟩, -⟩ := hpairwise
  by_cases hceiling : i ≤ x.decimalCeiling
  · have hshortest : x.shortest.exponent ∈ x.gridExponents := by
      rw [hsplit]
      exact List.mem_append_right _ List.mem_cons_self
    have hmem : i ∈ x.gridExponents :=
      mem_gridExponents.mpr ⟨(mem_gridExponents.mp hshortest).1.trans hi.le, hceiling⟩
    rw [hsplit, List.mem_append, List.mem_cons] at hmem
    have hgrid := isSome_gridPoint_of_covers hpos h
    rcases hmem with hcoarse | rfl | hmem
    · rw [hnone i hcoarse] at hgrid
      cases hgrid
    · exact lt_irrefl _ hi
    · exact lt_asymm hi (hfine i hmem)
  · exact not_covers_above_ceiling hpos (not_le.mp hceiling) n h

theorem length_shortest_le {x : Double} (hpos : 0 < x.significand) {n : ℕ} {i : ℤ}
    (h : x.Covers (n * 10 ^ i)) :
    (Nat.toDigits 10 x.shortest.digits).length ≤ (Nat.toDigits 10 n).length := by
  by_contra hlt
  have hlength : 0 < (Nat.toDigits 10 n).length := Nat.length_toDigits_pos
  obtain ⟨k, hk⟩ : ∃ k, (Nat.toDigits 10 x.shortest.digits).length = k + 1 :=
    ⟨_, (Nat.succ_pred_eq_of_pos Nat.length_toDigits_pos).symm⟩
  have hkpos : 0 < k := by omega
  have hn : n < 10 ^ k := (Nat.length_toDigits_le_iff (by decide) hkpos).mp (by omega)
  have hd : 10 ^ k ≤ x.shortest.digits := by
    rw [← Nat.not_lt, ← Nat.length_toDigits_le_iff (by decide) hkpos]
    omega
  have hi : i ≤ x.shortest.exponent := not_lt.mp fun hi => not_covers_coarser hpos hi n h
  have hten : (0 : ℚ) < 10 ^ x.shortest.exponent := zpow_pos (by norm_num) _
  have hbetween : x.Covers ((10 ^ k : ℕ) * 10 ^ x.shortest.exponent) := by
    apply h.convex (covers_shortest hpos)
    · have hle : (10 : ℚ) ^ i ≤ 10 ^ x.shortest.exponent := zpow_le_zpow_right₀ (by norm_num) hi
      exact mul_le_mul (Nat.cast_le.mpr hn.le) hle (by positivity) (Nat.cast_nonneg _)
    · exact mul_le_mul_of_nonneg_right (Nat.cast_le.mpr hd) hten.le
  apply not_covers_coarser hpos (show x.shortest.exponent < x.shortest.exponent + k by omega) 1
  rw [Nat.cast_one, one_mul, zpow_add₀ (by norm_num), zpow_natCast, mul_comm]
  exact_mod_cast hbetween

end Double

end HtmlTemplate
