import HtmlTemplate.Number.Numeral
import HtmlTemplate.Proofs.Number.Reading
import HtmlTemplate.Proofs.Number.Shortest

namespace HtmlTemplate

open Json

theorem isDigits_toDigits (n : ℕ) : IsDigits (Nat.toDigits 10 n) :=
  ⟨Nat.toDigits_ne_nil, fun _ => Nat.isDigit_of_mem_toDigits (by decide) (by decide)⟩

theorem digitChar_ne_zero : ∀ n < 10, 0 < n → Nat.digitChar n ≠ '0' := by
  decide

theorem head?_toDigits_ne_zero {n : ℕ} (h : 0 < n) : (Nat.toDigits 10 n).head? ≠ some '0' := by
  induction n using Nat.strongRecOn with
  | ind n ih =>
      rw [Nat.toDigits_eq_if (by decide)]
      split
      next hlt =>
        rw [List.head?_cons, Ne, Option.some_inj]
        exact digitChar_ne_zero n hlt h
      next hge =>
        obtain ⟨c, cs, hcs⟩ := List.exists_cons_of_ne_nil (isDigits_toDigits (n / 10)).ne_nil
        have hdiv := ih (n / 10) (by omega) (by omega)
        rwa [hcs] at hdiv ⊢

theorem isDigit_of_mem_replicate {k : ℕ} : ∀ c ∈ List.replicate k '0', c.isDigit = true := by
  intro c hc
  rw [List.eq_of_mem_replicate hc]
  decide

namespace Decimal

theorem size_eq_value {n : Numeral} {d : Decimal} (k : ℕ)
    (hdigits : Nat.ofDigitChars 10 (n.whole ++ n.fraction) 0 = 10 ^ k * d.digits)
    (hexponent : n.exponentValue - n.fraction.length = d.exponent - k) : n.size = d.value := by
  rw [Numeral.size, hdigits, hexponent, value, zpow_sub₀ (by norm_num), zpow_natCast]
  push_cast
  rw [mul_comm (10 ^ k : ℚ), mul_assoc, mul_div_cancel₀ _ (by positivity)]

theorem exponentValue_eq {n : Numeral} {e : ℤ}
    (h : n.exponent = 'e' :: (if e < 0 then '-' else '+') :: Nat.toDigits 10 e.natAbs) :
    n.exponentValue = e := by
  rw [Numeral.exponentValue, h]
  by_cases he : e < 0
  · simp only [if_pos he, Nat.ofDigitChars_ten_toDigits]
    omega
  · simp only [if_neg he, Nat.ofDigitChars_ten_toDigits]
    omega

theorem isExponent_signed (e : ℤ) :
    IsExponent ('e' :: (if e < 0 then '-' else '+') :: Nat.toDigits 10 e.natAbs) := by
  split
  · exact .minus (isDigits_toDigits _)
  · exact .plus (isDigits_toDigits _)

section

variable {ds : List Char} (hdigits : IsDigits ds) (hhead : ds.head? ≠ some '0')
include hdigits hhead

theorem isWhole_append_zeros (k : ℕ) : IsWhole (ds ++ List.replicate k '0') where
  ne_nil := List.append_ne_nil_of_left_ne_nil hdigits.ne_nil _
  isDigit c hc := (List.mem_append.mp hc).elim (hdigits.isDigit c) (isDigit_of_mem_replicate c)
  leading h := by
    rw [List.head?_append_of_ne_nil _ hdigits.ne_nil] at h
    exact absurd h hhead

theorem isWhole_take {k : ℕ} (hk : k ≠ 0) : IsWhole (ds.take k) where
  ne_nil h := (List.take_eq_nil_iff.mp h).elim hk hdigits.ne_nil
  isDigit c hc := hdigits.isDigit c (List.mem_of_mem_take hc)
  leading h := by
    rw [List.head?_take, if_neg hk] at h
    exact absurd h hhead

end

theorem isWhole_zero : IsWhole ['0'] :=
  ⟨⟨nofun, @isDigit_of_mem_replicate 1⟩, fun _ => rfl⟩

structure Writes (d : Decimal) (cs : List Char) (n : Numeral) : Prop where
  isWritten : n.IsWritten
  size : n.size = d.value
  unsigned : n.unsigned = cs

theorem exists_positional {d : Decimal} (hpos : 0 < d.digits) (isNegative : Bool) :
    ∃ n : Numeral, d.Writes d.positional n ∧ n.isNegative = isNegative ∧ n.exponent = [] := by
  have hdigits := isDigits_toDigits d.digits
  have hhead := head?_toDigits_ne_zero hpos
  have hvalue := @Nat.ofDigitChars_ten_toDigits d.digits
  unfold positional
  generalize Nat.toDigits 10 d.digits = ds at *
  dsimp only
  generalize hpoint : (ds.length : ℤ) + d.exponent = point
  split
  next hexponent =>
    refine ⟨⟨isNegative, ds ++ List.replicate d.exponent.toNat '0', [], []⟩, ⟨?_, ?_, ?_⟩, rfl, rfl⟩
    · exact ⟨isWhole_append_zeros hdigits hhead _, nofun, .none⟩
    · apply size_eq_value d.exponent.toNat
      · rw [List.append_nil, Nat.ofDigitChars_append, hvalue, Nat.ofDigitChars_replicate_zero]
      · simp only [Numeral.exponentValue, List.length_nil]
        omega
    · simp [Numeral.unsigned, withPoint]
  next hexponent =>
    split
    next hinside =>
      refine ⟨⟨isNegative, ds.take point.toNat, ds.drop point.toNat, []⟩, ⟨?_, ?_, ?_⟩, rfl, rfl⟩
      · exact ⟨isWhole_take hdigits hhead (by omega),
          fun c hc => hdigits.isDigit c (List.mem_of_mem_drop hc), .none⟩
      · apply size_eq_value 0
        · rw [List.take_append_drop, hvalue, pow_zero, one_mul]
        · simp only [Numeral.exponentValue, List.length_drop]
          omega
      · have hfraction : ds.drop point.toNat ≠ [] := by
          rw [Ne, List.drop_eq_nil_iff]
          omega
        simp [Numeral.unsigned, withPoint, hfraction]
    next hinside =>
      refine ⟨⟨isNegative, ['0'], List.replicate (-point).toNat '0' ++ ds, []⟩, ⟨?_, ?_, ?_⟩,
        rfl, rfl⟩
      · refine ⟨isWhole_zero, fun c hc => ?_, .none⟩
        exact (List.mem_append.mp hc).elim (isDigit_of_mem_replicate c) (hdigits.isDigit c)
      · apply size_eq_value 0
        · rw [List.singleton_append, ← List.cons_append, ← List.replicate_succ,
            Nat.ofDigitChars_append, Nat.ofDigitChars_replicate_zero, mul_zero, hvalue, pow_zero,
            one_mul]
        · simp only [Numeral.exponentValue, List.length_append, List.length_replicate]
          omega
      · simp [Numeral.unsigned, withPoint, hdigits.ne_nil]

theorem exists_scientific {d : Decimal} (hpos : 0 < d.digits) (isNegative : Bool) :
    ∃ n : Numeral, d.Writes d.scientific n ∧ n.isNegative = isNegative ∧ n.exponent ≠ [] := by
  have hdigits := isDigits_toDigits d.digits
  have hhead := head?_toDigits_ne_zero hpos
  have hvalue := @Nat.ofDigitChars_ten_toDigits d.digits
  unfold scientific
  generalize Nat.toDigits 10 d.digits = ds at *
  obtain ⟨c, cs, rfl⟩ := List.exists_cons_of_ne_nil hdigits.ne_nil
  dsimp only
  generalize he : ((c :: cs).length : ℤ) - 1 + d.exponent = e
  refine ⟨⟨isNegative, [c], cs, 'e' :: (if e < 0 then '-' else '+') :: Nat.toDigits 10 e.natAbs⟩,
    ⟨⟨?_, ?_, isExponent_signed e⟩, ?_, ?_⟩, rfl, nofun⟩
  · exact isWhole_take hdigits hhead Nat.one_ne_zero
  · exact fun c' hc => hdigits.isDigit c' (List.mem_cons_of_mem c hc)
  · apply size_eq_value 0
    · rw [List.singleton_append, hvalue, pow_zero, one_mul]
    · rw [exponentValue_eq rfl]
      simp only [List.length_cons] at he ⊢
      omega
  · cases cs <;> simp [Numeral.unsigned, withPoint]

end Decimal

namespace Double

theorem shortest_value_pos {x : Double} (hpos : 0 < x.significand) : 0 < x.shortest.value :=
  (low_pos hpos).trans_le (covers_shortest hpos).low_le

theorem shortest_digits_pos {x : Double} (hpos : 0 < x.significand) : 0 < x.shortest.digits := by
  apply Nat.pos_of_ne_zero
  intro hzero
  have hvalue := shortest_value_pos hpos
  rw [Decimal.value, hzero, Nat.cast_zero, zero_mul] at hvalue
  exact lt_irrefl _ hvalue

theorem isNaN_eq_false {x : Double} (h : x.isFinite = true) : x.isNaN = false := by
  simp only [isFinite, decide_eq_true_eq] at h
  simp only [isNaN, Bool.and_eq_false_iff, decide_eq_false_iff_not]
  exact .inl h.ne

theorem exists_numeral {x : Double} (hfinite : x.isFinite = true) (hpos : 0 < x.significand) :
    ∃ n : Numeral, x.shortest.Writes x.digitsText n ∧ n.isNegative = x.isNegative ∧
      n.text = x.text ∧ (n.exponent = [] ↔ x.isPositional = true) := by
  have htext (n : Numeral) (hsign : n.isNegative = x.isNegative)
      (hunsigned : n.unsigned = x.digitsText) : n.text = x.text := by
    rw [← String.toList_inj, Numeral.toList_text, text, isNaN_eq_false hfinite,
      if_neg Bool.false_ne_true, if_neg (significand_pos_iff.mp hpos), if_pos hfinite,
      String.toList_ofList, hsign, hunsigned, signText]
  by_cases hpositional : x.isPositional = true
  · obtain ⟨n, hwrites, hsign, hexponent⟩ :=
      Decimal.exists_positional (shortest_digits_pos hpos) x.isNegative
    have hdigits : x.digitsText = x.shortest.positional := if_pos hpositional
    rw [← hdigits] at hwrites
    exact ⟨n, hwrites, hsign, htext n hsign hwrites.unsigned, iff_of_true hexponent hpositional⟩
  · obtain ⟨n, hwrites, hsign, hexponent⟩ :=
      Decimal.exists_scientific (shortest_digits_pos hpos) x.isNegative
    have hdigits : x.digitsText = x.shortest.scientific := if_neg hpositional
    rw [← hdigits] at hwrites
    exact ⟨n, hwrites, hsign, htext n hsign hwrites.unsigned, iff_of_false hexponent hpositional⟩

theorem roundsTo_micro : RoundsTo (10 ^ (-6 : ℤ)) micro := by
  have hsize : (0 : ℚ) < 10 ^ (-6 : ℤ) := zpow_pos (by norm_num) _
  have hcovers := (isRoundedFrom_iff (show 0 < micro.significand by decide) (-6) 1).mp (by decide)
  rw [Nat.cast_one, one_mul] at hcovers
  rw [roundsTo_iff, abs_of_pos hsize, decide_eq_false hsize.le.not_gt]
  exact ⟨by decide, by decide, hcovers⟩

theorem size_sextillion : sextillion.size = 10 ^ 21 := by
  rw [size, ulp, show sextillion.significand = 7629394531250000 by decide,
    show sextillion.exponent = 17 by decide]
  norm_num

theorem isPositional_iff (x : Double) :
    x.isPositional = true ↔ micro.size ≤ x.size ∧ x.size < 10 ^ 21 := by
  rw [← size_sextillion, ← not_lt, size_lt_size_iff, size_lt_size_iff, not_lt, isPositional,
    Bool.and_eq_true, decide_eq_true_eq, decide_eq_true_eq]

theorem roundsTo_value_iff {x : Double} {n : Numeral} (hfinite : x.isFinite = true)
    (hpos : 0 < x.significand) (hsign : n.isNegative = x.isNegative)
    (hsize : n.size = x.shortest.value) (y : Double) : RoundsTo n.value y ↔ y = x := by
  have hrounds : RoundsTo n.value x := by
    rw [roundsTo_iff, Numeral.value, abs_signed _ n.size_nonneg,
      decide_signed_neg _ (hsize ▸ shortest_value_pos hpos), hsize]
    exact ⟨hfinite, hsign.symm, covers_shortest hpos⟩
  exact ⟨fun h => h.unique hrounds, fun h => h ▸ hrounds⟩

theorem isFinite_of_magnitude_eq_zero {x : Double} (h : x.magnitude = 0) : x.isFinite = true := by
  rw [isFinite, biasedExponent, h]
  decide

theorem ofText?_nonfinite {x : Double} (h : x.isFinite ≠ true) : Numeral.ofText? x.text = none := by
  have hmagnitude : x.magnitude ≠ 0 := mt isFinite_of_magnitude_eq_zero h
  rw [← Option.isNone_iff_eq_none, text, if_neg hmagnitude, if_neg h, signText]
  split
  · decide +kernel
  · split <;> decide +kernel

theorem size_of_ofText?_zero {x : Double} {n : Numeral} (hzero : x.magnitude = 0)
    (h : Numeral.ofText? x.text = some n) : n.size = 0 := by
  have hnan := isNaN_eq_false (isFinite_of_magnitude_eq_zero hzero)
  have hread : Numeral.ofText? "0" = some ⟨false, ['0'], [], []⟩ := rfl
  rw [text, hnan, if_neg Bool.false_ne_true, if_pos hzero, hread, Option.some_inj] at h
  rw [← h, Numeral.size]
  simp [Nat.ofDigitChars]

theorem significand_pos_of_readable {x : Double} {n : Numeral}
    (h : Numeral.ofText? x.text = some n) (hpos : 0 < n.size) :
    x.isFinite = true ∧ 0 < x.significand := by
  constructor
  · by_contra hfinite
    rw [ofText?_nonfinite hfinite] at h
    cases h
  · rw [significand_pos_iff]
    intro hzero
    exact hpos.ne' (size_of_ofText?_zero hzero h)

theorem eq_of_text_eq {x y : Double} (hfinite : x.isFinite = true) (hpos : 0 < x.significand)
    (h : y.text = x.text) : y = x := by
  obtain ⟨n, hwrites, hsign, htext, -⟩ := exists_numeral hfinite hpos
  have hread := hwrites.isWritten.ofText?_text
  have hsize := hwrites.size
  rw [htext, ← h] at hread
  obtain ⟨hyfinite, hypos⟩ :=
    significand_pos_of_readable hread (hsize ▸ shortest_value_pos hpos)
  obtain ⟨n', hwrites', hsign', htext', -⟩ := exists_numeral hyfinite hypos
  obtain rfl : n' = n := by
    rw [← Option.some_inj, ← hwrites'.isWritten.ofText?_text, htext', hread]
  rw [← roundsTo_value_iff hfinite hpos hsign hsize,
    roundsTo_value_iff hyfinite hypos hsign' hwrites'.size]

theorem text_reads_back {x : Double} (hfinite : x.isFinite = true) (hne : x.value ≠ 0) :
    (∃ n, Numeral.ofText? x.text = some n ∧ (∀ y, RoundsTo n.value y ↔ y = x) ∧
      n.size = x.shortest.value ∧ (n.exponent = [] ↔ 'e' ∉ x.text.toList)) ∧
    RoundsTo (10 ^ (-6 : ℤ)) micro ∧
    ('e' ∉ x.text.toList ↔ micro.value ≤ |x.value| ∧ |x.value| < 10 ^ 21) ∧
    ('e' ∈ x.text.toList → Numeral.HasSignedExponent x.text.toList) ∧
    (∀ y : Double, y.text = x.text → y = x) ∧
    ∀ (q : ℚ) (d : Decimal), RoundsTo q x → |q| = d.value →
      (Nat.toDigits 10 x.shortest.digits).length ≤ (Nat.toDigits 10 d.digits).length := by
  have hpos := value_ne_zero_iff.mp hne
  obtain ⟨n, hwrites, hsign, htext, hexponent⟩ := exists_numeral hfinite hpos
  have hmark := hwrites.isWritten.mem_text_iff
  have hread := hwrites.isWritten.ofText?_text
  have hscientific := hwrites.isWritten.hasSignedExponent
  rw [htext] at hmark hread hscientific
  refine ⟨⟨n, hread, ?_, hwrites.size, ?_⟩, roundsTo_micro, ?_, ?_, ?_, ?_⟩
  · exact roundsTo_value_iff hfinite hpos hsign hwrites.size
  · rw [hmark, not_not]
  · have hmicro : micro.value = micro.size := rfl
    rw [hmark, not_not, hexponent, isPositional_iff, abs_value, hmicro]
  · exact fun h => hscientific (hmark.mp h)
  · exact fun y => eq_of_text_eq hfinite hpos
  · intro q d hq hd
    rw [roundsTo_iff, hd] at hq
    exact length_shortest_le hpos hq.2.2

theorem text_reads_back_smallest :
    (⟨1⟩ : Double).isFinite = true ∧ (⟨1⟩ : Double).value ≠ 0 ∧ (⟨1⟩ : Double).text = "5e-324" ∧
      (∃ n, Numeral.ofText? "5e-324" = some n ∧ ∀ y, RoundsTo n.value y ↔ y = ⟨1⟩) ∧
      Numeral.HasSignedExponent "5e-324".toList ∧
      ∀ y : Double, y.text = "5e-324" → y = ⟨1⟩ := by
  have hfinite : (⟨1⟩ : Double).isFinite = true := by decide
  have hne : (⟨1⟩ : Double).value ≠ 0 := value_ne_zero_iff.mpr (by decide)
  have htext : (⟨1⟩ : Double).text = "5e-324" := by decide +kernel
  obtain ⟨⟨n, hread, hrounds, -⟩, -, -, hexponent, hinj, -⟩ := text_reads_back hfinite hne
  rw [htext] at hread hexponent hinj
  exact ⟨hfinite, hne, htext, ⟨n, hread, hrounds⟩, hexponent (by decide), hinj⟩

end Double

end HtmlTemplate
