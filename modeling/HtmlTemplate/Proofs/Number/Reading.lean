import HtmlTemplate.Json.Numeral
import HtmlTemplate.Proofs.Number.Size
import HtmlTemplate.Proofs.Script.Lexeme
import Mathlib.Data.List.TakeDrop

namespace HtmlTemplate.Json

structure IsDigits (ds : List Char) : Prop where
  ne_nil : ds ≠ []
  isDigit : ∀ c ∈ ds, c.isDigit = true

def EndsDigits (k : List Char) : Prop :=
  ∀ c ∈ k.head?, c.isDigit = false

theorem readDigits_append {ds k : List Char} (hds : IsDigits ds) (hk : EndsDigits k) :
    readDigits (ds ++ k) = some (ds, k) := by
  obtain ⟨htake, hdrop⟩ := takeWhile_dropWhile_append hds.isDigit hk
  obtain ⟨c, tail, rfl⟩ := List.exists_cons_of_ne_nil hds.ne_nil
  rw [readDigits, List.span_eq_takeWhile_dropWhile, htake, hdrop]

structure IsWhole (ds : List Char) : Prop extends IsDigits ds where
  leading : ds.head? = some '0' → ds = ['0']

theorem readWhole_append {ds k : List Char} (hds : IsWhole ds) (hk : EndsDigits k) :
    readWhole (ds ++ k) = some (ds, k) := by
  obtain ⟨c, tail, rfl⟩ := List.exists_cons_of_ne_nil hds.ne_nil
  by_cases hc : c = '0'
  · subst hc
    obtain rfl : tail = [] := (List.cons.inj (hds.leading rfl)).2
    have hhead : ¬k.head?.any Char.isDigit = true := by
      rw [Option.any_eq_true_iff_get]
      rintro ⟨hsome, hdigit⟩
      have hnot := hk _ (Option.get_mem hsome)
      rw [hdigit] at hnot
      cases hnot
    rw [List.singleton_append, readWhole, if_neg hhead]
  · rw [← readDigits_append hds.toIsDigits hk, List.cons_append, readWhole]
    intro cs heq
    exact hc (List.cons.inj heq).1

inductive IsExponent : List Char → Prop
  | none : IsExponent []
  | plus {ds : List Char} : IsDigits ds → IsExponent ('e' :: '+' :: ds)
  | minus {ds : List Char} : IsDigits ds → IsExponent ('e' :: '-' :: ds)

theorem IsExponent.endsDigits {cs : List Char} (h : IsExponent cs) : EndsDigits cs := by
  cases h with
  | none => nofun
  | plus | minus =>
      rintro c ⟨⟩
      decide

theorem readExponent_of_isExponent {cs : List Char} (h : IsExponent cs) :
    readExponent cs = some (cs, []) := by
  cases h with
  | none => rfl
  | @plus ds hds | @minus ds hds =>
      have hread := readDigits_append hds (k := []) nofun
      rw [List.append_nil] at hread
      rw [readExponent, readSignedDigits, hread]
      rfl

def withPoint (ds : List Char) : List Char :=
  (if ds = [] then [] else ['.']) ++ ds

theorem readFraction_withPoint {ds k : List Char} (hds : ∀ c ∈ ds, c.isDigit = true)
    (hk : IsExponent k) : readFraction (withPoint ds ++ k) = some (ds, k) := by
  by_cases hne : ds = []
  · subst hne
    cases hk <;> rfl
  · rw [withPoint, if_neg hne, List.append_assoc, List.singleton_append, readFraction]
    exact readDigits_append ⟨hne, hds⟩ hk.endsDigits

theorem endsDigits_withPoint (ds : List Char) {k : List Char} (hk : IsExponent k) :
    EndsDigits (withPoint ds ++ k) := by
  by_cases hne : ds = []
  · subst hne
    exact hk.endsDigits
  · rw [withPoint, if_neg hne]
    rintro c ⟨⟩
    decide

namespace Numeral

structure IsWritten (n : Numeral) : Prop where
  whole : IsWhole n.whole
  fraction : ∀ c ∈ n.fraction, c.isDigit = true
  exponent : IsExponent n.exponent

def ofText? (s : String) : Option Numeral :=
  let numeral : Option (Numeral × List Char) :=
    match s.toList with
    | '-' :: cs => readNumeral true cs
    | cs => readNumeral false cs
  numeral.bind fun (n, rest) => if rest = [] then some n else none

def size (n : Numeral) : ℚ :=
  Nat.ofDigitChars 10 (n.whole ++ n.fraction) 0 * 10 ^ (n.exponentValue - n.fraction.length)

def value (n : Numeral) : ℚ :=
  signed n.isNegative n.size

def unsigned (n : Numeral) : List Char :=
  n.whole ++ (withPoint n.fraction ++ n.exponent)

theorem toList_text (n : Numeral) :
    n.text.toList = (if n.isNegative then ['-'] else []) ++ n.unsigned := by
  simp only [text, unsigned, withPoint, String.toList_ofList, List.append_assoc]

theorem IsWritten.readNumeral_unsigned {n : Numeral} (h : n.IsWritten) :
    readNumeral n.isNegative n.unsigned = some (n, []) := by
  rw [readNumeral, unsigned, readWhole_append h.whole (endsDigits_withPoint _ h.exponent)]
  simp only [Option.bind_eq_bind, Option.bind_some]
  rw [readFraction_withPoint h.fraction h.exponent]
  simp only [Option.bind_some]
  rw [readExponent_of_isExponent h.exponent]
  rfl

theorem IsWritten.unsigned_ne {n : Numeral} (h : n.IsWritten) (cs : List Char) :
    n.unsigned ≠ '-' :: cs := by
  obtain ⟨c, tail, hwhole⟩ := List.exists_cons_of_ne_nil h.whole.ne_nil
  have hdigit : c.isDigit = true := h.whole.isDigit c (hwhole ▸ List.mem_cons_self)
  rw [unsigned, hwhole, List.cons_append]
  intro heq
  rw [(List.cons.inj heq).1] at hdigit
  cases hdigit

theorem IsWritten.ofText?_text {n : Numeral} (h : n.IsWritten) : ofText? n.text = some n := by
  have hread := h.readNumeral_unsigned
  rw [ofText?, toList_text]
  cases hsign : n.isNegative with
  | true =>
      rw [hsign] at hread
      simp only [if_pos, List.singleton_append, hread]
      rfl
  | false =>
      rw [hsign] at hread
      simp only [Bool.false_eq_true, if_false, List.nil_append]
      split
      next cs heq => exact absurd heq (h.unsigned_ne cs)
      next =>
        rw [hread]
        rfl

theorem notMem_of_isDigit {ds : List Char} (h : ∀ c ∈ ds, c.isDigit = true) : 'e' ∉ ds := by
  intro hmem
  cases h 'e' hmem

theorem IsWritten.exists_mantissa {n : Numeral} (h : n.IsWritten) :
    ∃ mantissa, n.text.toList = mantissa ++ n.exponent ∧ 'e' ∉ mantissa := by
  refine ⟨(if n.isNegative then ['-'] else []) ++ n.whole ++ withPoint n.fraction, ?_, ?_⟩
  · rw [toList_text, unsigned]
    simp only [List.append_assoc]
  · simp only [withPoint, List.mem_append, not_or]
    refine ⟨⟨?_, notMem_of_isDigit h.whole.isDigit⟩, ?_, notMem_of_isDigit h.fraction⟩
    · split <;> decide
    · split <;> decide

theorem IsWritten.mem_text_iff {n : Numeral} (h : n.IsWritten) :
    'e' ∈ n.text.toList ↔ n.exponent ≠ [] := by
  obtain ⟨mantissa, htext, hmantissa⟩ := h.exists_mantissa
  have hexponent := h.exponent
  rw [htext, List.mem_append]
  generalize n.exponent = cs at hexponent
  cases hexponent with
  | none => simp [hmantissa]
  | plus | minus => simp

def HasSignedExponent (cs : List Char) : Prop :=
  ∃ before sign after, cs = before ++ 'e' :: sign :: after ∧
    (sign = '+' ∨ sign = '-') ∧ 'e' ∉ before ∧ 'e' ∉ after

theorem IsWritten.hasSignedExponent {n : Numeral} (h : n.IsWritten) (hne : n.exponent ≠ []) :
    HasSignedExponent n.text.toList := by
  obtain ⟨mantissa, htext, hmantissa⟩ := h.exists_mantissa
  have hexponent := h.exponent
  rw [htext]
  generalize n.exponent = cs at hexponent hne
  cases hexponent with
  | none => exact absurd rfl hne
  | plus hds => exact ⟨_, '+', _, rfl, .inl rfl, hmantissa, notMem_of_isDigit hds.isDigit⟩
  | minus hds => exact ⟨_, '-', _, rfl, .inr rfl, hmantissa, notMem_of_isDigit hds.isDigit⟩

theorem size_nonneg (n : Numeral) : 0 ≤ n.size :=
  mul_nonneg (Nat.cast_nonneg _) (zpow_nonneg (by norm_num) _)

end Numeral

end HtmlTemplate.Json
