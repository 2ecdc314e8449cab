import HtmlTemplate.Json.Parser
import HtmlTemplate.Template.Script
import Mathlib.Tactic.SplitIfs

namespace HtmlTemplate

theorem takeWhile_dropWhile_append {p : Char → Bool} {cs k : List Char}
    (hcs : ∀ c ∈ cs, p c = true) (hk : ∀ c ∈ k.head?, p c = false) :
    (cs ++ k).takeWhile p = cs ∧ (cs ++ k).dropWhile p = k := by
  rw [List.takeWhile_append_of_pos hcs, List.dropWhile_append_of_pos hcs]
  cases k with
  | nil => exact ⟨List.append_nil cs, rfl⟩
  | cons c k =>
      have hc : p c = false := hk c rfl
      rw [List.takeWhile_cons, List.dropWhile_cons, hc, if_neg Bool.false_ne_true,
        if_neg Bool.false_ne_true, List.append_nil]
      exact ⟨rfl, rfl⟩

namespace Json

theorem readHex?_hexDigits : ∀ n < 32, Text.readHex? (Text.hexDigits 4 n) = some n := by
  decide

theorem readChar_quotedChar (c : Char) (k : List Char) :
    readChar (quotedChar c ++ k) = some (c, k) := by
  unfold quotedChar
  split_ifs with hq hb hf hn hr ht hc
  · simp only [Bool.or_eq_true, decide_eq_true_eq] at hq
    rcases hq with rfl | rfl <;> rfl
  · subst hb; rfl
  · subst hf; rfl
  · subst hn; rfl
  · subst hr; rfl
  · subst ht; rfl
  · have hh := readHex?_hexDigits c.toNat hc
    have hu : ofUnit? c.toNat = some c := by
      rw [ofUnit?, if_neg (by omega), Char.ofNat_toNat]
    simp only [Text.hexDigits, List.nil_append, List.cons_append] at hh ⊢
    simp only [readChar, hh, hu, Option.bind_some]
  · simp only [Bool.or_eq_true, decide_eq_true_eq, not_or] at hq
    simp [readChar, hq.2, hc]

theorem quotedChar_eq_cons (c : Char) : ∃ d ds, quotedChar c = d :: ds ∧ d ≠ '\x22' := by
  unfold quotedChar
  split_ifs with hq
  all_goals first
    | exact ⟨_, _, rfl, by decide⟩
    | simp only [Bool.or_eq_true, decide_eq_true_eq, not_or] at hq
      exact ⟨_, _, rfl, hq.1⟩

theorem readString_quotedChar (read k : List Char) (fuel : Nat) (c : Char) :
    readString read (fuel + 1) (quotedChar c ++ k) = readString (c :: read) fuel k := by
  have hr := readChar_quotedChar c k
  obtain ⟨d, ds, hd, hne⟩ := quotedChar_eq_cons c
  rw [hd, List.cons_append] at hr ⊢
  rw [readString, hr]
  intro cs h
  exact hne (List.cons.inj h).1

theorem readString_flatMap_quotedChar (cs read k : List Char) (fuel : Nat)
    (h : cs.length < fuel) :
    readString read fuel (cs.flatMap quotedChar ++ '\x22' :: k) =
      some (String.ofList (read.reverse ++ cs), k) := by
  obtain ⟨fuel, rfl⟩ : ∃ f, fuel = f + 1 := ⟨fuel - 1, by omega⟩
  induction cs generalizing read fuel with
  | nil => rw [List.flatMap_nil, List.nil_append, List.append_nil, readString]
  | cons c cs ih =>
      rw [List.length_cons] at h
      obtain ⟨fuel, rfl⟩ : ∃ f, fuel = f + 1 := ⟨fuel - 1, by omega⟩
      rw [List.flatMap_cons, List.append_assoc, readString_quotedChar, ih _ _ (by omega)]
      rw [List.reverse_cons, List.append_assoc, List.singleton_append]

theorem length_le_length_quoted (cs : List Char) :
    cs.length ≤ (cs.flatMap quotedChar).length := by
  induction cs with
  | nil => exact Nat.le_refl 0
  | cons c cs ih =>
      obtain ⟨d, ds, hd, -⟩ := quotedChar_eq_cons c
      rw [List.flatMap_cons, hd, List.length_append, List.length_cons, List.length_cons]
      omega

theorem readString_quoted (s : String) (k : List Char) :
    ∃ cs, quoted s ++ k = '\x22' :: cs ∧ readString [] cs.length cs = some (s, k) := by
  have hlen := length_le_length_quoted s.toList
  refine ⟨s.toList.flatMap quotedChar ++ '\x22' :: k, ?_, ?_⟩
  · rw [quoted, quotedChars, List.cons_append, List.append_assoc, List.singleton_append]
  · rw [readString_flatMap_quotedChar]
    · rw [List.reverse_nil, List.nil_append, String.ofList_toList]
    · rw [List.length_append, List.length_cons]
      omega

end Json

namespace Script

def scanLiteral : List Char → List Char × List Char
  | [] => ([], [])
  | '\x60' :: cs => ([], '\x60' :: cs)
  | '$' :: '\x7b' :: cs => ([], '$' :: '\x7b' :: cs)
  | '\\' :: c :: cs => (c :: (scanLiteral cs).1, (scanLiteral cs).2)
  | c :: cs => (c :: (scanLiteral cs).1, (scanLiteral cs).2)

inductive LiteralStop : List Char → Prop
  | close (k : List Char) : LiteralStop ('\x60' :: k)
  | substitution (k : List Char) : LiteralStop ('$' :: '\x7b' :: k)

theorem scanLiteral_plain {c : Char} {cs : List Char} (hs : c ≠ '\\') (ht : c ≠ '\x60')
    (hd : c = '$' → cs.head? ≠ some '\x7b') :
    scanLiteral (c :: cs) = (c :: (scanLiteral cs).1, (scanLiteral cs).2) := by
  rw [scanLiteral]
  · exact ht
  · rintro ds rfl rfl
    exact hd rfl rfl
  · rintro d ds rfl _
    exact hs rfl

theorem scanLiteral_stop {k : List Char} (hk : LiteralStop k) : scanLiteral k = ([], k) := by
  cases hk <;> rfl

theorem scanLiteral_escaped (c : Char) (cs : List Char) :
    scanLiteral ('\\' :: c :: cs) = (c :: (scanLiteral cs).1, (scanLiteral cs).2) := by
  simp [scanLiteral]

theorem head?_literalChars {s k : List Char} (hk : LiteralStop k)
    (h : (literalChars s ++ k).head? = some '\x7b') : s.head? = some '\x7b' := by
  cases s with
  | nil => cases hk <;> simp [literalChars] at h
  | cons c cs =>
      rw [literalChars] at h
      split at h
      · simp at h
      · simpa using h

theorem scanLiteral_literalChars (s : List Char) {k : List Char} (hk : LiteralStop k) :
    scanLiteral (literalChars s ++ k) = (s, k) := by
  induction s with
  | nil => exact scanLiteral_stop hk
  | cons c cs ih =>
      rw [literalChars]
      split
      · rw [List.cons_append, List.cons_append, scanLiteral_escaped, ih]
      next hc =>
        simp only [Bool.or_eq_true, Bool.and_eq_true, decide_eq_true_eq, not_or, not_and] at hc
        obtain ⟨⟨hs, ht⟩, hd⟩ := hc
        rw [List.cons_append, scanLiteral_plain hs ht, ih]
        intro hdollar hbrace
        exact hd hdollar (head?_literalChars hk hbrace)

def isNameStart (c : Char) : Bool :=
  c.isAlpha || c = '_' || c = '$'

def isNameChar (c : Char) : Bool :=
  isNameStart c || c.isDigit

def isIdentifier (s : String) : Bool :=
  match s.toList with
  | [] => false
  | c :: cs => isNameStart c && cs.all isNameChar

theorem all_isNameChar {s : String} (h : isIdentifier s = true) :
    s.toList.all isNameChar = true := by
  unfold isIdentifier at h
  split at h
  · cases h
  next c cs hs =>
    rw [Bool.and_eq_true] at h
    rw [hs, List.all_cons, isNameChar, h.1, h.2, Bool.true_or, Bool.true_and]

theorem toList_eq_cons {s : String} (h : isIdentifier s = true) :
    ∃ c cs, s.toList = c :: cs ∧ isNameChar c = true := by
  have hall := all_isNameChar h
  unfold isIdentifier at h
  split at h
  · cases h
  next c cs hs =>
    rw [hs, List.all_cons, Bool.and_eq_true] at hall
    exact ⟨c, cs, hs, hall.1⟩

def EndsName (k : List Char) : Prop :=
  ∀ c ∈ k.head?, isNameChar c = false

theorem endsName_cons {c : Char} {k : List Char} (h : isNameChar c = false) :
    EndsName (c :: k) := by
  intro d hd
  cases hd
  exact h

def scanName (cs : List Char) : List Char × List Char :=
  (cs.takeWhile isNameChar, cs.dropWhile isNameChar)

theorem scanName_append {name k : List Char} (h : name.all isNameChar = true) (hk : EndsName k) :
    scanName (name ++ k) = (name, k) := by
  obtain ⟨htake, hdrop⟩ := takeWhile_dropWhile_append (List.all_eq_true.mp h) hk
  rw [scanName, htake, hdrop]

theorem name_append_inj {name other k l : List Char} (hname : name.all isNameChar = true)
    (hother : other.all isNameChar = true) (hk : EndsName k) (hl : EndsName l)
    (h : name ++ k = other ++ l) : name = other ∧ k = l := by
  have hs := scanName_append hname hk
  rw [h, scanName_append hother hl] at hs
  exact ⟨(Prod.mk.inj hs).1.symm, (Prod.mk.inj hs).2.symm⟩

def skip : List Char → List Char → Option (List Char)
  | [], cs => some cs
  | _ :: _, [] => none
  | x :: xs, c :: cs => if c = x then skip xs cs else none

theorem skip_append (xs k : List Char) : skip xs (xs ++ k) = some k := by
  induction xs with
  | nil => rfl
  | cons x xs ih => rw [List.cons_append, skip, if_pos rfl, ih]

theorem skip_of_ne {x c : Char} (h : c ≠ x) (xs cs : List Char) :
    skip (x :: xs) (c :: cs) = none := by
  rw [skip, if_neg h]

theorem eq_append_of_skip {xs cs k : List Char} (h : skip xs cs = some k) : cs = xs ++ k := by
  induction xs generalizing cs with
  | nil => exact Option.some.inj h
  | cons x xs ih =>
      cases cs with
      | nil => cases h
      | cons c cs =>
          rw [skip] at h
          split at h
          next hc => rw [hc, ih h, List.cons_append]
          · cases h

end Script

end HtmlTemplate
