import HtmlTemplate.Compile.Node
import HtmlTemplate.Proofs.Script.Lexeme
import HtmlTemplate.Template.Render

/-! The UTF-16 code units that the text of a template literal stands for when it runs. -/

namespace HtmlTemplate

namespace Script

def codeUnits (code : Nat) : List Nat :=
  if code < 0x10000 then [code]
  else [0xD800 + (code - 0x10000) / 0x400, 0xDC00 + (code - 0x10000) % 0x400]

def units (cs : List Char) : List Nat :=
  cs.flatMap fun c => codeUnits c.toNat

def isLineEnd (c : Char) : Bool :=
  c = '\n' || c = '\r' || c = '\u2028' || c = '\u2029'

def escapedCode (c : Char) : Nat :=
  if c = 'b' then 8
  else if c = 't' then 9
  else if c = 'n' then 10
  else if c = 'v' then 11
  else if c = 'f' then 12
  else if c = 'r' then 13
  else c.toNat

def readUnit (k : Nat) (cs : List Char) : Option (List Nat × List Char) :=
  if k ≤ cs.length then (Text.readHex? (cs.take k)).map fun unit => ([unit], cs.drop k)
  else none

def readCodePoint (cs : List Char) : Option (List Nat × List Char) :=
  match cs.span fun c => (Text.hexValue? c).isSome with
  | (d :: ds, '\x7d' :: rest) =>
      (Text.readHex? (d :: ds)).bind fun code =>
        if code ≤ 0x10FFFF then some (codeUnits code, rest) else none
  | _ => none

/-- What follows a backslash. A line end leaves nothing, and of the digits only a zero without
another digit after it has a value. -/
def readEscape : List Char → Option (List Nat × List Char)
  | '\r' :: '\n' :: cs => some ([], cs)
  | 'x' :: cs => readUnit 2 cs
  | 'u' :: '\x7b' :: cs => readCodePoint cs
  | 'u' :: cs => readUnit 4 cs
  | '0' :: cs => if cs.head?.any Char.isDigit then none else some ([0], cs)
  | c :: cs =>
      if isLineEnd c then some ([], cs)
      else if c.isDigit then none
      else some (codeUnits (escapedCode c), cs)
  | [] => none

def readTextChar : List Char → Option (List Nat × List Char)
  | '\\' :: cs => readEscape cs
  | '\r' :: '\n' :: cs => some (codeUnits '\n'.toNat, cs)
  | '\r' :: cs => some (codeUnits '\n'.toNat, cs)
  | c :: cs => some (codeUnits c.toNat, cs)
  | [] => none

def cook : Nat → List Char → Option (List Nat × List Char)
  | _, '\x60' :: cs => some ([], '\x60' :: cs)
  | _, '$' :: '\x7b' :: cs => some ([], '$' :: '\x7b' :: cs)
  | 0, _ => none
  | fuel + 1, cs => do
      let (us, rest) ← readTextChar cs
      let (vs, rest) ← cook fuel rest
      return (us ++ vs, rest)

def cooked? (cs : List Char) : Option (List Nat × List Char) :=
  cook cs.length cs

def normalizeLineEnds : List Char → List Char
  | '\r' :: '\n' :: cs => '\n' :: normalizeLineEnds cs
  | '\r' :: cs => '\n' :: normalizeLineEnds cs
  | c :: cs => c :: normalizeLineEnds cs
  | [] => []

theorem cook_stop {k : List Char} (hk : LiteralStop k) (fuel : Nat) :
    cook fuel k = some ([], k) := by
  cases hk <;> cases fuel <;> rfl

theorem cook_succ {c : Char} {cs rest : List Char} {us : List Nat} (fuel : Nat) (ht : c ≠ '\x60')
    (hd : c = '$' → cs.head? ≠ some '\x7b') (h : readTextChar (c :: cs) = some (us, rest)) :
    cook (fuel + 1) (c :: cs) = (cook fuel rest).map (Prod.map (us ++ ·) id) := by
  rw [cook]
  · simp only [h, Option.bind_eq_bind, Option.bind_some]
    cases cook fuel rest <;> rfl
  · intro ds heq
    exact ht (List.cons.inj heq).1
  · intro ds heq
    obtain ⟨rfl, rfl⟩ := List.cons.inj heq
    exact hd rfl rfl

theorem readTextChar_plain {c : Char} (cs : List Char) (hs : c ≠ '\\') (hr : c ≠ '\r') :
    readTextChar (c :: cs) = some (codeUnits c.toNat, cs) := by
  rw [readTextChar]
  · exact hs
  · exact fun _ h _ => hr h
  · exact hr

theorem readTextChar_return {cs : List Char} (h : cs.head? ≠ some '\n') :
    readTextChar ('\r' :: cs) = some (codeUnits '\n'.toNat, cs) := by
  rw [readTextChar]
  rintro ds rfl
  exact h rfl

theorem readTextChar_escaped {c : Char} (cs : List Char) (h : c = '\\' ∨ c = '\x60' ∨ c = '$') :
    readTextChar ('\\' :: c :: cs) = some (codeUnits c.toNat, cs) := by
  rcases h with rfl | rfl | rfl <;> rfl

theorem cook_return {cs rest : List Char} {us : List Nat} (fuel : Nat)
    (h : readTextChar ('\r' :: cs) = some (us, rest)) :
    cook (fuel + 1) ('\r' :: cs) = (cook fuel rest).map (Prod.map (us ++ ·) id) :=
  cook_succ fuel (by decide) (fun hd => absurd hd (by decide)) h

theorem literalChars_lineEnd {c : Char} (cs : List Char) (h : isLineEnd c = true) :
    literalChars (c :: cs) = c :: literalChars cs := by
  simp only [isLineEnd, Bool.or_eq_true, decide_eq_true_eq] at h
  rcases h with ((rfl | rfl) | rfl) | rfl <;> simp [literalChars]

theorem head?_literalChars_append {cs k : List Char} (hk : LiteralStop k)
    (h : cs.head? ≠ some '\n') : (literalChars cs ++ k).head? ≠ some '\n' := by
  cases cs with
  | nil => cases hk <;> simp [literalChars]
  | cons c cs =>
      rw [literalChars]
      split
      · simp
      · simpa using h

section

variable {k : List Char} (hk : LiteralStop k) (fuel : Nat)
include hk

theorem cook_literalChars_cons {c : Char} (cs : List Char) (hr : c ≠ '\r') :
    cook (fuel + 1) (literalChars (c :: cs) ++ k) =
      (cook fuel (literalChars cs ++ k)).map (Prod.map (codeUnits c.toNat ++ ·) id) := by
  rw [literalChars]
  split
  next hc =>
    simp only [Bool.or_eq_true, Bool.and_eq_true, decide_eq_true_eq] at hc
    have he : c = '\\' ∨ c = '\x60' ∨ c = '$' := by
      rcases hc with (hs | ht) | ⟨hd, -⟩
      · exact .inl hs
      · exact .inr (.inl ht)
      · exact .inr (.inr hd)
    exact cook_succ fuel (by decide) (fun h => absurd h (by decide)) (readTextChar_escaped _ he)
  next hc =>
    simp only [Bool.or_eq_true, Bool.and_eq_true, decide_eq_true_eq, not_or, not_and] at hc
    obtain ⟨⟨hs, ht⟩, hd⟩ := hc
    refine cook_succ fuel ht (fun hdollar hbrace => ?_) (readTextChar_plain _ hs hr)
    exact hd hdollar (head?_literalChars hk hbrace)

theorem cook_literalChars (cs : List Char) (h : cs.length ≤ fuel) :
    cook fuel (literalChars cs ++ k) = some (units (normalizeLineEnds cs), k) := by
  fun_induction normalizeLineEnds cs generalizing fuel with
  | case1 cs ih =>
      obtain ⟨fuel, rfl⟩ : ∃ f, fuel = f + 1 := ⟨fuel - 1, by simp at h; omega⟩
      have hcook := ih fuel (by simp at h; omega)
      rw [literalChars_lineEnd _ rfl, literalChars_lineEnd _ rfl, List.cons_append,
        List.cons_append, cook_return fuel rfl, hcook]
      rfl
  | case2 cs hne ih =>
      obtain ⟨fuel, rfl⟩ : ∃ f, fuel = f + 1 := ⟨fuel - 1, by simp at h; omega⟩
      have hcook := ih fuel (by simp at h; omega)
      have hhead : cs.head? ≠ some '\n' := by
        intro heq
        obtain ⟨ds, rfl⟩ := List.head?_eq_some_iff.mp heq
        exact hne ds rfl
      rw [literalChars_lineEnd _ rfl, List.cons_append,
        cook_return fuel (readTextChar_return (head?_literalChars_append hk hhead)), hcook]
      rfl
  | case3 c cs hcrlf hr ih =>
      obtain ⟨fuel, rfl⟩ : ∃ f, fuel = f + 1 := ⟨fuel - 1, by simp at h; omega⟩
      have hcook := ih fuel (by simp at h; omega)
      rw [cook_literalChars_cons hk fuel cs hr, hcook]
      rfl
  | case4 => exact cook_stop hk fuel

end

theorem length_le_length_literalChars (cs : List Char) :
    cs.length ≤ (literalChars cs).length := by
  induction cs with
  | nil => exact Nat.le_refl 0
  | cons c cs ih =>
      rw [literalChars]
      split <;> simp only [List.length_cons] <;> omega

theorem cooked?_literalChars (cs : List Char) {k : List Char} (hk : LiteralStop k) :
    cooked? (literalChars cs ++ k) = some (units (normalizeLineEnds cs), k) := by
  have hlen := length_le_length_literalChars cs
  apply cook_literalChars hk
  rw [List.length_append]
  omega

theorem normalizeLineEnds_eq_self {cs : List Char} (h : '\r' ∉ cs) : normalizeLineEnds cs = cs := by
  fun_induction normalizeLineEnds cs with
  | case1 cs ih => simp at h
  | case2 cs hne ih => simp at h
  | case3 c cs hcrlf hr ih => rw [ih (List.not_mem_of_not_mem_cons h)]
  | case4 => rfl

theorem return_not_mem_normalizeLineEnds (cs : List Char) : '\r' ∉ normalizeLineEnds cs := by
  fun_induction normalizeLineEnds cs with
  | case1 cs ih => simpa using ih
  | case2 cs hne ih => simpa using ih
  | case3 c cs hcrlf hr ih => simpa [eq_comm, ih] using hr
  | case4 => simp

theorem mem_units_return (cs : List Char) : 13 ∈ units cs ↔ '\r' ∈ cs := by
  have hc (c : Char) : 13 ∈ codeUnits c.toNat ↔ '\r' = c := by
    rw [codeUnits]
    split
    · rw [List.mem_singleton, ← Char.toNat_inj]
      rfl
    · simp only [List.mem_cons, List.not_mem_nil, or_false]
      constructor
      · omega
      · rintro rfl
        contradiction
  simp [units, List.mem_flatMap, hc]

theorem units_normalizeLineEnds_eq_iff (cs : List Char) :
    units (normalizeLineEnds cs) = units cs ↔ '\r' ∉ cs := by
  constructor
  · intro h hr
    rw [← mem_units_return, ← h, mem_units_return] at hr
    exact return_not_mem_normalizeLineEnds cs hr
  · intro h
    rw [normalizeLineEnds_eq_self h]

end Script

open Script

theorem cooked_literal_eq_rendered_iff (n : ScriptNames) (s : Scope String) (text : String)
    (k : List Char) (hk : LiteralStop k) :
    cooked? ((Segment.literal text).scriptChars n ++ k) =
      some (units (normalizeLineEnds text.toList), k) ∧
    ∃ markup, (Segment.literal text).render s = .ok markup ∧
      (cooked? ((Segment.literal text).scriptChars n ++ k) = some (units markup.toList, k) ↔
        '\r' ∉ text.toList) := by
  have hcooked := cooked?_literalChars text.toList hk
  rw [Segment.scriptChars]
  refine ⟨hcooked, text, rfl, ?_⟩
  rw [hcooked, Option.some.injEq, Prod.mk.injEq, units_normalizeLineEnds_eq_iff]
  exact and_iff_left rfl

theorem cooked_literal_eq_rendered_iff_escaped :
    LiteralStop "\x60;".toList ∧
    cooked? ("a\\\x60b \\$\x7bc\x7d \\\\d $\u2028".toList ++ "\x60;".toList) =
      some (units "a\x60b $\x7bc\x7d \\d $\u2028".toList, "\x60;".toList) := by
  have hk : LiteralStop "\x60;".toList := .close _
  obtain ⟨-, markup, hm, hiff⟩ := cooked_literal_eq_rendered_iff {}
    ⟨fun _ => .ok .null, fun _ _ => .ok .null⟩ "a\x60b $\x7bc\x7d \\d $\u2028" _ hk
  cases hm
  exact ⟨hk, hiff.mpr (by decide)⟩

def preformatted : Node String :=
  .element ⟨"pre", [], [.text "a\r\nb"], true⟩

theorem cooked_preformatted_ne_rendered :
    (compile {} preformatted).output.script {} = "html\x60<pre>a\r\nb</pre>\x60" ∧
    cooked? "<pre>a\r\nb</pre>\x60".toList = some (units "<pre>a\nb</pre>".toList, ['\x60']) ∧
    (∀ s, (compile {} preformatted).output.render s = .ok "<pre>a\r\nb</pre>") ∧
    units "<pre>a\nb</pre>".toList ≠ units "<pre>a\r\nb</pre>".toList := by
  refine ⟨rfl, ?_, fun s => rfl, ?_⟩
  · decide
  · decide

end HtmlTemplate
