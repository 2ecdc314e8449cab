import HtmlTemplate.Proofs.Script.Lexeme

namespace HtmlTemplate

namespace Script

inductive LiteralUnit where
  | plain (c : Char)
  | escaped (c : Char)
  deriving DecidableEq, Repr

namespace LiteralUnit

def write : LiteralUnit → List Char
  | .plain c => [c]
  | .escaped c => ['\\', c]

def char : LiteralUnit → Char
  | .plain c => c
  | .escaped c => c

end LiteralUnit

def scanUnits : List Char → List LiteralUnit × List Char
  | [] => ([], [])
  | '\x60' :: cs => ([], '\x60' :: cs)
  | '$' :: '\x7b' :: cs => ([], '$' :: '\x7b' :: cs)
  | '\\' :: c :: cs => (.escaped c :: (scanUnits cs).1, (scanUnits cs).2)
  | c :: cs => (.plain c :: (scanUnits cs).1, (scanUnits cs).2)

theorem scanUnits_lossless (cs : List Char) :
    (scanUnits cs).1.flatMap LiteralUnit.write ++ (scanUnits cs).2 = cs := by
  fun_induction scanUnits cs with
  | case1 => rfl
  | case2 cs => rfl
  | case3 cs => rfl
  | case4 c cs ih => simpa [LiteralUnit.write] using ih
  | case5 c cs hclose hsubstitution hescape ih => simpa [LiteralUnit.write] using ih

theorem scanLiteral_eq_scanUnits (cs : List Char) :
    scanLiteral cs = ((scanUnits cs).1.map LiteralUnit.char, (scanUnits cs).2) := by
  fun_induction scanUnits cs with
  | case1 => rfl
  | case2 cs => rfl
  | case3 cs => rfl
  | case4 c cs ih =>
      rw [scanLiteral_escaped, ih]
      rfl
  | case5 c cs hclose hsubstitution hescape ih =>
      rw [scanLiteral, ih]
      · rfl
      · exact hclose
      · exact hsubstitution
      · exact hescape

end Script

open Script

theorem scanUnits_literal (n : ScriptNames) (text : String) (k : List Char) (hk : LiteralStop k) :
    ∃ us, scanUnits ((Segment.literal text).scriptChars n ++ k) = (us, k) ∧
      us.flatMap LiteralUnit.write = (Segment.literal text).scriptChars n ∧
      us.map LiteralUnit.char = text.toList := by
  have hscan := scanLiteral_literalChars text.toList hk
  have hlossless := scanUnits_lossless (literalChars text.toList ++ k)
  rw [scanLiteral_eq_scanUnits, Prod.mk.injEq] at hscan
  obtain ⟨hchars, hrest⟩ := hscan
  rw [Segment.scriptChars]
  refine ⟨_, Prod.ext rfl hrest, ?_, hchars⟩
  rw [hrest] at hlossless
  exact List.append_cancel_right hlossless

theorem scanUnits_literal_dollars :
    LiteralStop "$\x7bx\x7d\x60".toList ∧
    ∃ us, scanUnits ("\\\\\\\x60$\\$\x7b$".toList ++ "$\x7bx\x7d\x60".toList) =
        (us, "$\x7bx\x7d\x60".toList) ∧
      us.flatMap LiteralUnit.write = "\\\\\\\x60$\\$\x7b$".toList ∧
      us.map LiteralUnit.char = "\\\x60$$\x7b$".toList := by
  have hk : LiteralStop "$\x7bx\x7d\x60".toList := .substitution _
  exact ⟨hk, scanUnits_literal {} "\\\x60$$\x7b$" _ hk⟩

end HtmlTemplate
