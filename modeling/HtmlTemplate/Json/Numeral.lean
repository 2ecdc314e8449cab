import HtmlTemplate.Json.Basic
import HtmlTemplate.Number.Nearest

namespace HtmlTemplate.Json

structure Numeral where
  isNegative : Bool
  whole : List Char
  fraction : List Char
  exponent : List Char

def leadingDigits (n : Nat) : List Char → Nat × Nat
  | [] => (n, 0)
  | d :: ds =>
      if 10 * n + (d.toNat - 48) < 0x10000000000000000 then
        leadingDigits (10 * n + (d.toNat - 48)) ds
      else (n, ds.length + 1)

namespace Numeral

def text (n : Numeral) : String :=
  let sign := if n.isNegative then ['-'] else []
  let point := if n.fraction = [] then [] else ['.']
  String.ofList (sign ++ n.whole ++ point ++ n.fraction ++ n.exponent)

def exponentValue (n : Numeral) : Int :=
  match n.exponent with
  | _ :: '-' :: ds => -(Nat.ofDigitChars 10 ds 0 : Nat)
  | _ :: '+' :: ds => Nat.ofDigitChars 10 ds 0
  | _ :: ds => Nat.ofDigitChars 10 ds 0
  | [] => 0

def scaled (n : Numeral) : Nat × Int :=
  let (m, dropped) := leadingDigits 0 n.whole
  let (m, ignored) := leadingDigits m n.fraction
  (m, dropped - (n.fraction.length - ignored : Nat) + n.exponentValue)

/-- The size is taken as the leading digits times a power of ten, each of them rounded; it has to
round to a finite number. -/
def isInRange (n : Numeral) : Bool :=
  let (m, e) := n.scaled
  m = 0 || e ≤ 0 ||
    (e ≤ 308 && Double.nearest m * Double.nearest (Nat.pow 10 e.toNat) < Double.overflow)

def toJson (n : Numeral) : Json :=
  let size := Nat.ofDigitChars 10 n.whole 0
  if n.fraction = [] && n.exponent = [] && !(n.isNegative && size = 0) then
    .int (if n.isNegative then -size else size)
  else .real n.text

end Numeral

def readDigits (cs : List Char) : Option (List Char × List Char) :=
  match cs.span Char.isDigit with
  | ([], _) => none
  | (ds, rest) => some (ds, rest)

def readWhole : List Char → Option (List Char × List Char)
  | '0' :: cs => if cs.head?.any Char.isDigit then none else some (['0'], cs)
  | cs => readDigits cs

def readFraction : List Char → Option (List Char × List Char)
  | '.' :: cs => readDigits cs
  | cs => some ([], cs)

def readSignedDigits : List Char → Option (List Char × List Char)
  | '+' :: cs => (readDigits cs).map fun (ds, rest) => ('+' :: ds, rest)
  | '-' :: cs => (readDigits cs).map fun (ds, rest) => ('-' :: ds, rest)
  | cs => readDigits cs

def readExponent : List Char → Option (List Char × List Char)
  | 'e' :: cs => (readSignedDigits cs).map fun (ds, rest) => ('e' :: ds, rest)
  | 'E' :: cs => (readSignedDigits cs).map fun (ds, rest) => ('E' :: ds, rest)
  | cs => some ([], cs)

def readNumeral (isNegative : Bool) (cs : List Char) : Option (Numeral × List Char) := do
  let (whole, cs) ← readWhole cs
  let (fraction, cs) ← readFraction cs
  let (exponent, cs) ← readExponent cs
  return (⟨isNegative, whole, fraction, exponent⟩, cs)

def readNumber (isNegative : Bool) (cs : List Char) : Option (Json × List Char) := do
  let (n, cs) ← readNumeral isNegative cs
  if n.isInRange then some (n.toJson, cs) else none

end HtmlTemplate.Json
