import HtmlTemplate.Number.Shortest

namespace HtmlTemplate

namespace Decimal

def positional (d : Decimal) : List Char :=
  let ds := Nat.toDigits 10 d.digits
  let point := ds.length + d.exponent
  if 0 ≤ d.exponent then ds ++ List.replicate d.exponent.toNat '0'
  else if 0 < point then ds.take point.toNat ++ '.' :: ds.drop point.toNat
  else '0' :: '.' :: (List.replicate (-point).toNat '0' ++ ds)

def scientific (d : Decimal) : List Char :=
  let ds := Nat.toDigits 10 d.digits
  let e := ds.length - 1 + d.exponent
  let mantissa :=
    match ds with
    | c :: c' :: cs => c :: '.' :: c' :: cs
    | cs => cs
  mantissa ++ 'e' :: (if e < 0 then '-' else '+') :: Nat.toDigits 10 e.natAbs

end Decimal

namespace Double

/-- The number nearest to `10 ^ (-6)`. -/
def micro : Double := ⟨0x3EB0C6F7A0B5ED8D⟩

/-- The number `10 ^ 21`. -/
def sextillion : Double := ⟨0x444B1AE4D6E2EF50⟩

def isPositional (x : Double) : Bool :=
  micro.magnitude ≤ x.magnitude && x.magnitude < sextillion.magnitude

def digitsText (x : Double) : List Char :=
  if x.isPositional then x.shortest.positional else x.shortest.scientific

def signText (x : Double) : List Char :=
  if x.isNegative then ['-'] else []

def text (x : Double) : String :=
  if x.isNaN then "NaN"
  else if x.magnitude = 0 then "0"
  else if x.isFinite then String.ofList (x.signText ++ x.digitsText)
  else String.ofList x.signText ++ "Infinity"

end Double

end HtmlTemplate
