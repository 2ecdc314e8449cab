import HtmlTemplate.Number.Double

/-! Grids of decimals are tried from coarse to fine, up to one whose point rounds to the number. -/

namespace HtmlTemplate

structure Decimal where
  digits : Nat
  exponent : Int
  deriving DecidableEq, Repr

namespace Double

def quarter (x : Double) (i : Int) : Nat :=
  Nat.pow 2 (x.exponent - 2).toNat * Nat.pow 10 (-i).toNat

def gridStep (x : Double) (i : Int) : Nat :=
  Nat.pow 10 i.toNat * Nat.pow 2 (2 - x.exponent).toNat

def gridValue (x : Double) (i : Int) : Nat :=
  4 * x.significand * x.quarter i

def isRoundedFrom (x : Double) (i : Int) (n : Nat) : Bool :=
  let point := n * x.gridStep i
  let low := (4 * x.significand - if x.isNarrowBelow then 1 else 2) * x.quarter i
  let high := (4 * x.significand + 2) * x.quarter i
  if x.significand % 2 = 0 then low ≤ point && point ≤ high else low < point && point < high

def gridPoint (x : Double) (i : Int) : Option Nat :=
  let below := x.gridValue i / x.gridStep i
  match x.isRoundedFrom i below, x.isRoundedFrom i (below + 1) with
  | true, true =>
      if 2 * (x.gridValue i % x.gridStep i) < x.gridStep i then some below else some (below + 1)
  | true, false => some below
  | false, true => some (below + 1)
  | false, false => none

def binaryCeiling (x : Double) : Int :=
  Nat.log2 x.significand + 1 + x.exponent

def decimalCeiling (x : Double) : Int :=
  x.binaryCeiling * (if 0 ≤ x.binaryCeiling then 30103 else 30102) / 100000 + 1

def gridExponents (x : Double) : List Int :=
  (List.range (x.decimalCeiling + 325).toNat).map fun j => x.decimalCeiling - (j : Nat)

def gridDecimal (x : Double) (i : Int) : Option Decimal :=
  (x.gridPoint i).map fun n => ⟨n, i⟩

def shortest (x : Double) : Decimal :=
  (x.gridExponents.findSome? x.gridDecimal).getD ⟨0, 0⟩

end Double

end HtmlTemplate
