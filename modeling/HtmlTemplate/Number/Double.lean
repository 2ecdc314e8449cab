/-! Numbers of 64 bits: a finite one is its sign with `significand · 2 ^ exponent`. -/

namespace HtmlTemplate

structure Double where
  bits : UInt64
  deriving DecidableEq, Repr

namespace Double

def signWeight : Nat :=
  0x8000000000000000

def fractionRange : Nat :=
  0x10000000000000

def isNegative (x : Double) : Bool :=
  signWeight ≤ x.bits.toNat

def magnitude (x : Double) : Nat :=
  x.bits.toNat % signWeight

def biasedExponent (x : Double) : Nat :=
  x.magnitude / fractionRange

def fraction (x : Double) : Nat :=
  x.magnitude % fractionRange

def isFinite (x : Double) : Bool :=
  x.biasedExponent < 2047

def isNaN (x : Double) : Bool :=
  x.biasedExponent = 2047 && x.fraction ≠ 0

def significand (x : Double) : Nat :=
  if x.biasedExponent = 0 then x.fraction else fractionRange + x.fraction

def exponent (x : Double) : Int :=
  (max x.biasedExponent 1 : Nat) - 1075

def isNarrowBelow (x : Double) : Bool :=
  x.fraction = 0 && 1 < x.biasedExponent

def ofInt (n : Int) : Double :=
  if n = 0 then ⟨0⟩
  else
    let k := Nat.log2 n.natAbs
    let size := (1023 + k) * fractionRange + (n.natAbs - Nat.pow 2 k) * Nat.pow 2 (52 - k)
    ⟨UInt64.ofNat (if n < 0 then signWeight + size else size)⟩

end Double

end HtmlTemplate
