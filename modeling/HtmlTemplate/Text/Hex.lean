namespace HtmlTemplate.Text

def hexDigit (n : Nat) : Char :=
  if n < 10 then Char.ofNat (48 + n) else Char.ofNat (87 + n)

def hexValue? (c : Char) : Option Nat :=
  if '0' ≤ c ∧ c ≤ '9' then some (c.toNat - 48)
  else if 'a' ≤ c ∧ c ≤ 'f' then some (c.toNat - 87)
  else if 'A' ≤ c ∧ c ≤ 'F' then some (c.toNat - 55)
  else none

def hexDigits : Nat → Nat → List Char
  | 0, _ => []
  | k + 1, n => hexDigits k (n / 16) ++ [hexDigit (n % 16)]

def readHexFrom : Nat → List Char → Option Nat
  | n, [] => some n
  | n, c :: cs =>
      match hexValue? c with
      | some d => readHexFrom (16 * n + d) cs
      | none => none

def readHex? (cs : List Char) : Option Nat :=
  readHexFrom 0 cs

end HtmlTemplate.Text
