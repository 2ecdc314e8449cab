import HtmlTemplate.Json.Numeral
import HtmlTemplate.Text.Hex

namespace HtmlTemplate.Json

def skipBlanks (cs : List Char) : List Char :=
  cs.dropWhile fun c => c = ' ' || c = '\t' || c = '\n' || c = '\r'

def ofSurrogates? (high low : Nat) : Option Char :=
  if 0xD800 ≤ high ∧ high < 0xDC00 ∧ 0xDC00 ≤ low ∧ low < 0xE000 then
    some (Char.ofNat (0x10000 + (high - 0xD800) * 0x400 + (low - 0xDC00)))
  else none

def ofUnit? (unit : Nat) : Option Char :=
  if 0xD800 ≤ unit ∧ unit < 0xE000 then none else some (Char.ofNat unit)

def ofEscape? (c : Char) : Option Char :=
  if c = '\x22' || c = '\\' || c = '/' then some c
  else if c = 'b' then some '\x08'
  else if c = 'f' then some '\x0c'
  else if c = 'n' then some '\n'
  else if c = 'r' then some '\r'
  else if c = 't' then some '\t'
  else none

def readChar : List Char → Option (Char × List Char)
  | '\\' :: 'u' :: a :: b :: c :: d :: cs =>
      (Text.readHex? [a, b, c, d]).bind fun unit =>
        match ofUnit? unit, cs with
        | some x, cs => some (x, cs)
        | none, '\\' :: 'u' :: e :: f :: g :: h :: cs =>
            ((Text.readHex? [e, f, g, h]).bind (ofSurrogates? unit)).map fun x => (x, cs)
        | none, _ => none
  | '\\' :: c :: cs => (ofEscape? c).map fun x => (x, cs)
  | c :: cs => if c.toNat < 32 || c = '\\' then none else some (c, cs)
  | [] => none

def readString (read : List Char) : Nat → List Char → Option (String × List Char)
  | 0, _ => none
  | _ + 1, '\x22' :: cs => some (String.ofList read.reverse, cs)
  | fuel + 1, cs =>
      match readChar cs with
      | some (c, cs) => readString (c :: read) fuel cs
      | none => none

mutual

/-- The fuel bounds the number of nested and successive values. -/
def readValue : Nat → List Char → Option (Json × List Char)
  | 0, _ => none
  | fuel + 1, cs =>
      match skipBlanks cs with
      | 'n' :: 'u' :: 'l' :: 'l' :: rest => some (.null, rest)
      | 't' :: 'r' :: 'u' :: 'e' :: rest => some (.bool true, rest)
      | 'f' :: 'a' :: 'l' :: 's' :: 'e' :: rest => some (.bool false, rest)
      | '\x22' :: rest => do
          let (s, rest) ← readString [] rest.length rest
          return (.str s, rest)
      | '[' :: rest =>
          match skipBlanks rest with
          | ']' :: rest => some (.arr [], rest)
          | rest => do
              let (items, rest) ← readItems fuel rest
              return (.arr items, rest)
      | '\x7b' :: rest =>
          match skipBlanks rest with
          | '\x7d' :: rest => some (.obj [], rest)
          | rest => do
              let (members, rest) ← readMembers fuel rest
              return (.obj (Fields.ofPairs members), rest)
      | '-' :: rest => readNumber true rest
      | rest => readNumber false rest

def readItems : Nat → List Char → Option (List Json × List Char)
  | 0, _ => none
  | fuel + 1, cs => do
      let (item, rest) ← readValue fuel cs
      match skipBlanks rest with
      | ',' :: rest => do
          let (items, rest) ← readItems fuel rest
          return (item :: items, rest)
      | ']' :: rest => some ([item], rest)
      | _ => none

def readMembers : Nat → List Char → Option (List (String × Json) × List Char)
  | 0, _ => none
  | fuel + 1, cs =>
      match skipBlanks cs with
      | '\x22' :: rest => do
          let (key, rest) ← readString [] rest.length rest
          match skipBlanks rest with
          | ':' :: rest => do
              let (item, rest) ← readValue fuel rest
              match skipBlanks rest with
              | ',' :: rest => do
                  let (members, rest) ← readMembers fuel rest
                  return ((key, item) :: members, rest)
              | '\x7d' :: rest => some ([(key, item)], rest)
              | _ => none
          | _ => none
      | _ => none

end

def parse? (s : String) : Option Json :=
  match readValue (s.length + 1) s.toList with
  | some (j, rest) => if skipBlanks rest = [] then some j else none
  | none => none

end HtmlTemplate.Json
