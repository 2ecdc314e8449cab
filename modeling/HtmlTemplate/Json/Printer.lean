import HtmlTemplate.Json.Basic
import HtmlTemplate.Json.Quoted

namespace HtmlTemplate.Json

mutual

def chars : Json → List Char
  | .null => ['n', 'u', 'l', 'l']
  | .bool true => ['t', 'r', 'u', 'e']
  | .bool false => ['f', 'a', 'l', 's', 'e']
  | .int n => (if n < 0 then ['-'] else []) ++ Nat.toDigits 10 n.natAbs
  | .real s => s.toList
  | .str s => quoted s
  | .arr items => '[' :: (List.intercalate [','] (itemChars items) ++ [']'])
  | .obj members => '\x7b' :: (List.intercalate [','] (memberChars members) ++ ['\x7d'])

def itemChars : List Json → List (List Char)
  | [] => []
  | j :: js => j.chars :: itemChars js

def memberChars : List (String × Json) → List (List Char)
  | [] => []
  | (key, j) :: ms => (quoted key ++ ':' :: j.chars) :: memberChars ms

end

def print (j : Json) : String :=
  String.ofList j.chars

end HtmlTemplate.Json
