import HtmlTemplate.Text.Unprintable

namespace HtmlTemplate.Text

def inspectChar (c : Char) : List Char :=
  if c = '\x22' || c = '\\' then ['\\', c]
  else if c = '\t' then ['\\', 't']
  else if c = '\n' then ['\\', 'n']
  else if c = '\r' then ['\\', 'r']
  else if c = '\x00' then ['\\', '0']
  else if isPrintable c then [c]
  else '\\' :: 'u' :: '\x7b' :: (Nat.toDigits 16 c.toNat ++ ['\x7d'])

def inspect (s : String) : String :=
  String.ofList ('\x22' :: (s.toList.flatMap inspectChar ++ ['\x22']))

end HtmlTemplate.Text
