import HtmlTemplate.Text.Hex

namespace HtmlTemplate.Json

def quotedChar (c : Char) : List Char :=
  if c = '\x22' || c = '\\' then ['\\', c]
  else if c = '\x08' then ['\\', 'b']
  else if c = '\x0c' then ['\\', 'f']
  else if c = '\n' then ['\\', 'n']
  else if c = '\r' then ['\\', 'r']
  else if c = '\t' then ['\\', 't']
  else if c.toNat < 32 then '\\' :: 'u' :: Text.hexDigits 4 c.toNat
  else [c]

def quotedChars (cs : List Char) : List Char :=
  '\x22' :: (cs.flatMap quotedChar ++ ['\x22'])

def quoted (s : String) : List Char :=
  quotedChars s.toList

end HtmlTemplate.Json
