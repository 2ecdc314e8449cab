namespace HtmlTemplate

inductive TagKind where
  | host
  | component
  | unsupported
  deriving DecidableEq, Repr

namespace Tag

def isAsciiUpper (c : Char) : Bool :=
  'A' ≤ c && c ≤ 'Z'

def isAsciiLetter (c : Char) : Bool :=
  isAsciiUpper c || ('a' ≤ c && c ≤ 'z')

def kindOfChars : List Char → TagKind
  | [] => .unsupported
  | c :: cs =>
      if !isAsciiLetter c || cs.any (fun d => d = '.' || d = ':') then .unsupported
      else if isAsciiUpper c && !cs.contains '-' then .component
      else .host

/-- Tags that are dotted or namespaced or do not start with a letter are not supported. -/
def kind (tag : String) : TagKind :=
  kindOfChars tag.toList

def lowerChar (c : Char) : Char :=
  if isAsciiUpper c then Char.ofNat (c.toNat + 32)
  else if c = '\u212a' then 'k'
  else c

def voidNames : List String :=
  ["area", "base", "br", "col", "embed", "hr", "img", "input", "link", "meta", "param", "source",
    "track", "wbr"]

def isVoid (tag : String) : Bool :=
  voidNames.contains (String.ofList (tag.toList.map lowerChar))

end Tag

end HtmlTemplate
