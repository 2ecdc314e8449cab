import HtmlTemplate.Helper
import HtmlTemplate.Json.Quoted
import HtmlTemplate.Template.Basic

namespace HtmlTemplate

structure ScriptNames where
  html : String := Helper.name .html
  rawHtml : String := Helper.name .rawHtml
  joinHtml : String := Helper.name .joinHtml
  deriving DecidableEq, Repr

def ScriptNames.ofHelper (n : ScriptNames) : Helper → String
  | .html => n.html
  | .rawHtml => n.rawHtml
  | .joinHtml => n.joinHtml

namespace Script

def literalChars : List Char → List Char
  | [] => []
  | c :: cs =>
      if c = '\\' || c = '\x60' || (c = '$' && cs.head? = some '\x7b') then
        '\\' :: c :: literalChars cs
      else c :: literalChars cs

def boolChars (b : Bool) : List Char :=
  if b then ['t', 'r', 'u', 'e'] else ['f', 'a', 'l', 's', 'e']

def braced : List (List Char) → List Char
  | [] => ['\x7b', '\x7d']
  | entries => '\x7b' :: ' ' :: (List.intercalate [',', ' '] entries ++ [' ', '\x7d'])

def bracketed (items : List (List Char)) : List Char :=
  '[' :: (List.intercalate [',', ' '] items ++ [']'])

def applied (callee argument : List Char) : List Char :=
  callee ++ '(' :: (argument ++ [')'])

def attributeListStart (n : ScriptNames) : String :=
  n.rawHtml ++ "(" ++ n.joinHtml ++ "(Object.entries("

def attributeListEnd (n : ScriptNames) : String :=
  ").filter(([, v]) => v != null && v !== false).map(([k, v]) => v === true ? " ++
    n.rawHtml ++ "(k) : " ++ n.html ++ "`$\x7b" ++ n.rawHtml ++ "(k)\x7d=\"$\x7bv\x7d\"`), \" \"))"

def attributeList (n : ScriptNames) (object : List Char) : List Char :=
  (attributeListStart n).toList ++ object ++ (attributeListEnd n).toList

end Script

open Script

mutual

def Term.scriptChars (n : ScriptNames) : Term String → List Char
  | .host handle => handle.toList
  | .str text => Json.quoted text
  | .bool value => boolChars value
  | .template t => t.scriptChars n
  | .list items => bracketed (Term.listScripts n items)
  | .object o => o.scriptChars n
  | .raw inner => applied n.rawHtml.toList (inner.scriptChars n)
  | .attributes o => attributeList n (o.scriptChars n)
  | .call callee props => applied callee.toList (props.scriptChars n)

def Term.listScripts (n : ScriptNames) : List (Term String) → List (List Char)
  | [] => []
  | t :: ts => t.scriptChars n :: Term.listScripts n ts

def Template.scriptChars (n : ScriptNames) : Template String → List Char
  | ⟨segments⟩ => n.html.toList ++ '\x60' :: (Segment.listScript n segments ++ ['\x60'])

def Segment.scriptChars (n : ScriptNames) : Segment String → List Char
  | .literal text => literalChars text.toList
  | .expression term => '$' :: '\x7b' :: (term.scriptChars n ++ ['\x7d'])

def Segment.listScript (n : ScriptNames) : List (Segment String) → List Char
  | [] => []
  | s :: ss => s.scriptChars n ++ Segment.listScript n ss

def ObjectLiteral.scriptChars (n : ScriptNames) : ObjectLiteral String → List Char
  | ⟨entries⟩ => braced (Entry.listScripts n entries)

def Entry.scriptChars (n : ScriptNames) : Entry String → List Char
  | .field key value => Json.quoted key ++ ':' :: ' ' :: value.scriptChars n
  | .spread handle => '.' :: '.' :: '.' :: handle.toList

def Entry.listScripts (n : ScriptNames) : List (Entry String) → List (List Char)
  | [] => []
  | e :: es => e.scriptChars n :: Entry.listScripts n es

end

def Term.script (n : ScriptNames) (t : Term String) : String :=
  String.ofList (t.scriptChars n)

def Template.script (n : ScriptNames) (t : Template String) : String :=
  String.ofList (t.scriptChars n)

end HtmlTemplate
