import HtmlTemplate.Markup.Tag
import HtmlTemplate.Options
import HtmlTemplate.Scope
import HtmlTemplate.Markup.Basic
import HtmlTemplate.Text.Trim

/-! The meaning of a markup tree in a scope, read off the tree without a template. -/

namespace HtmlTemplate

variable {H : Type}

def Fields.merge {α : Type} : List (String × α) → Fields α
  | [] => []
  | p :: ps => (ps.filter (·.1 = p.1)).getLastD p :: (merge ps).filter (·.1 ≠ p.1)

namespace Value

mutual

def rawForm : Value → String
  | .undefined => ""
  | .null => ""
  | .bool true => "true"
  | .bool false => "false"
  | .number x => x.text
  | .string text => text
  | .html markup => markup
  | .list items => String.intercalate "," (rawForms items)
  | .object _ => "[object Object]"

def rawForms : List Value → List String
  | [] => []
  | v :: vs => v.rawForm :: rawForms vs

end

def assigned (name : String) : Value → List String
  | .undefined => []
  | .null => []
  | .bool false => []
  | .bool true => [name]
  | v => [name ++ "=\"" ++ v.toHtml ++ "\""]

def joined (fields : Fields Value) : String :=
  String.intercalate " " (fields.flatMap fun f => f.2.assigned f.1)

end Value

mutual

def Expression.value (s : Scope H) : Expression H → Except RenderError Value
  | .bool b => return .bool b
  | .str text => return .string text
  | .object properties => do
      let pairs ← Expression.propertyPairs s properties
      return .object (Fields.merge pairs)
  | .host handle => s.value handle

def Expression.propertyPairs (s : Scope H) :
    List (String × Expression H) → Except RenderError (List (String × Value))
  | [] => return []
  | (key, e) :: properties => do
      let v ← e.value s
      let pairs ← Expression.propertyPairs s properties
      return (key, v) :: pairs

end

namespace Options

def hostName (o : Options) (name : String) : String :=
  if name = o.classNameAlias then "class" else name

def propName (o : Options) (name : String) : String :=
  if o.renameClassNameOnComponents then o.hostName name else name

end Options

namespace Attribute

def isSpread : Attribute H → Bool
  | .spread _ => true
  | .named _ _ => false

def isDangerous (o : Options) : Attribute H → Bool
  | .named name _ => name = o.dangerousHtmlAttribute
  | .spread _ => false

def isPlain (o : Options) (a : Attribute H) : Bool :=
  !a.isSpread && !a.isDangerous o

def payload? (o : Options) : Attribute H → Option (Expression H)
  | .named name (some (.expression (.object properties))) =>
      if name = o.dangerousHtmlAttribute then
        (properties.find? (·.1 = o.dangerousHtmlKey)).map Prod.snd
      else none
  | _ => none

theorem payload?_of_isPlain {o : Options} {a : Attribute H} (h : a.isPlain o = true) :
    a.payload? o = none := by
  unfold payload?
  split
  · have hn := h
    simp only [isPlain, isSpread, isDangerous, Bool.and_eq_true, Bool.not_eq_true',
      decide_eq_false_iff_not] at hn
    rw [if_neg hn.2]
  · rfl

def pairs (s : Scope H) (rename : String → String) :
    Attribute H → Except RenderError (List (String × Value))
  | .named name none => return [(rename name, .bool true)]
  | .named name (some (.text text)) => return [(rename name, .string text)]
  | .named _ (some (.expression (.bool false))) => return []
  | .named name (some (.expression e)) => do
      let v ← e.value s
      return [(rename name, v)]
  | .spread handle => do
      match ← s.value handle with
      | .object fields => return fields
      | _ => return []

def allPairs (s : Scope H) (rename : String → String) :
    List (Attribute H) → Except RenderError (List (String × Value))
  | [] => return []
  | a :: as => do
      let ps ← a.pairs s rename
      let qs ← allPairs s rename as
      return ps ++ qs

def markup (s : Scope H) (rename : String → String) : Attribute H → Except RenderError String
  | .named name none => return " " ++ rename name
  | .named name (some (.text text)) => return " " ++ rename name ++ "=\"" ++ text ++ "\""
  | .named name (some (.expression (.bool true))) => return " " ++ rename name
  | .named _ (some (.expression (.bool false))) => return ""
  | .named name (some (.expression e)) => do
      let v ← e.value s
      return " " ++ rename name ++ "=\"" ++ v.toHtml ++ "\""
  | .spread _ => return ""

def allMarkup (s : Scope H) (rename : String → String) :
    List (Attribute H) → Except RenderError String
  | [] => return ""
  | a :: as => do
      let m ← a.markup s rename
      let rest ← allMarkup s rename as
      return m ++ rest

def opening (o : Options) (s : Scope H) (as : List (Attribute H)) : Except RenderError String :=
  if as.any (·.isSpread) then do
    let ps ← allPairs s o.hostName (as.filter (·.isPlain o) ++ as.filter (·.isSpread))
    return " " ++ Value.joined (Fields.merge ps)
  else allMarkup s o.hostName (as.filter (·.isPlain o))

end Attribute

namespace Value

def collect? : List Value → Option Value
  | [] => none
  | [v] => some v
  | vs => some (.list vs)

def marked (o : Options) (vs : List Value) : String :=
  let content := String.join (vs.map toHtml)
  if vs.length ≤ 1 then content
  else o.fragmentStartMarker ++ content ++ o.fragmentEndMarker

end Value

mutual

def Node.interpret (o : Options) (s : Scope H) : Node H → Except RenderError String
  | .element e => e.interpret o s
  | .fragment children => Node.interpretAll o s children
  | .text raw => return Text.trim raw
  | .expression handle => do
      let v ← s.value handle
      return v.toHtml
  | .emptyExpression => return ""

def Node.interpretAll (o : Options) (s : Scope H) : List (Node H) → Except RenderError String
  | [] => return ""
  | n :: ns => do
      let m ← n.interpret o s
      let rest ← Node.interpretAll o s ns
      return m ++ rest

def Element.interpret (o : Options) (s : Scope H) : Element H → Except RenderError String
  | ⟨tag, attributes, children, closed⟩ =>
      match Tag.kind tag with
      | .unsupported => return ""
      | .component => do
          let props ← Attribute.allPairs s o.propName attributes
          let values ← Node.arguments o s children
          let last := (Value.collect? values).map fun v => ("children", v)
          let result ← s.component tag (.object (Fields.merge (props ++ last.toList)))
          return result.toHtml
      | .host => do
          let opening ← Attribute.opening o s attributes
          if Tag.isVoid tag || !closed then
            return "<" ++ tag ++ opening ++ " />"
          else
            match (attributes.filterMap (·.payload? o)).getLast? with
            | some payload => do
                let v ← payload.value s
                return "<" ++ tag ++ opening ++ ">" ++ v.rawForm ++ "</" ++ tag ++ ">"
            | none => do
                let content ← Node.contentAll o s children
                return "<" ++ tag ++ opening ++ ">" ++ content ++ "</" ++ tag ++ ">"

def Node.content (o : Options) (s : Scope H) : Node H → Except RenderError String
  | .element e => e.interpret o s
  | .fragment children => do
      let vs ← Node.items o s children
      return Value.marked o vs
  | .text raw => return Text.trim raw
  | .expression handle => do
      let v ← s.value handle
      return v.toHtml
  | .emptyExpression => return ""

def Node.contentAll (o : Options) (s : Scope H) : List (Node H) → Except RenderError String
  | [] => return ""
  | n :: ns => do
      let m ← n.content o s
      let rest ← Node.contentAll o s ns
      return m ++ rest

def Node.item (o : Options) (s : Scope H) : Node H → Except RenderError (List Value)
  | .element e => do
      let m ← e.interpret o s
      return [.html m]
  | .fragment children => Node.items o s children
  | .text raw => return if Text.trim raw = "" then [] else [.html (Text.trim raw)]
  | .expression handle => do
      let v ← s.value handle
      return [v]
  | .emptyExpression => return []

def Node.items (o : Options) (s : Scope H) : List (Node H) → Except RenderError (List Value)
  | [] => return []
  | n :: ns => do
      let vs ← n.item o s
      let ws ← Node.items o s ns
      return vs ++ ws

def Node.argument? (o : Options) (s : Scope H) : Node H → Except RenderError (Option Value)
  | .element e => do
      let m ← e.interpret o s
      return some (.html m)
  | .fragment children => do
      let vs ← Node.items o s children
      return Value.collect? vs
  | .text raw => return if Text.trim raw = "" then none else some (.string (Text.trim raw))
  | .expression handle => do
      let v ← s.value handle
      return some v
  | .emptyExpression => return none

def Node.arguments (o : Options) (s : Scope H) : List (Node H) → Except RenderError (List Value)
  | [] => return []
  | n :: ns => do
      let v? ← n.argument? o s
      let vs ← Node.arguments o s ns
      return v?.toList ++ vs

end

end HtmlTemplate
