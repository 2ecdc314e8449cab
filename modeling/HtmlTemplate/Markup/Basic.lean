import HtmlTemplate.Fields

/-! Markup trees over opaque expressions, the handles of type `H`. -/

namespace HtmlTemplate

variable {H : Type}

inductive Expression (H : Type) where
  | bool (value : Bool)
  | str (text : String)
  | object (properties : List (String × Expression H))
  | host (handle : H)

def Expression.property? (key : String) : Expression H → Option (Expression H)
  | .object properties => Fields.get? properties key
  | _ => none

inductive AttributeValue (H : Type) where
  | text (text : String)
  | expression (value : Expression H)

inductive Attribute (H : Type) where
  | named (name : String) (value? : Option (AttributeValue H))
  | spread (handle : H)

namespace Attribute

def flag (name : String) : Attribute H :=
  .named name none

def text (name text : String) : Attribute H :=
  .named name (some (.text text))

def expression (name : String) (value : Expression H) : Attribute H :=
  .named name (some (.expression value))

def host (name : String) (handle : H) : Attribute H :=
  .expression name (.host handle)

def name? : Attribute H → Option String
  | .named name _ => some name
  | .spread _ => none

end Attribute

mutual

inductive Node (H : Type) where
  | element (element : Element H)
  | fragment (children : List (Node H))
  | text (raw : String)
  | expression (handle : H)
  | emptyExpression

structure Element (H : Type) where
  tag : String
  attributes : List (Attribute H)
  children : List (Node H)
  explicitlyClosed : Bool

end

def Node.kindName : Node H → String
  | .element _ => "element"
  | .fragment _ => "fragment"
  | .text _ => "text"
  | .expression _ => "expression"
  | .emptyExpression => "empty expression"

namespace Element

def ofTag (tag : String) : Element H :=
  ⟨tag, [], [], true⟩

def selfClosing (e : Element H) : Element H :=
  { e with explicitlyClosed := false }

def addAttribute (e : Element H) (a : Attribute H) : Element H :=
  { e with attributes := e.attributes ++ [a] }

def addChild (e : Element H) (n : Node H) : Element H :=
  { e with children := e.children ++ [n] }

end Element

end HtmlTemplate
