import HtmlTemplate.Json.Record
import HtmlTemplate.Markup.Basic

namespace HtmlTemplate

open Json

mutual

def Expression.toJson : Expression String → Json
  | .bool value => variant "Bool" (.bool value)
  | .str text => variant "Str" (.str text)
  | .object properties => variant "Object" (.arr (Expression.propertiesToJson properties))
  | .host handle => variant "Host" (.str handle)

def Expression.propertiesToJson : List (String × Expression String) → List Json
  | [] => []
  | (key, value) :: ps =>
      .obj [("key", .str key), ("value", value.toJson)] :: Expression.propertiesToJson ps

end

mutual

def Expression.ofJson? : Json → Option (Expression String)
  | .obj [("Bool", .bool value)] => some (.bool value)
  | .obj [("Str", .str text)] => some (.str text)
  | .obj [("Object", .arr items)] => (Expression.propertiesOfJson? items).map .object
  | .obj [("Host", .str handle)] => some (.host handle)
  | _ => none

def Expression.propertiesOfJson? : List Json → Option (List (String × Expression String))
  | [] => some []
  | j :: js => do
      let p ← Expression.propertyOfJson? j
      let ps ← Expression.propertiesOfJson? js
      return p :: ps

def Expression.propertyOfJson? : Json → Option (String × Expression String)
  | .obj members => do
      let key ← (Fields.get? members "key").bind str?
      let value ← Expression.valueMember? members
      return (key, value)
  | .arr [.str key, j] => (Expression.ofJson? j).map fun value => (key, value)
  | _ => none

def Expression.valueMember? : List (String × Json) → Option (Expression String)
  | [] => none
  | (key, j) :: members =>
      if key = "value" then Expression.ofJson? j else Expression.valueMember? members

end

namespace AttributeValue

def toJson : AttributeValue String → Json
  | .text s => variant "Text" (.str s)
  | .expression value => variant "Expression" value.toJson

def ofJson? : Json → Option (AttributeValue String)
  | .obj [("Text", .str s)] => some (.text s)
  | .obj [("Expression", j)] => (Expression.ofJson? j).map .expression
  | _ => none

end AttributeValue

namespace Attribute

def valueToJson : Option (AttributeValue String) → Json
  | none => .null
  | some value => value.toJson

def toJson : Attribute String → Json
  | .named name value? =>
      variant "Named" (.obj [("name", .str name), ("value", valueToJson value?)])
  | .spread handle => variant "Spread" (.obj [("handle", .str handle)])

def valueOfJson? : Json → Option (Option (AttributeValue String))
  | .null => some none
  | j => (AttributeValue.ofJson? j).map some

def namedOfJson? : Json → Option (Attribute String)
  | .obj members => do
      let name ← (Fields.get? members "name").bind str?
      let value? ← valueOfJson? ((Fields.get? members "value").getD .null)
      return .named name value?
  | .arr [.str name, j] => (valueOfJson? j).map (.named name)
  | _ => none

def ofJson? : Json → Option (Attribute String)
  | .obj [("Named", j)] => namedOfJson? j
  | .obj [("Spread", j)] => (singleStr? "handle" j).map .spread
  | _ => none

def listOfJson? : Json → Option (List (Attribute String))
  | .arr items => items.mapM ofJson?
  | _ => none

end Attribute

mutual

def Node.toJson : Node String → Json
  | .element e => variant "Element" e.toJson
  | .fragment children => variant "Fragment" (.obj [("children", .arr (Node.listToJson children))])
  | .text raw => variant "Text" (.obj [("raw", .str raw)])
  | .expression handle => variant "Expression" (.obj [("handle", .str handle)])
  | .emptyExpression => .str "EmptyExpression"

def Element.toJson : Element String → Json
  | ⟨tag, attributes, children, closed⟩ =>
      .obj [("tag", .str tag), ("attributes", .arr (attributes.map (·.toJson))),
        ("children", .arr (Node.listToJson children)), ("explicitly_closed", .bool closed)]

def Node.listToJson : List (Node String) → List Json
  | [] => []
  | n :: ns => n.toJson :: Node.listToJson ns

end

mutual

def Node.ofJson? : Json → Option (Node String)
  | .str "EmptyExpression" => some .emptyExpression
  | .obj [("EmptyExpression", .null)] => some .emptyExpression
  | .obj [("Element", j)] => (Element.ofJson? j).map .element
  | .obj [("Fragment", j)] => (Node.fragmentOfJson? j).map .fragment
  | .obj [("Text", j)] => (singleStr? "raw" j).map .text
  | .obj [("Expression", j)] => (singleStr? "handle" j).map .expression
  | _ => none

def Element.ofJson? : Json → Option (Element String)
  | .obj members => do
      let tag ← (Fields.get? members "tag").bind str?
      let attributes ← (Fields.get? members "attributes").bind Attribute.listOfJson?
      let children ← Node.childrenMember? members
      let closed ← (Fields.get? members "explicitly_closed").bind bool?
      return ⟨tag, attributes, children, closed⟩
  | .arr [.str tag, attributes, .arr children, .bool closed] => do
      let attributes ← Attribute.listOfJson? attributes
      let children ← Node.listOfJson? children
      return ⟨tag, attributes, children, closed⟩
  | _ => none

def Node.fragmentOfJson? : Json → Option (List (Node String))
  | .obj members => Node.childrenMember? members
  | .arr [.arr children] => Node.listOfJson? children
  | _ => none

def Node.childrenMember? : List (String × Json) → Option (List (Node String))
  | [] => none
  | (key, j) :: members =>
      if key = "children" then
        match j with
        | .arr children => Node.listOfJson? children
        | _ => none
      else Node.childrenMember? members

def Node.listOfJson? : List Json → Option (List (Node String))
  | [] => some []
  | j :: js => do
      let n ← Node.ofJson? j
      let ns ← Node.listOfJson? js
      return n :: ns

end

end HtmlTemplate
