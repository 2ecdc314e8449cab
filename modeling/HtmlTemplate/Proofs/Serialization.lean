import HtmlTemplate.Markup.Json

namespace HtmlTemplate

open Json

mutual

theorem Expression.ofJson?_toJson : (e : Expression String) → Expression.ofJson? e.toJson = some e
  | .bool _ => rfl
  | .str _ => rfl
  | .object properties => by
      rw [Expression.toJson, variant, Expression.ofJson?,
        Expression.propertiesOfJson?_propertiesToJson properties, Option.map_some]
  | .host _ => rfl

theorem Expression.propertiesOfJson?_propertiesToJson : (ps : List (String × Expression String)) →
    Expression.propertiesOfJson? (Expression.propertiesToJson ps) = some ps
  | [] => rfl
  | (key, value) :: ps => by
      have hvalue : Expression.valueMember? [("key", .str key), ("value", value.toJson)] =
          some value := by
        simp only [Expression.valueMember?, Expression.ofJson?_toJson value, if_true]
        rfl
      rw [Expression.propertiesToJson, Expression.propertiesOfJson?, Expression.propertyOfJson?,
        hvalue, Expression.propertiesOfJson?_propertiesToJson ps]
      rfl

end

theorem AttributeValue.ofJson?_toJson (v : AttributeValue String) :
    AttributeValue.ofJson? v.toJson = some v := by
  cases v with
  | text s => rfl
  | expression e => rw [toJson, variant, ofJson?, e.ofJson?_toJson, Option.map_some]

namespace Attribute

-- No value is written as null, which stands for a value that is not there.
theorem valueOfJson?_valueToJson (value? : Option (AttributeValue String)) :
    valueOfJson? (valueToJson value?) = some value? := by
  cases value? with
  | none => rfl
  | some v =>
      have hv := v.ofJson?_toJson
      cases v <;> rw [valueToJson, valueOfJson?, hv, Option.map_some] <;> exact nofun

theorem ofJson?_toJson (a : Attribute String) : Attribute.ofJson? a.toJson = some a := by
  cases a with
  | named name value? =>
      have hv := valueOfJson?_valueToJson value?
      have hget : (Fields.get? [("name", .str name), ("value", valueToJson value?)] "value").getD
          .null = valueToJson value? := rfl
      rw [toJson, variant, ofJson?, namedOfJson?, hget, hv]
      rfl
  | spread handle => rfl

theorem listOfJson?_toJson (as : List (Attribute String)) :
    listOfJson? (.arr (as.map (·.toJson))) = some as := by
  rw [listOfJson?]
  induction as with
  | nil => rfl
  | cons a as ih => simp [ofJson?_toJson, ih]

end Attribute

mutual

theorem Node.ofJson?_toJson : (n : Node String) → Node.ofJson? n.toJson = some n
  | .element e => by
      rw [Node.toJson, variant, Node.ofJson?, Element.ofJson?_toJson e, Option.map_some]
  | .fragment children => by
      rw [Node.toJson, variant, Node.ofJson?, Node.fragmentOfJson?, Node.childrenMember?,
        if_pos rfl, Node.listOfJson?_listToJson children, Option.map_some]
  | .text _ => rfl
  | .expression _ => rfl
  | .emptyExpression => rfl

theorem Element.ofJson?_toJson : (e : Element String) → Element.ofJson? e.toJson = some e
  | ⟨tag, attributes, children, closed⟩ => by
      have hattributes := Attribute.listOfJson?_toJson attributes
      have hchildren := Node.listOfJson?_listToJson children
      simp [Element.toJson, Element.ofJson?, Fields.get?, str?, bool?, hattributes,
        Node.childrenMember?, hchildren]

theorem Node.listOfJson?_listToJson : (ns : List (Node String)) →
    Node.listOfJson? (Node.listToJson ns) = some ns
  | [] => rfl
  | n :: ns => by
      rw [Node.listToJson, Node.listOfJson?, Node.ofJson?_toJson n, Node.listOfJson?_listToJson ns]
      rfl

end

theorem ofJson_toJson_node :
    (∀ n : Node String, Node.ofJson? n.toJson = some n) ∧ Function.Injective Node.toJson := by
  refine ⟨Node.ofJson?_toJson, ?_⟩
  intro n m h
  have hn := n.ofJson?_toJson
  rw [h, m.ofJson?_toJson] at hn
  exact (Option.some.inj hn).symm

end HtmlTemplate
