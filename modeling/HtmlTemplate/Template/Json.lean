import HtmlTemplate.Diagnostic
import HtmlTemplate.Markup.Json
import HtmlTemplate.Template.Basic

namespace HtmlTemplate

open Json

mutual

def Term.toJson : Term String → Json
  | .host handle => variant "Host" (.str handle)
  | .str text => variant "Str" (.str text)
  | .bool value => variant "Bool" (.bool value)
  | .template t => variant "Template" t.toJson
  | .list items => variant "List" (.arr (Term.listToJson items))
  | .object o => variant "Object" o.toJson
  | .raw inner => variant "Unsafe" inner.toJson
  | .attributes o => variant "SpreadAttributes" o.toJson
  | .call callee props =>
      variant "Call" (.obj [("callee", .str callee), ("props", props.toJson)])

def Term.listToJson : List (Term String) → List Json
  | [] => []
  | t :: ts => t.toJson :: Term.listToJson ts

def Template.toJson : Template String → Json
  | ⟨segments⟩ => .obj [("segments", .arr (Segment.listToJson segments))]

def Segment.toJson : Segment String → Json
  | .literal text => variant "Literal" (.str text)
  | .expression term => variant "Expression" term.toJson

def Segment.listToJson : List (Segment String) → List Json
  | [] => []
  | s :: ss => s.toJson :: Segment.listToJson ss

def ObjectLiteral.toJson : ObjectLiteral String → Json
  | ⟨entries⟩ => .obj [("entries", .arr (Entry.listToJson entries))]

def Entry.toJson : Entry String → Json
  | .field key value => variant "Field" (.obj [("key", .str key), ("value", value.toJson)])
  | .spread handle => variant "Spread" (.str handle)

def Entry.listToJson : List (Entry String) → List Json
  | [] => []
  | e :: es => e.toJson :: Entry.listToJson es

end

def DiagnosticCode.jsonName : DiagnosticCode → String
  | .unsupportedTagName => "UnsupportedTagName"
  | .malformedDangerousHtml => "MalformedDangerousHtml"
  | .voidElementChildren => "VoidElementChildren"

def Diagnostic.toJson (d : Diagnostic) : Json :=
  .obj [("code", .str d.code.jsonName), ("tag", .str d.tag), ("message", .str d.message),
    ("display", .str d.text)]

end HtmlTemplate
