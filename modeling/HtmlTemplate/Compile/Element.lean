import HtmlTemplate.Compile.Child
import HtmlTemplate.Markup.Classify
import HtmlTemplate.Markup.Tag

namespace HtmlTemplate

open CompileM

variable {H : Type}

namespace ClassifiedAttribute

def field? : ClassifiedAttribute H → Option (Entry H)
  | .static name value => some (.field name (.str value))
  | .dynamic name value => some (.field name (.ofExpression value))
  | .flag name => some (.field name (.bool true))
  | .spread _ => none
  | .dangerousHtml _ => none

def spread? : ClassifiedAttribute H → Option (Entry H)
  | .spread handle => some (.spread handle)
  | _ => none

def member? (a : ClassifiedAttribute H) : Option (Entry H) :=
  a.field?.or a.spread?

def pieces : ClassifiedAttribute H → List (Segment H)
  | .static name value => [.literal (" " ++ name ++ "=\"" ++ value ++ "\"")]
  | .dynamic name value =>
      [.literal (" " ++ name ++ "=\""), .expression (.ofExpression value), .literal "\""]
  | .flag name => [.literal (" " ++ name)]
  | .spread _ => []
  | .dangerousHtml _ => []

end ClassifiedAttribute

namespace ClassifiedAttributes

def props (c : ClassifiedAttributes H) : List (Entry H) :=
  c.attributes.filterMap (·.member?)

def merged (c : ClassifiedAttributes H) : ObjectLiteral H :=
  ⟨c.attributes.filterMap (·.field?) ++ c.attributes.filterMap (·.spread?)⟩

def pieces (c : ClassifiedAttributes H) : CompileM (List (Segment H)) :=
  if c.hasSpread then do
    need .joinHtml
    need .rawHtml
    return [.literal " ", .expression (.attributes c.merged)]
  else
    return c.attributes.flatMap (·.pieces)

end ClassifiedAttributes

namespace Element

def isSelfClosing (e : Element H) : Bool :=
  Tag.isVoid e.tag || !e.explicitlyClosed

def content (o : Options) (children : CompileM (List (Child H))) :
    Option (Expression H) → CompileM (List (Segment H))
  | some payload => do
      need .rawHtml
      return [.expression (.raw (.ofExpression payload))]
  | none => do
      let cs ← children
      return cs.flatMap (·.pieces o)

def assembleHost (o : Options) (e : Element H) (children : CompileM (List (Child H))) :
    CompileM (Template H) := do
  let c := classify (.host o) e.attributes
  reportIf c.malformedDangerousHtml
    (.malformedDangerousHtml e.tag o.dangerousHtmlAttribute o.dangerousHtmlKey)
  let opening ← c.pieces
  if e.isSelfClosing then
    reportIf (e.children.any (·.isContent) || c.payload?.isSome) (.droppedChildren e.tag)
    finish (.literal ("<" ++ e.tag) :: opening ++ [.literal " />"])
  else
    let content ← content o children c.payload?
    finish (.literal ("<" ++ e.tag) :: opening ++ .literal ">" :: content ++
      [.literal ("</" ++ e.tag ++ ">")])

def childrenProp (cs : List (Child H)) : List (Entry H) :=
  match cs.filterMap (·.argument?) with
  | [] => []
  | items => [.field "children" (.ofItems items)]

def assembleComponent (o : Options) (e : Element H) (children : CompileM (List (Child H))) :
    CompileM (Template H) := do
  let cs ← children
  let props := (classify (.component o) e.attributes).props
  finish [.expression (.call e.tag ⟨props ++ childrenProp cs⟩)]

def assembleUnsupported (e : Element H) : CompileM (Template H) := do
  report (.unsupportedTag e.tag)
  finish []

def assemble (o : Options) (e : Element H) (children : CompileM (List (Child H))) :
    CompileM (Template H) :=
  match Tag.kind e.tag with
  | .host => e.assembleHost o children
  | .component => e.assembleComponent o children
  | .unsupported => e.assembleUnsupported

end Element

end HtmlTemplate
