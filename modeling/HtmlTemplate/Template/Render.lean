import HtmlTemplate.Scope
import HtmlTemplate.Template.Basic

namespace HtmlTemplate

variable {H : Type}

mutual

def Term.evaluate (s : Scope H) : Term H → Except RenderError Value
  | .host handle => s.value handle
  | .str text => .ok (.string text)
  | .bool value => .ok (.bool value)
  | .template t => do
      let markup ← t.render s
      return .html markup
  | .list items => do
      let values ← Term.evaluateAll s items
      return .list values
  | .object o => do
      let fields ← o.evaluate s
      return .object fields
  | .raw inner => do
      let value ← inner.evaluate s
      return .html value.rawText
  | .attributes o => do
      let fields ← o.evaluate s
      return .html (joinAttributes fields)
  | .call callee props => do
      let fields ← props.evaluate s
      s.component callee (.object fields)

def Term.evaluateAll (s : Scope H) : List (Term H) → Except RenderError (List Value)
  | [] => return []
  | t :: ts => do
      let value ← t.evaluate s
      let values ← Term.evaluateAll s ts
      return value :: values

def Template.render (s : Scope H) : Template H → Except RenderError String
  | ⟨segments⟩ => Segment.renderAll s segments

def Segment.render (s : Scope H) : Segment H → Except RenderError String
  | .literal text => .ok text
  | .expression term => do
      let value ← term.evaluate s
      return value.toHtml

def Segment.renderAll (s : Scope H) : List (Segment H) → Except RenderError String
  | [] => return ""
  | segment :: segments => do
      let markup ← segment.render s
      let rest ← Segment.renderAll s segments
      return markup ++ rest

def ObjectLiteral.evaluate (s : Scope H) : ObjectLiteral H → Except RenderError (Fields Value)
  | ⟨entries⟩ => do
      let pairs ← Entry.allPairs s entries
      return .ofPairs pairs

def Entry.pairs (s : Scope H) : Entry H → Except RenderError (List (String × Value))
  | .field key term => do
      let value ← term.evaluate s
      return [(key, value)]
  | .spread handle => do
      let value ← s.value handle
      return value.spreadFields

def Entry.allPairs (s : Scope H) : List (Entry H) → Except RenderError (List (String × Value))
  | [] => return []
  | entry :: entries => do
      let pairs ← entry.pairs s
      let rest ← Entry.allPairs s entries
      return pairs ++ rest

end

end HtmlTemplate
