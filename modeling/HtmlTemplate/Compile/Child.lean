import HtmlTemplate.Compile.Log
import HtmlTemplate.Options
import HtmlTemplate.Text.Trim

namespace HtmlTemplate

open CompileM

variable {H : Type}

inductive Child (H : Type) where
  | text (text : String)
  | expression (handle : H)
  | element (template : Template H)
  | fragment (items : List (Term H))

def Node.isContent : Node H → Bool
  | .text raw => Text.trim raw ≠ ""
  | .emptyExpression => false
  | _ => true

namespace Child

def text? (raw : String) : Option (Child H) :=
  if Text.trim raw = "" then none else some (.text (Text.trim raw))

def pieces (o : Options) : Child H → List (Segment H)
  | .text s => [.literal s]
  | .expression handle => [.expression (.host handle)]
  | .element t => [.expression (.template t)]
  | .fragment [] => []
  | .fragment [item] => [.expression item]
  | .fragment items =>
      [.literal o.fragmentStartMarker, .expression (.list items), .literal o.fragmentEndMarker]

def argument? : Child H → Option (Term H)
  | .text s => some (.str s)
  | .expression handle => some (.host handle)
  | .element t => some (.template t)
  | .fragment [] => none
  | .fragment [item] => some item
  | .fragment items => some (.list items)

def flatten : Child H → CompileM (List (Term H))
  | .text s => do
      let t ← finish [.literal s]
      return [.template t]
  | .expression handle => return [.host handle]
  | .element t => return [.template t]
  | .fragment items => return items

def flattenAll : List (Child H) → CompileM (List (Term H))
  | [] => return []
  | c :: cs => do
      let items ← c.flatten
      let rest ← flattenAll cs
      return items ++ rest

end Child

def Term.ofItems : List (Term H) → Term H
  | [item] => item
  | items => .list items

end HtmlTemplate
