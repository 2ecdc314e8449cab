import HtmlTemplate.Proofs.Interpretation.Basic
import HtmlTemplate.Proofs.Subterm.Basic

namespace HtmlTemplate

variable {H : Type}

inductive Reference (H : Type) where
  | value (handle : H)
  | component (name : String)
  deriving DecidableEq, Repr

def Reference.handle? : Reference H → Option H
  | .value handle => some handle
  | .component _ => none

def Term.reference : Term H → List (Reference H)
  | .host handle => [.value handle]
  | .call callee _ => [.component callee]
  | _ => []

def Template.references (t : Template H) : List (Reference H) :=
  t.collect Term.reference

def Template.handles (t : Template H) : List H :=
  t.references.filterMap (·.handle?)

def Expression.references (e : Expression H) : List (Reference H) :=
  e.handles.map .value

def Attribute.references (a : Attribute H) : List (Reference H) :=
  a.handles.map .value

mutual

def Node.references (o : Options) : Node H → List (Reference H)
  | .element e => e.references o
  | .fragment children => Node.allReferences o children
  | .text _ => []
  | .expression handle => [.value handle]
  | .emptyExpression => []

def Node.allReferences (o : Options) : List (Node H) → List (Reference H)
  | [] => []
  | n :: ns => n.references o ++ Node.allReferences o ns

def Element.references (o : Options) : Element H → List (Reference H)
  | ⟨tag, attributes, children, closed⟩ =>
      match Tag.kind tag with
      | .unsupported => []
      | .component =>
          attributes.flatMap (·.references) ++ Node.allReferences o children ++ [.component tag]
      | .host =>
          (attributes.filter (·.isPlain o)).flatMap (·.references) ++
            (attributes.filter (·.isSpread)).flatMap (·.references) ++
              if Tag.isVoid tag || !closed then []
              else
                match (attributes.filterMap (·.payload? o)).getLast? with
                | some payload => payload.references
                | none => Node.allReferences o children

end

def Node.handles (o : Options) (n : Node H) : List H :=
  (n.references o).filterMap (·.handle?)

end HtmlTemplate
