import HtmlTemplate.Compile.Element

namespace HtmlTemplate

open CompileM

variable {H : Type}

mutual

def Element.compile (o : Options) : Element H → CompileM (Template H)
  | ⟨tag, attributes, children, closed⟩ =>
      Element.assemble o ⟨tag, attributes, children, closed⟩ (compileChildren o children)

def Node.child? (o : Options) : Node H → CompileM (Option (Child H))
  | .element e => do
      let t ← e.compile o
      return some (.element t)
  | .fragment children => do
      let cs ← compileChildren o children
      let items ← Child.flattenAll cs
      return some (.fragment items)
  | .text raw => return Child.text? raw
  | .expression handle => return some (.expression handle)
  | .emptyExpression => return none

def compileChildren (o : Options) : List (Node H) → CompileM (List (Child H))
  | [] => return []
  | n :: ns => do
      let c ← n.child? o
      let cs ← compileChildren o ns
      return c.toList ++ cs

end

def flattenFragment (o : Options) (children : List (Node H)) : CompileM (List (Term H)) := do
  let cs ← compileChildren o children
  Child.flattenAll cs

def fragmentValue (o : Options) (children : List (Node H)) : CompileM (Term H) := do
  let items ← flattenFragment o children
  return .ofItems items

def Node.compile (o : Options) : Node H → CompileM (Template H)
  | .element e => e.compile o
  | .fragment children => do
      let value ← fragmentValue o children
      finish [.expression value]
  | .text raw => finish [.literal (Text.trim raw)]
  | .expression handle => finish [.expression (.host handle)]
  | .emptyExpression => finish []

def compile (o : Options) (n : Node H) : Compiled (Template H) :=
  (n.compile o).compiled

def compileFragment (o : Options) (children : List (Node H)) : Compiled (Term H) :=
  (fragmentValue o children).compiled

inductive CompileError where
  | notAFragment (found : String)
  deriving DecidableEq, Repr

def CompileError.message : CompileError → String
  | .notAFragment found => "expected a fragment, found " ++ found

def compileFragmentNode (o : Options) : Node H → Except CompileError (Compiled (Term H))
  | .fragment children => .ok (compileFragment o children)
  | n => .error (.notAFragment n.kindName)

end HtmlTemplate
