import HtmlTemplate.Text.Inspect
import HtmlTemplate.Value.Basic

namespace HtmlTemplate

variable {H : Type}

inductive RenderError where
  | unbound (handle : String)
  | unknownComponent (name : String)
  | component (name reason : String)
  deriving DecidableEq, Repr

def RenderError.message : RenderError → String
  | .unbound handle => "unbound expression: " ++ Text.inspect handle
  | .unknownComponent name => "unknown component: <" ++ name ++ ">"
  | .component name reason => "component <" ++ name ++ "> failed: " ++ reason

structure Scope (H : Type) where
  value : H → Except RenderError Value
  component : String → Value → Except RenderError Value

end HtmlTemplate
