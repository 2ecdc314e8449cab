import HtmlTemplate.Scope
import HtmlTemplate.Value.Inspect

namespace HtmlTemplate

structure Bindings where
  values : Fields Value := []
  components : Fields (Value → Except RenderError Value) := []

namespace Bindings

def addValue (b : Bindings) (handle : String) (value : Value) : Bindings :=
  { b with values := b.values.insert handle value }

def addComponent (b : Bindings) (name : String) (run : Value → Except RenderError Value) :
    Bindings :=
  { b with components := b.components.insert name run }

def toScope (b : Bindings) : Scope String where
  value handle :=
    match b.values.get? handle with
    | some value => .ok value
    | none => .error (.unbound handle)
  component name props :=
    match b.components.get? name with
    | some run => run props
    | none => .error (.unknownComponent name)

def inspect (b : Bindings) : String :=
  "MapScope \x7b values: \x7b" ++ String.intercalate ", " (Value.inspectFields b.values) ++
    "\x7d, components: [" ++
    String.intercalate ", " (b.components.map fun (name, _) => Text.inspect name) ++ "] \x7d"

end Bindings

end HtmlTemplate
