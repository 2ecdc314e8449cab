import HtmlTemplate.Compile.Node
import HtmlTemplate.Template.Render

namespace HtmlTemplate

inductive Part where
  | text (text : String)
  | prop (key : String)
  | raw (key : String)

def Part.fill (props : Value) : Part → String
  | .text s => s
  | .prop key => (props.get key).toHtml
  | .raw key => (props.get key).text

def Part.fillAll (props : Value) (parts : List Part) : String :=
  String.join (parts.map (·.fill props))

inductive Component where
  | fail (reason : String)
  | const (value : Value)
  | prop (key : String)
  | props
  | dump
  | html (parts : List Part)
  | text (parts : List Part)
  | template (node : Node String)

def Scope.ofProps (props : Value) : Scope String where
  value handle := .ok (props.get handle)
  component name _ := .error (.unknownComponent name)

def Value.dump : Value → String
  | .object fields => String.intercalate ";" (fields.map fun (key, v) => key ++ "=" ++ v.text)
  | _ => ""

def Component.run (name : String) (props : Value) : Component → Except RenderError Value
  | .fail reason => .error (.component name reason)
  | .const value => .ok value
  | .prop key => .ok (props.get key)
  | .props => .ok props
  | .dump => .ok (.string props.dump)
  | .html parts => .ok (.html (Part.fillAll props parts))
  | .text parts => .ok (.string (Part.fillAll props parts))
  | .template node => do
      let markup ← (compile {} node).output.render (.ofProps props)
      return .html markup

end HtmlTemplate
