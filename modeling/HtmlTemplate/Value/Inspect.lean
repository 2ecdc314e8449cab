import HtmlTemplate.Text.Inspect
import HtmlTemplate.Value.Basic

namespace HtmlTemplate.Value

mutual

def inspect : Value → String
  | .undefined => "Undefined"
  | .null => "Null"
  | .bool b => "Bool(" ++ boolText b ++ ")"
  | .number x => "Number(" ++ x.text ++ ")"
  | .string s => "String(" ++ Text.inspect s ++ ")"
  | .html s => "Html(" ++ Text.inspect s ++ ")"
  | .list items => "List([" ++ String.intercalate ", " (inspectItems items) ++ "])"
  | .object fields => "Object(\x7b" ++ String.intercalate ", " (inspectFields fields) ++ "\x7d)"

def inspectItems : List Value → List String
  | [] => []
  | v :: vs => v.inspect :: inspectItems vs

def inspectFields : List (String × Value) → List String
  | [] => []
  | (key, v) :: fs => (Text.inspect key ++ ": " ++ v.inspect) :: inspectFields fs

end

end HtmlTemplate.Value
