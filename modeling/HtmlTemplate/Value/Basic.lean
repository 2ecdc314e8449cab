import HtmlTemplate.Fields
import HtmlTemplate.Number.Numeral
import HtmlTemplate.Text.Entity

namespace HtmlTemplate

/-- `html` is trusted markup; the fields of an object are in the order of their insertion. -/
inductive Value where
  | undefined
  | null
  | bool (value : Bool)
  | number (x : Double)
  | string (text : String)
  | html (markup : String)
  | list (items : List Value)
  | object (fields : List (String × Value))

namespace Value

def isNullish : Value → Bool
  | .undefined => true
  | .null => true
  | _ => false

def get (key : String) : Value → Value
  | .object fields => (Fields.get? fields key).getD .undefined
  | _ => .undefined

def boolText (b : Bool) : String :=
  if b then "true" else "false"

def objectText : String :=
  "[object Object]"

mutual

def text : Value → String
  | .undefined => "undefined"
  | .null => "null"
  | .bool b => boolText b
  | .number x => x.text
  | .string s => s
  | .html s => s
  | .list items => String.intercalate "," (itemTexts items)
  | .object _ => objectText

def itemTexts : List Value → List String
  | [] => []
  | v :: vs => (if v.isNullish then "" else v.text) :: itemTexts vs

end

mutual

def toHtml : Value → String
  | .undefined => ""
  | .null => ""
  | .bool b => if b then Text.escape (boolText b) else ""
  | .number x => Text.escape x.text
  | .string s => Text.escape s
  | .html s => s
  | .list items => listHtml items
  | .object _ => Text.escape objectText

def listHtml : List Value → String
  | [] => ""
  | v :: vs => v.toHtml ++ listHtml vs

end

def spreadFields : Value → List (String × Value)
  | .object fields => fields
  | _ => []

def rawText (v : Value) : String :=
  if v.isNullish then "" else v.text

def attributeText? (name : String) : Value → Option String
  | .undefined => none
  | .null => none
  | .bool false => none
  | .bool true => some name
  | v => some (name ++ "=\"" ++ v.toHtml ++ "\"")

end Value

def joinAttributes (fields : Fields Value) : String :=
  String.intercalate " " (fields.filterMap fun (name, v) => v.attributeText? name)

end HtmlTemplate
