import HtmlTemplate.Json.Basic

/-! A record is an object or array of its fields, a variant an object of one key or a bare name. -/

namespace HtmlTemplate.Json

def variant (name : String) (j : Json) : Json :=
  .obj [(name, j)]

def singleStr? (key : String) : Json → Option String
  | .obj members => (Fields.get? members key).bind str?
  | .arr [j] => j.str?
  | _ => none

def members? (keys : List String) : Json → Option (List (String × Json))
  | .obj members => some members
  | .arr items => if items.length ≤ keys.length then some (keys.zip items) else none
  | _ => none

def strMember? (members : Fields Json) (key default : String) : Option String :=
  match Fields.get? members key with
  | none => some default
  | some j => j.str?

def boolMember? (members : Fields Json) (key : String) (default : Bool) : Option Bool :=
  match Fields.get? members key with
  | none => some default
  | some j => j.bool?

end HtmlTemplate.Json
