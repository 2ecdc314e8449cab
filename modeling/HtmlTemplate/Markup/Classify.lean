import HtmlTemplate.Markup.Basic
import HtmlTemplate.Options

namespace HtmlTemplate

variable {H : Type}

structure AttributeRules where
  dangerousHtml? : Option (String × String)
  classAlias? : Option String
  deriving DecidableEq, Repr

namespace AttributeRules

def host (o : Options) : AttributeRules :=
  ⟨some (o.dangerousHtmlAttribute, o.dangerousHtmlKey), some o.classNameAlias⟩

def component (o : Options) : AttributeRules :=
  ⟨none, if o.renameClassNameOnComponents then some o.classNameAlias else none⟩

def outputName (r : AttributeRules) (name : String) : String :=
  if r.classAlias? = some name then "class" else name

def payloadKey? (r : AttributeRules) (name : String) : Option String :=
  r.dangerousHtml?.bind fun (dangerous, key) => if name = dangerous then some key else none

end AttributeRules

inductive ClassifiedAttribute (H : Type) where
  | static (name value : String)
  | dynamic (name : String) (value : Expression H)
  | flag (name : String)
  | spread (handle : H)
  | dangerousHtml (payload : Expression H)

inductive Verdict (H : Type) where
  | kept (result : ClassifiedAttribute H)
  | dropped
  | malformed

namespace Verdict

def kept? : Verdict H → Option (ClassifiedAttribute H)
  | .kept a => some a
  | _ => none

def isMalformed : Verdict H → Bool
  | .malformed => true
  | _ => false

end Verdict

def AttributeValue.payload? (key : String) : AttributeValue H → Option (Expression H)
  | .text _ => none
  | .expression value => value.property? key

def AttributeValue.verdict (name : String) : AttributeValue H → Verdict H
  | .text value => .kept (.static name value)
  | .expression (.bool true) => .kept (.flag name)
  | .expression (.bool false) => .dropped
  | .expression value => .kept (.dynamic name value)

def Attribute.verdict (r : AttributeRules) : Attribute H → Verdict H
  | .spread handle => .kept (.spread handle)
  | .named name value? =>
      match r.payloadKey? name with
      | some key =>
          match value?.bind (·.payload? key) with
          | some payload => .kept (.dangerousHtml payload)
          | none => .malformed
      | none =>
          match value? with
          | none => .kept (.flag (r.outputName name))
          | some value => value.verdict (r.outputName name)

structure ClassifiedAttributes (H : Type) where
  attributes : List (ClassifiedAttribute H)
  malformedDangerousHtml : Bool

def classify (r : AttributeRules) (as : List (Attribute H)) : ClassifiedAttributes H :=
  ⟨as.filterMap fun a => (a.verdict r).kept?, as.any fun a => (a.verdict r).isMalformed⟩

namespace ClassifiedAttribute

def isSpread : ClassifiedAttribute H → Bool
  | .spread _ => true
  | _ => false

def payload? : ClassifiedAttribute H → Option (Expression H)
  | .dangerousHtml payload => some payload
  | _ => none

end ClassifiedAttribute

namespace ClassifiedAttributes

def hasSpread (c : ClassifiedAttributes H) : Bool :=
  c.attributes.any (·.isSpread)

def payload? (c : ClassifiedAttributes H) : Option (Expression H) :=
  (c.attributes.filterMap (·.payload?)).getLast?

end ClassifiedAttributes

end HtmlTemplate
