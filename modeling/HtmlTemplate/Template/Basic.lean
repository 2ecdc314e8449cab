import HtmlTemplate.Markup.Basic

namespace HtmlTemplate

variable {H : Type}

mutual

/-- `raw` is a value written as markup, `attributes` the attribute list of an element with spreads,
and `call` a component applied to its properties. -/
inductive Term (H : Type) where
  | host (handle : H)
  | str (text : String)
  | bool (value : Bool)
  | template (template : Template H)
  | list (items : List (Term H))
  | object (object : ObjectLiteral H)
  | raw (inner : Term H)
  | attributes (object : ObjectLiteral H)
  | call (callee : String) (props : ObjectLiteral H)

structure Template (H : Type) where
  segments : List (Segment H)

inductive Segment (H : Type) where
  | literal (text : String)
  | expression (term : Term H)

structure ObjectLiteral (H : Type) where
  entries : List (Entry H)

inductive Entry (H : Type) where
  | field (key : String) (value : Term H)
  | spread (handle : H)

end

namespace Segment

def literal? : Segment H → Option String
  | .literal text => some text
  | .expression _ => none

def expression? : Segment H → Option (Term H)
  | .literal _ => none
  | .expression term => some term

end Segment

namespace Template

def literal (text : String) : Template H :=
  ⟨[.literal text]⟩

def empty : Template H :=
  literal ""

def literals (t : Template H) : List String :=
  t.segments.filterMap (·.literal?)

def expressions (t : Template H) : List (Term H) :=
  t.segments.filterMap (·.expression?)

def asStatic? (t : Template H) : Option String :=
  match t.segments with
  | [.literal text] => some text
  | _ => none

def isEmpty (t : Template H) : Bool :=
  t.asStatic? = some ""

end Template

def Entry.fieldValue? (key : String) : Entry H → Option (Term H)
  | .field k value => if k = key then some value else none
  | .spread _ => none

namespace ObjectLiteral

def empty : ObjectLiteral H :=
  ⟨[]⟩

def push (o : ObjectLiteral H) (e : Entry H) : ObjectLiteral H :=
  ⟨o.entries ++ [e]⟩

def field? (o : ObjectLiteral H) (key : String) : Option (Term H) :=
  (o.entries.filterMap (·.fieldValue? key)).getLast?

def isEmpty (o : ObjectLiteral H) : Bool :=
  o.entries.isEmpty

end ObjectLiteral

namespace Term

mutual

def ofExpression : Expression H → Term H
  | .bool value => .bool value
  | .str text => .str text
  | .object properties => .object ⟨fieldsOfProperties properties⟩
  | .host handle => .host handle

def fieldsOfProperties : List (String × Expression H) → List (Entry H)
  | [] => []
  | (key, value) :: properties => .field key (ofExpression value) :: fieldsOfProperties properties

end

end Term

end HtmlTemplate
