namespace HtmlTemplate

inductive DiagnosticCode where
  | unsupportedTagName
  | malformedDangerousHtml
  | voidElementChildren
  deriving DecidableEq, Repr

def DiagnosticCode.text : DiagnosticCode → String
  | .unsupportedTagName => "unsupported-tag-name"
  | .malformedDangerousHtml => "malformed-dangerous-html"
  | .voidElementChildren => "void-element-children"

structure Diagnostic where
  code : DiagnosticCode
  tag : String
  message : String
  deriving DecidableEq, Repr

namespace Diagnostic

def text (d : Diagnostic) : String :=
  d.code.text ++ ": " ++ d.message

def unsupportedTag (tag : String) : Diagnostic :=
  ⟨.unsupportedTagName, tag, "<" ++ tag ++ "> cannot be rendered and was replaced by nothing"⟩

def malformedDangerousHtml (tag name key : String) : Diagnostic :=
  ⟨.malformedDangerousHtml, tag, "<" ++ tag ++ "> `" ++ name ++
    "` must be an object literal with a `" ++ key ++ "` key; the attribute is ignored"⟩

def droppedChildren (tag : String) : Diagnostic :=
  ⟨.voidElementChildren, tag, "<" ++ tag ++ "> is self-closing; its children were dropped"⟩

end Diagnostic

end HtmlTemplate
