namespace HtmlTemplate

structure Options where
  dangerousHtmlAttribute : String := "dangerouslySetInnerHTML"
  dangerousHtmlKey : String := "__html"
  classNameAlias : String := "className"
  renameClassNameOnComponents : Bool := false
  fragmentStartMarker : String := "<!-- Fragment Start -->"
  fragmentEndMarker : String := "<!-- Fragment End -->"
  deriving DecidableEq, Repr

end HtmlTemplate
