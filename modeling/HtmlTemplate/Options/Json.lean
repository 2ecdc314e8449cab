import HtmlTemplate.Json.Record
import HtmlTemplate.Options
import HtmlTemplate.Template.Script

namespace HtmlTemplate

open Json

namespace Options

def jsonKeys : List String :=
  ["dangerous_html_attribute", "dangerous_html_key", "class_name_alias",
    "rename_class_name_on_components", "fragment_start_marker", "fragment_end_marker"]

def ofJson? (j : Json) : Option Options := do
  let d : Options := {}
  let ms ← members? jsonKeys j
  let name ← strMember? ms "dangerous_html_attribute" d.dangerousHtmlAttribute
  let key ← strMember? ms "dangerous_html_key" d.dangerousHtmlKey
  let classAlias ← strMember? ms "class_name_alias" d.classNameAlias
  let rename ← boolMember? ms "rename_class_name_on_components" d.renameClassNameOnComponents
  let start ← strMember? ms "fragment_start_marker" d.fragmentStartMarker
  let stop ← strMember? ms "fragment_end_marker" d.fragmentEndMarker
  return ⟨name, key, classAlias, rename, start, stop⟩

def toJson (o : Options) : Json :=
  .obj [("dangerous_html_attribute", .str o.dangerousHtmlAttribute),
    ("dangerous_html_key", .str o.dangerousHtmlKey),
    ("class_name_alias", .str o.classNameAlias),
    ("rename_class_name_on_components", .bool o.renameClassNameOnComponents),
    ("fragment_start_marker", .str o.fragmentStartMarker),
    ("fragment_end_marker", .str o.fragmentEndMarker)]

end Options

namespace ScriptNames

def jsonKeys : List String :=
  ["html", "unsafe_html", "join_html"]

def ofJson? (j : Json) : Option ScriptNames := do
  let d : ScriptNames := {}
  let ms ← members? jsonKeys j
  let html ← strMember? ms "html" d.html
  let rawHtml ← strMember? ms "unsafe_html" d.rawHtml
  let joinHtml ← strMember? ms "join_html" d.joinHtml
  return ⟨html, rawHtml, joinHtml⟩

def toJson (n : ScriptNames) : Json :=
  .obj [("html", .str n.html), ("unsafe_html", .str n.rawHtml), ("join_html", .str n.joinHtml)]

end ScriptNames

end HtmlTemplate
