import HtmlTemplate.Bindings
import HtmlTemplate.Compile.Child
import HtmlTemplate.Compile.Element
import HtmlTemplate.Compile.Log
import HtmlTemplate.Compile.Node
import HtmlTemplate.Component
import HtmlTemplate.Diagnostic
import HtmlTemplate.Fields
import HtmlTemplate.Helper
import HtmlTemplate.Json.Basic
import HtmlTemplate.Json.Numeral
import HtmlTemplate.Json.Parser
import HtmlTemplate.Json.Printer
import HtmlTemplate.Json.Quoted
import HtmlTemplate.Json.Record
import HtmlTemplate.Markup.Basic
import HtmlTemplate.Markup.Classify
import HtmlTemplate.Markup.Json
import HtmlTemplate.Markup.Tag
import HtmlTemplate.Number.Double
import HtmlTemplate.Number.Nearest
import HtmlTemplate.Number.Numeral
import HtmlTemplate.Number.Shortest
import HtmlTemplate.Options
import HtmlTemplate.Options.Json
import HtmlTemplate.Proofs.Alternation
import HtmlTemplate.Proofs.AttributeList.Reader
import HtmlTemplate.Proofs.AttributeList.Repeated
import HtmlTemplate.Proofs.Builder
import HtmlTemplate.Proofs.Children.Dropped
import HtmlTemplate.Proofs.Children.Props
import HtmlTemplate.Proofs.Children.Wrapped
import HtmlTemplate.Proofs.Compile.Context
import HtmlTemplate.Proofs.Compile.Output
import HtmlTemplate.Proofs.Diagnostics
import HtmlTemplate.Proofs.Escaping
import HtmlTemplate.Proofs.Fields
import HtmlTemplate.Proofs.Helpers
import HtmlTemplate.Proofs.Interleaving
import HtmlTemplate.Proofs.Interpretation.Basic
import HtmlTemplate.Proofs.Interpretation.Compile
import HtmlTemplate.Proofs.Interpretation.Object
import HtmlTemplate.Proofs.Merge
import HtmlTemplate.Proofs.Nesting.Render
import HtmlTemplate.Proofs.Nesting.Scan
import HtmlTemplate.Proofs.Noninterference
import HtmlTemplate.Proofs.Normalize
import HtmlTemplate.Proofs.Number.Reading
import HtmlTemplate.Proofs.Number.Rounding
import HtmlTemplate.Proofs.Number.Shortest
import HtmlTemplate.Proofs.Number.Size
import HtmlTemplate.Proofs.Number.Text
import HtmlTemplate.Proofs.Reference.Basic
import HtmlTemplate.Proofs.Reference.Compile
import HtmlTemplate.Proofs.Reference.Resolution
import HtmlTemplate.Proofs.Relabel.Basic
import HtmlTemplate.Proofs.Relabel.Compile
import HtmlTemplate.Proofs.Render
import HtmlTemplate.Proofs.Script.Containment
import HtmlTemplate.Proofs.Script.Cooked
import HtmlTemplate.Proofs.Script.Lexeme
import HtmlTemplate.Proofs.Script.Reader
import HtmlTemplate.Proofs.Script.RoundTrip
import HtmlTemplate.Proofs.Serialization
import HtmlTemplate.Proofs.Splice
import HtmlTemplate.Proofs.Spread
import HtmlTemplate.Proofs.Subterm.Basic
import HtmlTemplate.Proofs.Subterm.Compile
import HtmlTemplate.Scope
import HtmlTemplate.Template.Basic
import HtmlTemplate.Template.Builder
import HtmlTemplate.Template.Json
import HtmlTemplate.Template.Render
import HtmlTemplate.Template.Script
import HtmlTemplate.Text.Entity
import HtmlTemplate.Text.Hex
import HtmlTemplate.Text.Inspect
import HtmlTemplate.Text.Trim
import HtmlTemplate.Text.Unprintable
import HtmlTemplate.Value.Basic
import HtmlTemplate.Value.Inspect
