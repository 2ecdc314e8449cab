import HtmlTemplate.Diagnostic
import HtmlTemplate.Helper
import HtmlTemplate.Template.Builder

namespace HtmlTemplate

variable {H : Type}

structure Log where
  helpers : HelperSet
  diagnostics : List Diagnostic
  deriving DecidableEq, Repr

namespace Log

def empty : Log :=
  ⟨.empty, []⟩

def append (l m : Log) : Log :=
  ⟨l.helpers.union m.helpers, l.diagnostics ++ m.diagnostics⟩

end Log

abbrev CompileM := StateM Log

namespace CompileM

def need (k : Helper) : CompileM Unit :=
  modify fun l => { l with helpers := l.helpers.insert k }

def report (d : Diagnostic) : CompileM Unit :=
  modify fun l => { l with diagnostics := l.diagnostics ++ [d] }

def reportIf (condition : Bool) (d : Diagnostic) : CompileM Unit :=
  if condition then report d else pure ()

def finish (pieces : List (Segment H)) : CompileM (Template H) := do
  need .html
  return .ofPieces pieces

end CompileM

structure Compiled (α : Type) where
  output : α
  helpers : HelperSet
  diagnostics : List Diagnostic

def CompileM.compiled {α : Type} (action : CompileM α) : Compiled α :=
  let (output, log) := action.run .empty
  ⟨output, log.helpers, log.diagnostics⟩

end HtmlTemplate
