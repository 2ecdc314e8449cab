import HtmlTemplate.Proofs.Reference.Basic
import HtmlTemplate.Proofs.Subterm.Compile

namespace HtmlTemplate

open CompileM

variable {H : Type} (o : Options)

theorem Term.ignores_reference : Term.Ignores (Term.reference : Term H → List (Reference H)) :=
  ⟨fun _ => rfl, fun _ => rfl, fun _ => rfl, fun _ => rfl⟩

theorem Attribute.collect_reference (as : List (Attribute H)) :
    as.flatMap (·.collect Term.reference) = as.flatMap (·.references) := by
  simp only [collect, references, Term.reference, List.map_eq_flatMap]

theorem Child.collect_reference_items (c : Child H) :
    c.items.flatMap (·.collect Term.reference) = c.collect Term.reference := by
  cases c <;>
    simp [items, collect, Term.collect, Term.reference, Template.collect_ofPieces, Segment.collect]

theorem Element.references_content (children : CompileM (List (Child H)))
    (p : Option (Expression H)) :
    (content o children p).output.flatMap (·.collect Term.reference) =
      match p with
      | some payload => payload.references
      | none => children.output.flatMap (·.collect Term.reference) := by
  rw [collect_content o Term.ignores_reference]
  cases p with
  | some payload =>
      simp only [Term.reference, List.append_nil, Expression.references, List.map_eq_flatMap]
  | none => rfl

theorem Element.references_assemble (e : Element H) (children : CompileM (List (Child H)))
    [AddsOnly children]
    (h : children.output.flatMap (·.collect Term.reference) = Node.allReferences o e.children) :
    (e.assemble o children).output.references = e.references o := by
  have hf := Term.ignores_reference (H := H)
  obtain ⟨tag, attributes, nodes, closed⟩ := e
  simp only [assemble, Element.references, Template.references]
  cases Tag.kind tag with
  | host =>
      rw [collect_assembleHost, ClassifiedAttributes.collect_pieces o hf, references_content,
        ClassifiedAttributes.payload?_classify, Attribute.collect_reference,
        Attribute.collect_reference, isSelfClosing, h]
      generalize (attributes.filterMap (·.payload? o)).getLast? = payload?
      cases attributes.any (·.isSpread) <;> cases payload? <;>
        simp only [Bool.false_eq_true, if_false, if_true, Term.reference, List.append_nil]
  | component =>
      rw [collect_assembleComponent o hf, Attribute.collect_reference, h]
      rfl
  | unsupported => rfl

mutual

theorem Element.references_compile : (e : Element H) →
    (e.compile o).output.references = e.references o
  | ⟨tag, attributes, children, closed⟩ => by
      rw [Element.compile]
      exact Element.references_assemble o _ _ (references_compileChildren children)

theorem Node.references_child? : (n : Node H) →
    (n.child? o).output.toList.flatMap (·.collect Term.reference) = n.references o
  | .element e => by
      simp only [Node.output_child?_element, Option.toList_some, List.flatMap_singleton,
        Child.collect, Term.reference, List.append_nil, Node.references]
      exact Element.references_compile e
  | .fragment children => by
      rw [Node.output_child?_fragment, Option.toList_some, List.flatMap_singleton, Child.collect,
        List.flatMap_assoc]
      simp only [Child.collect_reference_items]
      exact references_compileChildren children
  | .text raw => by
      rw [Node.output_child?_text]
      exact Child.collect_text? raw
  | .expression _ => rfl
  | .emptyExpression => rfl

theorem references_compileChildren : (ns : List (Node H)) →
    (compileChildren o ns).output.flatMap (·.collect Term.reference) = Node.allReferences o ns
  | [] => rfl
  | n :: ns => by
      rw [output_compileChildren_cons, List.flatMap_append, Node.references_child? n,
        references_compileChildren ns, Node.allReferences]

end

theorem Node.references_compile (n : Node H) :
    (n.compile o).output.references = n.references o := by
  cases n with
  | element e => exact e.references_compile o
  | fragment children =>
      rw [Node.references, ← references_compileChildren]
      simp only [Node.compile, output_bind, output_fragmentValue, output_finish,
        Template.references, Template.collect_ofPieces, List.flatMap_singleton, Segment.collect,
        Term.collect_ofItems Term.ignores_reference, List.flatMap_assoc,
        Child.collect_reference_items]
  | text raw => rfl
  | expression handle => rfl
  | emptyExpression => rfl

theorem handles_output_compile (n : Node H) : (compile o n).output.handles = n.handles o := by
  have h : (compile o n).output.references = n.references o := n.references_compile o
  rw [Template.handles, h, Node.handles]

end HtmlTemplate
