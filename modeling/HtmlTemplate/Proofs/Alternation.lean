import HtmlTemplate.Proofs.Subterm.Compile

namespace HtmlTemplate

open CompileM

variable {H : Type}

def Term.nested : Term H → List (Template H)
  | .template t => [t]
  | _ => []

def Term.templates (t : Term H) : List (Template H) :=
  t.collect Term.nested

def Template.templates (t : Template H) : List (Template H) :=
  t :: t.collect Term.nested

theorem Term.ignores_nested : Term.Ignores (Term.nested : Term H → List (Template H)) :=
  ⟨fun _ => rfl, fun _ => rfl, fun _ => rfl, fun _ => rfl⟩

structure Template.IsAlternating (t : Template H) : Prop where
  length_eq : ∃ k, t.segments.length = 2 * k + 1
  literal_iff : ∀ i s, t.segments[i]? = some s → (s.literal?.isSome ↔ i % 2 = 0)
  expression_iff : ∀ i s, t.segments[i]? = some s → (s.expression?.isSome ↔ i % 2 = 1)

namespace Segment

theorem alternates_alternate (pending : String) (ps : List (Segment H)) :
    alternates (alternate pending ps) = true := by
  induction ps generalizing pending with
  | nil => rfl
  | cons p ps ih =>
      cases p with
      | literal text => exact ih (pending ++ text)
      | expression term => exact ih ""

theorem length_of_alternates {ss : List (Segment H)} (h : alternates ss = true) :
    ∃ k, ss.length = 2 * k + 1 := by
  fun_induction alternates ss with
  | case1 text => exact ⟨0, rfl⟩
  | case2 text term ss ih =>
      obtain ⟨k, hk⟩ := ih h
      exact ⟨k + 1, by simp only [List.length_cons, hk]; omega⟩
  | case3 => cases h

theorem literal?_of_alternates {ss : List (Segment H)} (h : alternates ss = true) (i : Nat)
    (s : Segment H) (hs : ss[i]? = some s) : s.literal?.isSome ↔ i % 2 = 0 := by
  fun_induction alternates ss generalizing i with
  | case1 text =>
      obtain _ | i := i
      · cases hs
        simp [literal?]
      · cases hs
  | case2 text term ss ih =>
      obtain _ | _ | i := i
      · cases hs
        simp [literal?]
      · cases hs
        simp [literal?]
      · have hi := ih h i hs
        rw [hi]
        omega
  | case3 => cases h

theorem isSome_expression? (s : Segment H) : s.expression?.isSome = !s.literal?.isSome := by
  cases s <;> rfl

theorem length_filterMap_of_alternates {ss : List (Segment H)} (h : alternates ss = true) :
    (ss.filterMap (·.literal?)).length = (ss.filterMap (·.expression?)).length + 1 := by
  fun_induction alternates ss with
  | case1 text => rfl
  | case2 text term ss ih => simpa [literal?, expression?] using ih h
  | case3 => cases h

end Segment

namespace Template

def alternates (t : Template H) : Bool :=
  Segment.alternates t.segments

theorem alternates_ofPieces (ps : List (Segment H)) : (ofPieces ps).alternates = true := by
  rw [alternates, segments_ofPieces]
  exact Segment.alternates_alternate "" ps

theorem isAlternating_of_alternates {t : Template H} (h : t.alternates = true) :
    t.IsAlternating where
  length_eq := Segment.length_of_alternates h
  literal_iff := Segment.literal?_of_alternates h
  expression_iff i s hs := by
    have hl := Segment.literal?_of_alternates h i s hs
    rw [Segment.isSome_expression?, Bool.not_eq_true', ← Bool.not_eq_true, hl]
    omega

theorem length_literals_of_alternates {t : Template H} (h : t.alternates = true) :
    t.literals.length = t.expressions.length + 1 :=
  Segment.length_filterMap_of_alternates h

end Template

namespace Child

-- In a fragment a text becomes a template that its child did not hold.
theorem all_alternates_items {c : Child H}
    (h : (c.collect Term.nested).all (·.alternates) = true) :
    (c.items.flatMap (·.collect Term.nested)).all (·.alternates) = true := by
  cases c with
  | text s =>
      simp [items, Term.collect, Term.nested, Template.collect_ofPieces, Segment.collect,
        Template.alternates_ofPieces]
  | expression handle => rfl
  | element t =>
      rw [items, List.flatMap_singleton]
      exact h
  | fragment items => exact h

theorem all_alternates_flatMap_items {cs : List (Child H)}
    (h : (cs.flatMap (·.collect Term.nested)).all (·.alternates) = true) :
    ((cs.flatMap (·.items)).flatMap (·.collect Term.nested)).all (·.alternates) = true := by
  induction cs with
  | nil => rfl
  | cons c cs ih =>
      rw [List.flatMap_cons, List.all_append, Bool.and_eq_true] at h
      rw [List.flatMap_cons, List.flatMap_append, List.all_append, all_alternates_items h.1,
        ih h.2, Bool.and_self]

end Child

namespace Element

variable {o : Options} {children : CompileM (List (Child H))}

theorem alternates_assemble (e : Element H) [AddsOnly children] :
    (e.assemble o children).output.alternates = true := by
  unfold assemble
  cases Tag.kind e.tag with
  | host =>
      rw [output_assembleHost]
      exact Template.alternates_ofPieces _
  | component =>
      rw [output_assembleComponent]
      exact Template.alternates_ofPieces _
  | unsupported => exact Template.alternates_ofPieces []

theorem collect_nested_pieces (as : List (Attribute H)) :
    (classify (.host o) as).pieces.output.flatMap (·.collect Term.nested) = [] := by
  rw [ClassifiedAttributes.collect_pieces o Term.ignores_nested,
    Attribute.flatMap_collect_eq_nil fun _ => rfl, Attribute.flatMap_collect_eq_nil fun _ => rfl]
  exact ite_self []

theorem all_alternates_collect_assemble (e : Element H) [AddsOnly children]
    (h : (children.output.flatMap (·.collect Term.nested)).all (·.alternates) = true) :
    ((e.assemble o children).output.collect Term.nested).all (·.alternates) = true := by
  unfold assemble
  cases Tag.kind e.tag with
  | host =>
      rw [collect_assembleHost, collect_nested_pieces, List.nil_append]
      cases e.isSelfClosing with
      | true => rfl
      | false =>
          rw [if_neg Bool.false_ne_true, collect_content o Term.ignores_nested]
          cases (classify (.host o) e.attributes).payload? with
          | some payload => simp [Term.nested]
          | none => exact h
  | component =>
      rw [collect_assembleComponent o Term.ignores_nested,
        Attribute.flatMap_collect_eq_nil fun _ => rfl, List.nil_append, List.all_append, h]
      rfl
  | unsupported => rfl

end Element

mutual

theorem Element.all_alternates_compile (o : Options) : (e : Element H) →
    (e.compile o).output.templates.all (·.alternates) = true
  | ⟨tag, attributes, children, closed⟩ => by
      have h := all_alternates_compileChildren o children
      rw [Element.compile, Template.templates, List.all_cons, Element.alternates_assemble,
        Element.all_alternates_collect_assemble _ h, Bool.and_self]

theorem Node.all_alternates_child? (o : Options) : (n : Node H) →
    ((n.child? o).output.toList.flatMap (·.collect Term.nested)).all (·.alternates) = true
  | .element e => by
      have h := e.all_alternates_compile o
      rw [Template.templates, List.all_cons] at h
      simp only [Node.output_child?_element, Option.toList_some, List.flatMap_singleton,
        Child.collect, Term.nested, List.all_append, List.all_cons, List.all_nil, Bool.and_true]
      rwa [Bool.and_comm]
  | .fragment children => by
      rw [Node.output_child?_fragment, Option.toList_some, List.flatMap_singleton]
      exact Child.all_alternates_flatMap_items (all_alternates_compileChildren o children)
  | .text raw => by
      rw [Node.output_child?_text, Child.collect_text?]
      rfl
  | .expression _ => rfl
  | .emptyExpression => rfl

theorem all_alternates_compileChildren (o : Options) : (ns : List (Node H)) →
    ((compileChildren o ns).output.flatMap (·.collect Term.nested)).all (·.alternates) = true
  | [] => rfl
  | n :: ns => by
      rw [output_compileChildren_cons, List.flatMap_append, List.all_append,
        n.all_alternates_child? o, all_alternates_compileChildren o ns, Bool.and_self]

end

theorem all_alternates_fragmentValue (o : Options) (children : List (Node H)) :
    (fragmentValue o children).output.templates.all (·.alternates) = true := by
  rw [output_fragmentValue, Term.templates, Term.collect_ofItems Term.ignores_nested]
  exact Child.all_alternates_flatMap_items (all_alternates_compileChildren o children)

theorem Node.all_alternates_compile (o : Options) (n : Node H) :
    (n.compile o).output.templates.all (·.alternates) = true := by
  have hpieces {ps : List (Segment H)}
      (h : (ps.flatMap (·.collect Term.nested)).all (·.alternates) = true) :
      (Template.ofPieces ps).templates.all (·.alternates) = true := by
    rw [Template.templates, List.all_cons, Template.alternates_ofPieces, Template.collect_ofPieces,
      h, Bool.and_self]
  cases n with
  | element e => exact e.all_alternates_compile o
  | fragment children =>
      have h := all_alternates_fragmentValue o children
      rw [Node.compile, output_bind, output_finish]
      apply hpieces
      simpa [Segment.collect, Term.templates] using h
  | text raw => exact hpieces rfl
  | expression handle => exact hpieces rfl
  | emptyExpression => exact hpieces rfl

theorem templates_compile_alternate (o : Options) :
    (∀ n : Node H, ∀ t ∈ (compile o n).output.templates,
      t.IsAlternating ∧ t.literals.length = t.expressions.length + 1) ∧
    ∀ children : List (Node H), ∀ t ∈ (compileFragment o children).output.templates,
      t.IsAlternating ∧ t.literals.length = t.expressions.length + 1 := by
  have hall {ts : List (Template H)} (h : ts.all (·.alternates) = true) (t : Template H)
      (ht : t ∈ ts) : t.IsAlternating ∧ t.literals.length = t.expressions.length + 1 := by
    have ha : t.alternates = true := List.all_eq_true.mp h t ht
    exact ⟨Template.isAlternating_of_alternates ha, Template.length_literals_of_alternates ha⟩
  exact ⟨fun n => hall (n.all_alternates_compile o),
    fun children => hall (all_alternates_fragmentValue o children)⟩

end HtmlTemplate
