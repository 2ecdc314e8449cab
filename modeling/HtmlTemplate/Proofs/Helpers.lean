import HtmlTemplate.Proofs.Subterm.Compile

namespace HtmlTemplate

open CompileM

variable {H : Type}

theorem Log.contains_append (l m : Log) (k : Helper) :
    (l.append m).helpers.contains k = (l.helpers.contains k || m.helpers.contains k) :=
  HelperSet.contains_union _ _ _

namespace Term

def isTemplate : Term H → Bool
  | .template _ => true
  | _ => false

def isRaw : Term H → Bool
  | .raw _ => true
  | _ => false

def isAttributes : Term H → Bool
  | .attributes _ => true
  | _ => false

def helpers : Term H → List Helper
  | .template _ => [.html]
  | .raw _ => [.rawHtml]
  | .attributes _ => [.joinHtml, .rawHtml]
  | _ => []

theorem ignores_helpers : Term.Ignores (helpers : Term H → List Helper) :=
  ⟨fun _ => rfl, fun _ => rfl, fun _ => rfl, fun _ => rfl⟩

theorem contains_helpers_template (t : Template H) (k : Helper) :
    (Term.template t).helpers.contains k = decide (Helper.html = k) := by
  cases k <;> rfl

theorem contains_helpers_html (t : Term H) : t.helpers.contains .html = t.isTemplate := by
  cases t <;> rfl

theorem contains_helpers_rawHtml (t : Term H) :
    t.helpers.contains .rawHtml = (t.isRaw || t.isAttributes) := by
  cases t <;> rfl

theorem contains_helpers_joinHtml (t : Term H) :
    t.helpers.contains .joinHtml = t.isAttributes := by
  cases t <;> rfl

theorem contains_flatMap_helpers (ts : List (Term H)) (k : Helper) :
    (ts.flatMap helpers).contains k = ts.any (·.helpers.contains k) := by
  simp only [List.contains_eq_any_beq, List.any_flatMap]

end Term

variable (k : Helper)

theorem ClassifiedAttributes.contains_added_pieces (o : Options) (as : List (Attribute H)) :
    (classify (.host o) as).pieces.added.helpers.contains k =
      ((classify (.host o) as).pieces.output.flatMap (·.collect Term.helpers)).contains k := by
  rw [collect_pieces o Term.ignores_helpers, Attribute.flatMap_collect_eq_nil fun _ => rfl,
    Attribute.flatMap_collect_eq_nil fun _ => rfl, pieces, hasSpread_classify]
  cases as.any (·.isSpread) <;> cases k <;> rfl

namespace Child

theorem contains_items (c : Child H) :
    (c.items.flatMap (·.collect Term.helpers)).contains k =
      ((c.collect Term.helpers).contains k || c.flatten.added.helpers.contains k) := by
  cases c with
  | text s =>
      simp [items, collect, flatten, Term.collect, Term.helpers, Template.collect_ofPieces,
        Segment.collect, eq_comm]
  | expression handle => simp [items, collect, flatten, Term.collect, Log.empty]
  | element t => simp [items, collect, flatten, Term.collect, Log.empty]
  | fragment items => simp [Child.items, collect, flatten, Log.empty]

theorem contains_flatMap_items (cs : List (Child H)) :
    ((cs.flatMap (·.items)).flatMap (·.collect Term.helpers)).contains k =
      ((cs.flatMap (·.collect Term.helpers)).contains k ||
        (flattenAll cs).added.helpers.contains k) := by
  induction cs with
  | nil => exact (HelperSet.contains_empty k).symm
  | cons c cs ih =>
      simp only [List.flatMap_cons, List.flatMap_append, List.contains_append, contains_items, ih,
        flattenAll, added_bind, added_pure, Log.append_empty, Log.contains_append]
      ac_rfl

end Child

namespace Element

variable {k} {o : Options} {e : Element H} {children : CompileM (List (Child H))}
  (h : children.added.helpers.contains k =
    (children.output.flatMap (·.collect Term.helpers)).contains k)
include h

theorem contains_added_content (p : Option (Expression H)) :
    (content o children p).added.helpers.contains k =
      ((content o children p).output.flatMap (·.collect Term.helpers)).contains k := by
  rw [collect_content o Term.ignores_helpers]
  cases p with
  | some payload => cases k <;> simp [content, Term.helpers]
  | none => simpa [content] using h

theorem contains_added_assemble [AddsOnly children] :
    (e.assemble o children).added.helpers.contains k =
      ((Term.template (e.assemble o children).output).collect Term.helpers).contains k := by
  rw [Term.collect, List.contains_append, Term.contains_helpers_template]
  unfold assemble
  cases Tag.kind e.tag with
  | host =>
      have hp := ClassifiedAttributes.contains_added_pieces k o e.attributes
      have hc := contains_added_content (o := o) h (classify (.host o) e.attributes).payload?
      rw [collect_assembleHost, List.contains_append, ← hp]
      cases hsc : e.isSelfClosing with
      | true => simp [assembleHost, hsc, Log.contains_append]
      | false =>
          rw [if_neg Bool.false_ne_true, ← hc]
          simp [assembleHost, hsc, Log.contains_append, Bool.or_assoc]
  | component =>
      rw [collect_assembleComponent o Term.ignores_helpers,
        Attribute.flatMap_collect_eq_nil fun _ => rfl, List.nil_append, List.contains_append, ← h]
      simp [assembleComponent, Log.contains_append, Term.helpers]
  | unsupported =>
      rw [assembleUnsupported, output_bind, output_finish, Template.collect_ofPieces]
      simp [Log.contains_append]

end Element

mutual

theorem Element.contains_added_compile (o : Options) : (e : Element H) →
    (e.compile o).added.helpers.contains k =
      ((Term.template (e.compile o).output).collect Term.helpers).contains k
  | ⟨tag, attributes, children, closed⟩ => by
      rw [Element.compile]
      exact Element.contains_added_assemble (contains_added_compileChildren o children)

theorem Node.contains_added_child? (o : Options) : (n : Node H) →
    (n.child? o).added.helpers.contains k =
      ((n.child? o).output.toList.flatMap (·.collect Term.helpers)).contains k
  | .element e => by
      rw [Node.output_child?_element, Option.toList_some, List.flatMap_singleton, Node.child?,
        added_bind, added_pure, Log.append_empty]
      exact e.contains_added_compile o
  | .fragment children => by
      have hc := contains_added_compileChildren o children
      have hi := Child.contains_flatMap_items k (compileChildren o children).output
      rw [← hc] at hi
      rw [Node.output_child?_fragment, Option.toList_some, List.flatMap_singleton, Child.collect,
        hi]
      simp [Node.child?, Log.contains_append]
  | .text raw => by
      rw [Node.output_child?_text, Child.collect_text?, Node.child?, added_pure]
      exact HelperSet.contains_empty k
  | .expression _ => HelperSet.contains_empty k
  | .emptyExpression => HelperSet.contains_empty k

theorem contains_added_compileChildren (o : Options) : (ns : List (Node H)) →
    (compileChildren o ns).added.helpers.contains k =
      ((compileChildren o ns).output.flatMap (·.collect Term.helpers)).contains k
  | [] => HelperSet.contains_empty k
  | n :: ns => by
      rw [output_compileChildren_cons, List.flatMap_append, List.contains_append,
        ← n.contains_added_child? o, ← contains_added_compileChildren o ns]
      simp [compileChildren, Log.contains_append]

end

theorem contains_added_fragmentValue (o : Options) (children : List (Node H)) :
    (fragmentValue o children).added.helpers.contains k =
      ((fragmentValue o children).output.collect Term.helpers).contains k := by
  rw [output_fragmentValue, Term.collect_ofItems Term.ignores_helpers,
    Child.contains_flatMap_items, ← contains_added_compileChildren]
  simp [fragmentValue, flattenFragment, Log.contains_append]

theorem Node.contains_added_compile (o : Options) (n : Node H) :
    (n.compile o).added.helpers.contains k =
      ((Term.template (n.compile o).output).collect Term.helpers).contains k := by
  cases n with
  | element e => exact e.contains_added_compile k o
  | fragment children =>
      have h := contains_added_fragmentValue k o children
      rw [Term.collect, List.contains_append, Node.compile, added_bind, output_bind, output_finish,
        Template.collect_ofPieces, List.flatMap_singleton, Segment.collect, ← h,
        Log.contains_append]
      cases k <;> rfl
  | text raw => cases k <;> rfl
  | expression handle => cases k <;> rfl
  | emptyExpression => cases k <;> rfl

theorem helpers_eq_calls (o : Options) :
    (∀ n : Node H,
      (compile o n).helpers.contains .html = true ∧
      ((compile o n).helpers.contains .rawHtml = true ↔
        (compile o n).output.any (fun t => t.isRaw || t.isAttributes) = true) ∧
      ((compile o n).helpers.contains .joinHtml = true ↔
        (compile o n).output.any (·.isAttributes) = true)) ∧
    ∀ children : List (Node H),
      ((compileFragment o children).helpers.contains .html = true ↔
        (compileFragment o children).output.any (·.isTemplate) = true) ∧
      ((compileFragment o children).helpers.contains .rawHtml = true ↔
        (compileFragment o children).output.any (fun t => t.isRaw || t.isAttributes) = true) ∧
      ((compileFragment o children).helpers.contains .joinHtml = true ↔
        (compileFragment o children).output.any (·.isAttributes) = true) := by
  refine ⟨fun n => ?_, fun children => ?_⟩
  · have h (k : Helper) : (compile o n).helpers.contains k =
        ((compile o n).output.any (·.helpers.contains k) || [Helper.html].contains k) := by
      have hn := n.contains_added_compile k o
      rw [Term.collect, List.contains_append, Template.collect_eq_flatMap,
        Term.contains_flatMap_helpers] at hn
      exact hn
    simp only [h, Term.contains_helpers_rawHtml, Term.contains_helpers_joinHtml]
    simp
  · have h (k : Helper) : (compileFragment o children).helpers.contains k =
        (compileFragment o children).output.any (·.helpers.contains k) := by
      have hc := contains_added_fragmentValue k o children
      rw [Term.collect_eq_flatMap, Term.contains_flatMap_helpers] at hc
      exact hc
    simp only [h, Term.contains_helpers_html, Term.contains_helpers_rawHtml,
      Term.contains_helpers_joinHtml, and_self]

end HtmlTemplate
