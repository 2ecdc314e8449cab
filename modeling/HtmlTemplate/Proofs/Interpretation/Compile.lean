import HtmlTemplate.Proofs.Compile.Output
import HtmlTemplate.Proofs.Interpretation.Object
import HtmlTemplate.Proofs.Render

namespace HtmlTemplate

variable {H : Type} (o : Options) (s : Scope H)

mutual

theorem Term.evaluate_ofExpression : (e : Expression H) →
    (Term.ofExpression e).evaluate s = e.value s
  | .bool _ => rfl
  | .str _ => rfl
  | .object properties => by
      simp only [Term.ofExpression, Term.evaluate, ObjectLiteral.evaluate, Expression.value,
        bind_assoc, pure_bind, Entry.allPairs_fieldsOfProperties properties,
        Fields.merge_eq_ofPairs]
  | .host _ => rfl

theorem Entry.allPairs_fieldsOfProperties : (ps : List (String × Expression H)) →
    Entry.allPairs s (Term.fieldsOfProperties ps) = Expression.propertyPairs s ps
  | [] => rfl
  | (key, e) :: ps => by
      simp only [Term.fieldsOfProperties, Entry.allPairs, Entry.pairs, Expression.propertyPairs,
        Term.evaluate_ofExpression e, Entry.allPairs_fieldsOfProperties ps, bind_assoc, pure_bind,
        List.singleton_append]

end

namespace AttributeRules

theorem outputName_host : (host o).outputName = o.hostName := by
  funext name
  simp only [outputName, host, Options.hostName, Option.some.injEq, eq_comm]

theorem outputName_component : (component o).outputName = o.propName := by
  funext name
  cases h : o.renameClassNameOnComponents <;>
    simp [outputName, component, Options.propName, Options.hostName, h, eq_comm]

end AttributeRules

section Attributes

variable (r : AttributeRules) (rename : String → String)

theorem Entry.allPairs_filterMap {p : Attribute H → Bool} {f : Attribute H → Option (Entry H)}
    (hp : ∀ a, p a = true → Entry.allPairs s (f a).toList = a.pairs s rename)
    (hn : ∀ a, p a = false → f a = none) (as : List (Attribute H)) :
    Entry.allPairs s (as.filterMap f) = Attribute.allPairs s rename (as.filter p) := by
  induction as with
  | nil => rfl
  | cons a as ih =>
      rw [filterMap_cons_eq_append, Entry.allPairs_append, ih]
      cases h : p a with
      | true => rw [List.filter_cons_of_pos h, hp a h, Attribute.allPairs]
      | false =>
          rw [List.filter_cons_of_neg (by simp [h]), hn a h]
          simp only [Option.toList_none, Entry.allPairs, pure_bind, List.nil_append, bind_pure]

theorem Segment.renderAll_filterMap {p : Attribute H → Bool}
    {f : Attribute H → Option (ClassifiedAttribute H)}
    (hp : ∀ a, p a = true →
      Segment.renderAll s ((f a).toList.flatMap (·.pieces)) = a.markup s rename)
    (hn : ∀ a, p a = false → (f a).toList.flatMap (·.pieces) = []) (as : List (Attribute H)) :
    Segment.renderAll s ((as.filterMap f).flatMap (·.pieces)) =
      Attribute.allMarkup s rename (as.filter p) := by
  induction as with
  | nil => rfl
  | cons a as ih =>
      rw [filterMap_cons_eq_append, List.flatMap_append, Segment.renderAll_append, ih]
      cases h : p a with
      | true => rw [List.filter_cons_of_pos h, hp a h, Attribute.allMarkup]
      | false =>
          rw [List.filter_cons_of_neg (by simp [h]), hn a h]
          simp only [Segment.renderAll, pure_bind, String.empty_append, bind_pure]

theorem Entry.allPairs_field? (name : String) (value? : Option (AttributeValue H))
    (h : r.payloadKey? name = none) :
    Entry.allPairs s
      (((Attribute.named name value?).verdict r).kept?.bind (·.field?)).toList =
        (Attribute.named name value?).pairs s r.outputName := by
  rcases value? with _ | text | (_ | _) | text | properties | handle <;>
    simp [Attribute.verdict, h, AttributeValue.verdict, Verdict.kept?, ClassifiedAttribute.field?,
      Attribute.pairs, Entry.allPairs, Entry.pairs, Expression.value, Term.evaluate_str,
      Term.evaluate_bool, Term.evaluate_ofExpression]

theorem Segment.renderAll_named (name : String) (value? : Option (AttributeValue H))
    (h : r.payloadKey? name = none) :
    Segment.renderAll s
      ((((Attribute.named name value?).verdict r).kept?.toList).flatMap (·.pieces)) =
        (Attribute.named name value?).markup s r.outputName := by
  rcases value? with _ | text | (_ | _) | text | properties | handle <;>
    simp [Attribute.verdict, h, AttributeValue.verdict, Verdict.kept?, ClassifiedAttribute.pieces,
      Attribute.markup, Segment.renderAll_cons_literal, Segment.renderAll_cons_expression,
      Segment.renderAll_nil, Term.evaluate_ofExpression, String.append_assoc]

theorem Entry.allPairs_spread (handle : H) :
    Entry.allPairs s [.spread handle] = (Attribute.spread handle).pairs s rename := by
  simp [Entry.allPairs, Entry.pairs, Attribute.pairs_spread]

theorem AttributeRules.payloadKey?_of_isPlain {name : String} {value? : Option (AttributeValue H)}
    (h : (Attribute.named name value?).isPlain o = true) :
    (AttributeRules.host o).payloadKey? name = none := by
  have hn : name ≠ o.dangerousHtmlAttribute := by
    simpa [Attribute.isPlain, Attribute.isSpread, Attribute.isDangerous] using h
  simp [payloadKey?, host, hn]

theorem Attribute.kept?_of_not_isPlain {name : String} {value? : Option (AttributeValue H)}
    (h : (Attribute.named name value?).isPlain o = false) :
    ((Attribute.named name value?).verdict (.host o)).kept? =
      ((Attribute.named name value?).payload? o).map .dangerousHtml := by
  have hn : name = o.dangerousHtmlAttribute := by
    simpa [isPlain, isSpread, isDangerous] using h
  have hp : (Attribute.named name value?).payload? o =
      value?.bind (·.payload? o.dangerousHtmlKey) := by
    rcases value? with _ | text | _ | text | properties | handle <;>
      simp [payload?, hn, AttributeValue.payload?, Expression.property?, Fields.get?_eq_find?]
  rw [hp]
  simp only [verdict, AttributeRules.payloadKey?, AttributeRules.host, Option.bind_some, hn,
    if_true]
  cases value?.bind (·.payload? o.dangerousHtmlKey) <;> rfl

theorem Attribute.spread?_named (name : String) (value? : Option (AttributeValue H)) :
    ((Attribute.named name value?).verdict r).kept?.bind (·.spread?) = none := by
  simp only [verdict]
  split
  · split <;> rfl
  · rcases value? with _ | text | (_ | _) | text | properties | handle <;> rfl

theorem Attribute.payload?_eq (a : Attribute H) :
    (a.verdict (.host o)).kept?.bind (·.payload?) = a.payload? o := by
  rcases a with ⟨name, value?⟩ | handle
  · cases hp : (Attribute.named name value?).isPlain o with
    | true =>
        rw [payload?_of_isPlain hp]
        rcases value? with _ | text | (_ | _) | text | properties | handle <;>
          simp [verdict, AttributeRules.payloadKey?_of_isPlain o hp, AttributeValue.verdict,
            Verdict.kept?, ClassifiedAttribute.payload?]
    | false =>
        rw [kept?_of_not_isPlain o hp]
        cases (Attribute.named name value?).payload? o <;> rfl
  · rfl

theorem Attribute.allPairs_append (as bs : List (Attribute H)) :
    allPairs s rename (as ++ bs) = do
      let ps ← allPairs s rename as
      let qs ← allPairs s rename bs
      return ps ++ qs := by
  induction as with
  | nil => simp only [List.nil_append, allPairs, pure_bind, bind_pure]
  | cons a as ih =>
      simp only [List.cons_append, allPairs, ih, bind_assoc, pure_bind, List.append_assoc]

namespace ClassifiedAttributes

theorem hasSpread_classify (as : List (Attribute H)) :
    (classify r as).hasSpread = as.any (·.isSpread) := by
  simp only [hasSpread, classify, List.any_filterMap]
  congr 1
  funext a
  rcases a with ⟨name, value?⟩ | handle
  · have h := Attribute.spread?_named r name value?
    cases hk : ((Attribute.named name value?).verdict r).kept? with
    | none => rfl
    | some c =>
        rw [hk, Option.bind_some] at h
        cases c with
        | spread handle => cases h
        | _ => rfl
  · rfl

theorem payload?_classify (as : List (Attribute H)) :
    (classify (.host o) as).payload? = (as.filterMap (·.payload? o)).getLast? := by
  simp only [payload?, classify, List.filterMap_filterMap, Attribute.payload?_eq]

theorem allPairs_props (as : List (Attribute H)) :
    Entry.allPairs s (classify (.component o) as).props = Attribute.allPairs s o.propName as := by
  have h := Entry.allPairs_filterMap s o.propName (p := fun _ => true)
    (f := fun a => (a.verdict (.component o)).kept?.bind (·.member?)) ?_ (by simp) as
  · rw [props, classify, List.filterMap_filterMap, h, List.filter_eq_self.mpr (by simp)]
  · rintro (⟨name, value?⟩ | handle) -
    · have hf := Entry.allPairs_field? s (.component o) name value? rfl
      rw [AttributeRules.outputName_component] at hf
      rw [← hf]
      congr 2
      rcases value? with _ | text | (_ | _) | text | properties | handle <;> rfl
    · exact Entry.allPairs_spread s o.propName handle

theorem allPairs_merged (as : List (Attribute H)) :
    Entry.allPairs s (classify (.host o) as).merged.entries =
      Attribute.allPairs s o.hostName (as.filter (·.isPlain o) ++ as.filter (·.isSpread)) := by
  have hf := Entry.allPairs_filterMap s o.hostName (p := (·.isPlain o))
    (f := fun a => (a.verdict (.host o)).kept?.bind (·.field?)) ?_ ?_ as
  have hs := Entry.allPairs_filterMap s o.hostName (p := (·.isSpread))
    (f := fun a => (a.verdict (.host o)).kept?.bind (·.spread?)) ?_ ?_ as
  · rw [Attribute.allPairs_append, ← hf, ← hs, ← Entry.allPairs_append]
    simp only [merged, classify, List.filterMap_filterMap]
  · rintro (⟨name, value?⟩ | handle) h
    · cases h
    · exact Entry.allPairs_spread s o.hostName handle
  · rintro (⟨name, value?⟩ | handle) h
    · exact Attribute.spread?_named (.host o) name value?
    · cases h
  · rintro (⟨name, value?⟩ | handle) h
    · rw [← AttributeRules.outputName_host]
      exact Entry.allPairs_field? s (.host o) name value?
        (AttributeRules.payloadKey?_of_isPlain o h)
    · cases h
  · rintro (⟨name, value?⟩ | handle) h
    · rw [Attribute.kept?_of_not_isPlain o h]
      cases (Attribute.named name value?).payload? o <;> rfl
    · rfl

theorem renderAll_attributes (as : List (Attribute H)) :
    Segment.renderAll s ((classify (.host o) as).attributes.flatMap (·.pieces)) =
      Attribute.allMarkup s o.hostName (as.filter (·.isPlain o)) := by
  refine Segment.renderAll_filterMap s o.hostName ?_ ?_ as
  · rintro (⟨name, value?⟩ | handle) h
    · rw [← AttributeRules.outputName_host]
      exact Segment.renderAll_named s (.host o) name value?
        (AttributeRules.payloadKey?_of_isPlain o h)
    · cases h
  · rintro (⟨name, value?⟩ | handle) h
    · rw [Attribute.kept?_of_not_isPlain o h]
      cases (Attribute.named name value?).payload? o <;> rfl
    · rfl

theorem renderAll_pieces (as : List (Attribute H)) :
    Segment.renderAll s (classify (.host o) as).pieces.output = Attribute.opening o s as := by
  rw [output_pieces, hasSpread_classify, Attribute.opening]
  split
  · rw [← allPairs_merged]
    simp only [Segment.renderAll_cons_literal, Segment.renderAll_cons_expression,
      Segment.renderAll_nil, Term.evaluate, ObjectLiteral.evaluate_eq, Value.toHtml, bind_assoc,
      pure_bind, String.append_empty, Value.joined_eq_joinAttributes, Fields.merge_eq_ofPairs]
  · exact renderAll_attributes o s as

end ClassifiedAttributes

end Attributes

section Children

theorem Term.evaluate_ofItems (items : List (Term H)) :
    (do
      let v ← (Term.ofItems items).evaluate s
      return v.toHtml) = do
      let vs ← Term.evaluateAll s items
      return Value.listHtml vs := by
  rcases items with _ | ⟨t, _ | ⟨u, items⟩⟩
  · rfl
  · simp only [Term.ofItems, Term.evaluateAll, bind_assoc, pure_bind, Value.listHtml,
      String.append_empty]
  · simp only [Term.ofItems, Term.evaluate, bind_assoc, pure_bind, Value.toHtml]

namespace Child

theorem renderAll_pieces_fragment (items : List (Term H)) :
    Segment.renderAll s ((Child.fragment items).pieces o) = do
      let vs ← Term.evaluateAll s items
      return Value.marked o vs := by
  rcases items with _ | ⟨t, _ | ⟨u, items⟩⟩
  · rfl
  · simp [pieces, Segment.renderAll_cons_expression, Segment.renderAll_nil, Term.evaluateAll,
      Value.marked_eq, Value.listHtml]
  · simp [pieces, Segment.renderAll_cons_literal, Segment.renderAll_cons_expression,
      Segment.renderAll_nil, Term.evaluate, Term.evaluateAll, Value.marked_eq, Value.toHtml,
      String.append_assoc]

theorem evaluateAll_argument?_fragment (items : List (Term H)) :
    Term.evaluateAll s (Child.fragment items).argument?.toList = do
      let vs ← Term.evaluateAll s items
      return (Value.collect? vs).toList := by
  rcases items with _ | ⟨t, _ | ⟨u, items⟩⟩
  · rfl
  · simp [argument?, Term.evaluateAll, Value.collect?]
  · simp [argument?, Term.evaluate, Term.evaluateAll, Value.collect?]

end Child

theorem Entry.allPairs_childrenProp (cs : List (Child H)) :
    Entry.allPairs s (Element.childrenProp cs) = do
      let vs ← Term.evaluateAll s (cs.filterMap (·.argument?))
      return ((Value.collect? vs).map fun v => ("children", v)).toList := by
  unfold Element.childrenProp
  generalize cs.filterMap (·.argument?) = items
  rcases items with _ | ⟨t, _ | ⟨u, items⟩⟩
  · rfl
  · simp [Term.ofItems, Entry.allPairs, Entry.pairs, Term.evaluateAll, Value.collect?]
  · simp [Term.ofItems, Entry.allPairs, Entry.pairs, Term.evaluate, Term.evaluateAll,
      Value.collect?]

end Children

structure Agree (cs : List (Child H)) (ns : List (Node H)) : Prop where
  content : Segment.renderAll s (cs.flatMap (·.pieces o)) = Node.contentAll o s ns
  items : Term.evaluateAll s (cs.flatMap (·.items)) = Node.items o s ns
  arguments : Term.evaluateAll s (cs.filterMap (·.argument?)) = Node.arguments o s ns

namespace Agree

variable {o s}

theorem nil : Agree o s [] ([] : List (Node H)) :=
  ⟨rfl, rfl, rfl⟩

theorem cons {bs cs : List (Child H)} {n : Node H} {ns : List (Node H)} (h : Agree o s bs [n])
    (hs : Agree o s cs ns) : Agree o s (bs ++ cs) (n :: ns) where
  content := by
    rw [List.flatMap_append, Segment.renderAll_append, h.content, hs.content]
    simp only [Node.contentAll, bind_assoc, pure_bind, String.append_empty]
  items := by
    rw [List.flatMap_append, Term.evaluateAll_append, h.items, hs.items]
    simp only [Node.items, bind_assoc, pure_bind, List.append_nil]
  arguments := by
    rw [List.filterMap_append, Term.evaluateAll_append, h.arguments, hs.arguments]
    simp only [Node.arguments, bind_assoc, pure_bind, List.append_nil]

theorem element {e : Element H} {t : Template H} (h : t.render s = e.interpret o s) :
    Agree o s [.element t] [.element e] where
  content := by
    simp [Child.pieces, Segment.renderAll_cons_expression, Segment.renderAll_nil, Term.evaluate,
      Value.toHtml, Node.contentAll, Node.content, h]
  items := by
    simp [Child.items, Term.evaluateAll, Term.evaluate, Node.items, Node.item, h]
  arguments := by
    simp [Child.argument?, Term.evaluateAll, Term.evaluate, Node.arguments, Node.argument?, h]

theorem fragment {cs : List (Child H)} {ns : List (Node H)} (h : Agree o s cs ns) :
    Agree o s [.fragment (cs.flatMap (·.items))] [.fragment ns] where
  content := by
    simp only [List.flatMap_singleton, Child.renderAll_pieces_fragment, h.items]
    simp [Node.contentAll, Node.content]
  items := by
    rw [List.flatMap_singleton, Child.items, h.items]
    simp [Node.items, Node.item]
  arguments := by
    have hf := Child.evaluateAll_argument?_fragment s (cs.flatMap (·.items))
    simp [filterMap_cons_eq_append, hf, h.items, Node.arguments, Node.argument?]

theorem text (raw : String) :
    Agree o s (Child.text? raw : Option (Child H)).toList [.text raw] := by
  by_cases h : Text.trim raw = ""
  · simp only [Child.text?, h, if_true, Option.toList_none]
    constructor <;>
      simp [Segment.renderAll_nil, Term.evaluateAll, Node.contentAll, Node.content, Node.items,
        Node.item, Node.arguments, Node.argument?, h]
  · simp only [Child.text?, h, if_false, Option.toList_some]
    constructor
    · simp [Child.pieces, Segment.renderAll_cons_literal, Segment.renderAll_nil, Node.contentAll,
        Node.content]
    · simp [Child.items, Term.evaluateAll, Term.evaluate, Template.render_ofPieces,
        Segment.renderAll_cons_literal, Segment.renderAll_nil, Node.items, Node.item, h]
    · simp [Child.argument?, Term.evaluateAll, Term.evaluate_str, Node.arguments, Node.argument?, h]

theorem expression (handle : H) : Agree o s [.expression handle] [.expression handle] where
  content := by
    simp [Child.pieces, Segment.renderAll_cons_expression, Segment.renderAll_nil, Term.evaluate,
      Node.contentAll, Node.content]
  items := by
    simp [Child.items, Term.evaluateAll, Term.evaluate, Node.items, Node.item]
  arguments := by
    simp [Child.argument?, Term.evaluateAll, Term.evaluate, Node.arguments, Node.argument?]

theorem emptyExpression : Agree o s [] [(.emptyExpression : Node H)] :=
  ⟨rfl, rfl, rfl⟩

end Agree

theorem Element.render_assemble (e : Element H) (children : CompileM (List (Child H)))
    [CompileM.AddsOnly children] (h : Agree o s children.output e.children) :
    (e.assemble o children).output.render s = e.interpret o s := by
  obtain ⟨tag, attributes, nodes, closed⟩ := e
  simp only [assemble, interpret]
  cases Tag.kind tag with
  | host =>
      simp only [output_assembleHost, Template.render_ofPieces, Segment.renderAll_append,
        List.cons_append, Segment.renderAll_cons_literal, ClassifiedAttributes.renderAll_pieces,
        ClassifiedAttributes.payload?_classify, isSelfClosing, output_content]
      cases Tag.isVoid tag || !closed with
      | true => simp [Segment.renderAll_cons_literal, Segment.renderAll_nil, String.append_assoc]
      | false =>
          cases (attributes.filterMap (·.payload? o)).getLast? with
          | some payload =>
              simp [Segment.renderAll_cons_literal, Segment.renderAll_cons_expression,
                Segment.renderAll_nil, Term.evaluate, Term.evaluate_ofExpression, Value.toHtml,
                Value.rawText_eq_rawForm, String.append_assoc]
          | none =>
              simp [Segment.renderAll_cons_literal, Segment.renderAll_append,
                Segment.renderAll_nil, h.content, String.append_assoc]
  | component =>
      simp only [output_assembleComponent, Template.render_ofPieces,
        Segment.renderAll_cons_expression, Segment.renderAll_nil, Term.evaluate,
        ObjectLiteral.evaluate_eq, Entry.allPairs_append, ClassifiedAttributes.allPairs_props,
        Entry.allPairs_childrenProp, h.arguments, Fields.merge_eq_ofPairs, bind_assoc, pure_bind,
        String.append_empty]
  | unsupported => rfl

mutual

theorem Element.render_compile : (e : Element H) →
    (e.compile o).output.render s = e.interpret o s
  | ⟨tag, attributes, children, closed⟩ => by
      rw [Element.compile]
      exact Element.render_assemble o s _ _ (agree_compileChildren children)

theorem Node.agree_child? : (n : Node H) → Agree o s (n.child? o).output.toList [n]
  | .element e => by
      rw [Node.output_child?_element]
      exact .element (e.render_compile)
  | .fragment children => by
      rw [Node.output_child?_fragment]
      exact .fragment (agree_compileChildren children)
  | .text raw => by
      rw [Node.output_child?_text]
      exact .text raw
  | .expression handle => .expression handle
  | .emptyExpression => .emptyExpression

theorem agree_compileChildren : (ns : List (Node H)) →
    Agree o s (compileChildren o ns).output ns
  | [] => .nil
  | n :: ns => by
      rw [output_compileChildren_cons]
      exact (n.agree_child?).cons (agree_compileChildren ns)

end

mutual

theorem Node.listHtml_item : (n : Node H) → Value.listHtml <$> n.item o s = n.interpret o s
  | .element e => by simp [Node.item, Node.interpret, Value.listHtml, Value.toHtml]
  | .fragment children => by
      rw [Node.item, Node.interpret, Node.listHtml_items children]
  | .text raw => by
      simp only [Node.item, Node.interpret, map_pure]
      split
      next h => rw [h, Value.listHtml]
      · rw [Value.listHtml, Value.listHtml, Value.toHtml, String.append_empty]
  | .expression handle => by simp [Node.item, Node.interpret, Value.listHtml]
  | .emptyExpression => rfl

theorem Node.listHtml_items : (ns : List (Node H)) →
    Value.listHtml <$> Node.items o s ns = Node.interpretAll o s ns
  | [] => rfl
  | n :: ns => by
      rw [Node.interpretAll, ← Node.listHtml_item n, ← Node.listHtml_items ns]
      simp [Node.items, Value.listHtml_append]

end

theorem Node.render_compile (n : Node H) : (n.compile o).output.render s = n.interpret o s := by
  cases n with
  | element e => exact e.render_compile o s
  | fragment children =>
      have h := (agree_compileChildren o s children).items
      rw [Node.interpret, ← Node.listHtml_items, ← h]
      simp only [Node.compile, CompileM.output_bind, output_fragmentValue, CompileM.output_finish,
        Template.render_ofPieces, Segment.renderAll_cons_expression, Segment.renderAll_nil,
        pure_bind, String.append_empty, Term.evaluate_ofItems, map_eq_pure_bind]
  | text raw =>
      simp only [Node.compile, CompileM.output_finish, Template.render_ofPieces,
        Segment.renderAll_cons_literal, Segment.renderAll_nil, pure_bind, String.append_empty,
        Node.interpret]
  | expression handle =>
      simp only [Node.compile, CompileM.output_finish, Template.render_ofPieces,
        Segment.renderAll_cons_expression, Segment.renderAll_nil, pure_bind, String.append_empty,
        Term.evaluate, Node.interpret]
  | emptyExpression => rfl

theorem render_output_compile (n : Node H) :
    (compile o n).output.render s = n.interpret o s :=
  n.render_compile o s

end HtmlTemplate
