import HtmlTemplate.Proofs.Diagnostics
import HtmlTemplate.Proofs.Merge

namespace HtmlTemplate

variable {H α β : Type}

namespace Fields

def withChildren (fs : Fields α) : Option α → Fields α
  | none => fs
  | some body => fs.insert "children" body

theorem ofPairs_append_children (ps : List (String × α)) (body? : Option α) :
    ofPairs (ps ++ (body?.map fun body => ("children", body)).toList) =
      (ofPairs ps).withChildren body? := by
  cases body? with
  | none => rw [Option.map_none, Option.toList_none, List.append_nil, withChildren]
  | some body =>
      rw [ofPairs, List.foldl_append]
      rfl

theorem filter_insert (key : String) (value : α) (fs : Fields α) :
    (fs.insert key value).filter (·.1 ≠ key) = fs.filter (·.1 ≠ key) := by
  induction fs with
  | nil => simp [insert]
  | cons f fs ih =>
      obtain ⟨k, v⟩ := f
      by_cases hk : k = key
      · simp [insert, hk]
      · simp only [insert, if_neg hk, List.filter_cons, ih]

end Fields

namespace Value

theorem isEmpty_collect? (vs : List Value) : (collect? vs).toList.isEmpty = vs.isEmpty := by
  rcases vs with _ | ⟨v, _ | ⟨w, vs⟩⟩ <;> rfl

theorem listHtml_collect? (vs : List Value) : listHtml (collect? vs).toList = listHtml vs := by
  rcases vs with _ | ⟨v, _ | ⟨w, vs⟩⟩
  · rfl
  · rfl
  · simp only [collect?, Option.toList_some, listHtml, toHtml, String.append_empty]

theorem toHtml_of_collect? {vs : List Value} {v : Value} (h : collect? vs = some v) :
    v.toHtml = listHtml vs := by
  rw [← listHtml_collect?, h, Option.toList_some, listHtml, listHtml, String.append_empty]

end Value

mutual

def Node.isVacant : Node H → Bool
  | .element _ => false
  | .fragment children => Node.allVacant children
  | .text raw => raw.toList.all Text.isBlank
  | .expression _ => false
  | .emptyExpression => true

def Node.allVacant : List (Node H) → Bool
  | [] => true
  | n :: ns => n.isVacant && Node.allVacant ns

end

section Vacant

variable (o : Options) (s : Scope H)

theorem Text.decide_trim_eq_empty (raw : String) :
    decide (trim raw = "") = raw.toList.all isBlank := by
  rw [Bool.eq_iff_iff, decide_eq_true_iff, trim_eq_empty_iff, List.all_eq_true]

-- A fragment gives a component one argument for all its items, so arguments need the fact for items
-- first.
mutual

theorem Node.yields_isEmpty_item : (n : Node H) → Yields (n.item o s) (·.isEmpty = n.isVacant)
  | .element e => by
      rw [Node.item]
      exact .of_forall fun _ => rfl
  | .fragment children => by
      rw [Node.item, Node.isVacant]
      exact Node.yields_isEmpty_items children
  | .text raw => by
      refine .pure ?_
      rw [Node.isVacant, ← Text.decide_trim_eq_empty]
      by_cases h : Text.trim raw = "" <;> simp [h]
  | .expression handle => by
      rw [Node.item]
      exact .of_forall fun _ => rfl
  | .emptyExpression => .pure rfl

theorem Node.yields_isEmpty_items : (ns : List (Node H)) →
    Yields (Node.items o s ns) (·.isEmpty = Node.allVacant ns)
  | [] => .pure rfl
  | n :: ns => by
      rw [Node.items]
      refine .bind (n.yields_isEmpty_item) fun vs hvs => ?_
      refine .bind (Node.yields_isEmpty_items ns) fun ws hws => .pure ?_
      rw [Node.allVacant, ← hvs, ← hws]
      cases vs <;> rfl

end

theorem Node.yields_isEmpty_argument? (n : Node H) :
    Yields (n.argument? o s) (·.toList.isEmpty = n.isVacant) := by
  cases n with
  | element e =>
      rw [Node.argument?]
      exact .of_forall fun _ => rfl
  | fragment children =>
      rw [Node.argument?, Node.isVacant]
      refine .bind (Node.yields_isEmpty_items o s children) fun vs hvs => .pure ?_
      rw [Value.isEmpty_collect?, hvs]
  | text raw =>
      refine .pure ?_
      rw [Node.isVacant, ← Text.decide_trim_eq_empty]
      by_cases h : Text.trim raw = "" <;> simp [h]
  | expression handle =>
      rw [Node.argument?]
      exact .of_forall fun _ => rfl
  | emptyExpression => exact .pure rfl

theorem Node.yields_isEmpty_arguments (ns : List (Node H)) :
    Yields (Node.arguments o s ns) (·.isEmpty = Node.allVacant ns) := by
  induction ns with
  | nil => exact .pure rfl
  | cons n ns ih =>
      rw [Node.arguments]
      refine .bind (n.yields_isEmpty_argument? o s) fun v? hv => .bind ih fun vs hvs => .pure ?_
      rw [Node.allVacant, ← hv, ← hvs]
      cases v? <;> rfl

end Vacant

section Passed

variable (o : Options) (s : Scope H)

def Node.passedHtml : Node H → Except RenderError String
  | .element e => (compile o (.element e)).output.render s
  | .fragment children => (compile o (.fragment children)).output.render s
  | .text raw => return Text.escape (Text.trim raw)
  | .expression handle => do
      let v ← s.value handle
      return v.toHtml
  | .emptyExpression => return ""

theorem Node.listHtml_argument? (n : Node H) :
    (fun v? => Value.listHtml v?.toList) <$> n.argument? o s = n.passedHtml o s := by
  cases n with
  | element e =>
      have he : (compile o (.element e)).output.render s = e.interpret o s := e.render_compile o s
      simp [Node.argument?, Node.passedHtml, he, Value.listHtml, Value.toHtml]
  | fragment children =>
      have hf : (compile o (.fragment children)).output.render s =
          Node.interpret o s (.fragment children) := Node.render_compile o s (.fragment children)
      rw [Node.passedHtml, hf, Node.interpret, ← Node.listHtml_items]
      simp [Node.argument?, Value.listHtml_collect?]
  | text raw =>
      simp only [Node.argument?, Node.passedHtml, map_pure]
      by_cases h : Text.trim raw = ""
      · rw [if_pos h, h]
        rfl
      · rw [if_neg h, Option.toList_some, Value.listHtml, Value.listHtml, Value.toHtml,
          String.append_empty]
  | expression handle => simp [Node.argument?, Node.passedHtml, Value.listHtml]
  | emptyExpression => rfl

theorem Node.mapM_passedHtml_of_arguments {ns : List (Node H)} {vs : List Value}
    (h : Node.arguments o s ns = .ok vs) :
    ∃ parts, ns.mapM (·.passedHtml o s) = .ok parts ∧ String.join parts = Value.listHtml vs := by
  induction ns generalizing vs with
  | nil =>
      cases h
      exact ⟨[], rfl, rfl⟩
  | cons n ns ih =>
      obtain ⟨v?, hv, h⟩ := bind_eq_ok_iff.mp h
      obtain ⟨ws, hws, h⟩ := bind_eq_ok_iff.mp h
      cases h
      obtain ⟨parts, hparts, hjoin⟩ := ih hws
      have hn : n.passedHtml o s = .ok (Value.listHtml v?.toList) := by
        rw [← Node.listHtml_argument?, hv]
        rfl
      refine ⟨Value.listHtml v?.toList :: parts, ?_, ?_⟩
      · rw [List.mapM_cons, hn, hparts]
        rfl
      · rw [String.join_cons, hjoin, Value.listHtml_append]

end Passed

section Component

variable (o : Options) (s : Scope H) (e : Element H)

def Element.props : ObjectLiteral H :=
  ⟨(classify (.component o) e.attributes).props ++
    Element.childrenProp (compileChildren o e.children).output⟩

theorem Element.output_compile_of_component (htag : Tag.kind e.tag = .component) :
    (HtmlTemplate.compile o (.element e)).output =
      .ofPieces [.expression (.call e.tag (e.props o))] := by
  change (e.compile o).output = _
  obtain ⟨tag, attributes, children, closed⟩ := e
  simp only [Element.compile, Element.assemble, htag, Element.output_assembleComponent]
  rfl

theorem Template.eq_of_ofPieces_call {tag : String} {props props' : ObjectLiteral H}
    (h : Template.ofPieces [.expression (.call tag props)] =
      Template.ofPieces [.expression (.call tag props')]) : props = props' := by
  cases h
  rfl

theorem Element.evaluate_props_eq_ok_iff {fields : Fields Value} :
    (e.props o).evaluate s = .ok fields ↔
      ∃ ps vs, Attribute.allPairs s o.propName e.attributes = .ok ps ∧
        Node.arguments o s e.children = .ok vs ∧
        (Fields.ofPairs ps).withChildren (Value.collect? vs) = fields := by
  have harguments := (agree_compileChildren o s e.children).arguments
  rw [ObjectLiteral.evaluate_eq_ok_iff, Element.props]
  simp only [Entry.allPairs_append, ClassifiedAttributes.allPairs_props,
    Entry.allPairs_childrenProp, harguments, bind_eq_ok_iff, bind_assoc, pure_bind]
  constructor
  · rintro ⟨pairs, ⟨ps, hps, vs, hvs, h⟩, rfl⟩
    cases h
    exact ⟨ps, vs, hps, hvs, (Fields.ofPairs_append_children ps _).symm⟩
  · rintro ⟨ps, vs, hps, hvs, rfl⟩
    exact ⟨_, ⟨ps, hps, vs, hvs, rfl⟩, Fields.ofPairs_append_children ps _⟩

end Component

theorem props_children_override (o : Options) (s : Scope H) (e : Element H)
    (htag : Tag.kind e.tag = .component) :
    ∃ props bare : ObjectLiteral H,
      (compile o (.element e)).output = .ofPieces [.expression (.call e.tag props)] ∧
      (compile o (.element { e with children := [] })).output =
        .ofPieces [.expression (.call e.tag bare)] ∧
      ∀ fields, props.evaluate s = .ok fields → ∃ attributes, bare.evaluate s = .ok attributes ∧
        (Node.allVacant e.children = true → fields = attributes) ∧
        (Node.allVacant e.children = false →
          fields.filter (·.1 ≠ "children") = attributes.filter (·.1 ≠ "children") ∧
          ∃ body parts, fields.get? "children" = some body ∧
            e.children.mapM (·.passedHtml o s) = .ok parts ∧
            body.toHtml = String.join parts) := by
  refine ⟨e.props o, Element.props o { e with children := [] },
    e.output_compile_of_component o htag,
    Element.output_compile_of_component o { e with children := [] } htag, fun fields hfields => ?_⟩
  obtain ⟨ps, vs, hps, hvs, rfl⟩ := (e.evaluate_props_eq_ok_iff o s).mp hfields
  have hbare : (Element.props o { e with children := [] }).evaluate s = .ok (.ofPairs ps) :=
    (Element.evaluate_props_eq_ok_iff o s _).mpr ⟨ps, [], hps, rfl, rfl⟩
  have hempty : (Value.collect? vs).toList.isEmpty = Node.allVacant e.children := by
    rw [Value.isEmpty_collect?]
    exact Node.yields_isEmpty_arguments o s e.children vs hvs
  refine ⟨Fields.ofPairs ps, hbare, ?_⟩
  rw [← hempty]
  cases hbody : Value.collect? vs with
  | none => exact ⟨fun _ => rfl, nofun⟩
  | some body =>
      obtain ⟨parts, hparts, hjoin⟩ := Node.mapM_passedHtml_of_arguments o s hvs
      refine ⟨nofun, fun _ => ⟨Fields.filter_insert _ _ _, body, parts, ?_, hparts, ?_⟩⟩
      · rw [Fields.withChildren, Fields.get?_insert, if_pos rfl]
      · rw [hjoin, Value.toHtml_of_collect? hbody]

def passing : Scope String where
  value handle :=
    .ok (if handle = "rest" then .object [("title", .string "t"), ("children", .null)]
      else .list [.string "<", .html "<br>"])
  component name _ := .error (.unknownComponent name)

def card : Element String :=
  ⟨"Card", [.text "children" "old", .spread "rest", .text "id" "x"],
    [.text " a&b ", .fragment [.text " ", .emptyExpression], .expression "x",
      .element ⟨"b", [], [.text "c"], true⟩, .fragment [.text "d", .expression "x"]], true⟩

theorem props_children_override_card :
    ∃ (props : ObjectLiteral String) (fields : Fields Value) (body : Value),
      (compile {} (.element card)).output = .ofPieces [.expression (.call "Card" props)] ∧
      props.evaluate passing = .ok fields ∧
      fields.filter (·.1 ≠ "children") = [("title", .string "t"), ("id", .string "x")] ∧
      fields.get? "children" = some body ∧
      body.toHtml = "a&amp;b&lt;<br><b>c</b>d&lt;<br>" := by
  obtain ⟨props, bare, hprops, hbare, h⟩ := props_children_override {} passing card rfl
  obtain rfl := Template.eq_of_ofPieces_call
    ((card.output_compile_of_component {} rfl).symm.trans hprops)
  obtain rfl := Template.eq_of_ofPieces_call
    ((Element.output_compile_of_component {} { card with children := [] } rfl).symm.trans hbare)
  obtain ⟨attributes, hattributes, -, hcontent⟩ := h _ rfl
  obtain ⟨hfilter, body, parts, hbody, hparts, hhtml⟩ := hcontent rfl
  cases hattributes
  cases hparts
  exact ⟨_, _, body, hprops, rfl, hfilter, hbody, hhtml⟩

end HtmlTemplate
