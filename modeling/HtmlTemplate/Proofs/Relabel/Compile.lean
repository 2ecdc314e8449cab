import HtmlTemplate.Compile.Node
import HtmlTemplate.Proofs.Relabel.Basic

namespace HtmlTemplate

open CompileM

variable {H K : Type}

def ClassifiedAttribute.map (f : H → K) : ClassifiedAttribute H → ClassifiedAttribute K
  | .static name value => .static name value
  | .dynamic name value => .dynamic name (value.map f)
  | .flag name => .flag name
  | .spread handle => .spread (f handle)
  | .dangerousHtml payload => .dangerousHtml (payload.map f)

def Verdict.map (f : H → K) : Verdict H → Verdict K
  | .kept result => .kept (result.map f)
  | .dropped => .dropped
  | .malformed => .malformed

def ClassifiedAttributes.map (f : H → K) (c : ClassifiedAttributes H) : ClassifiedAttributes K :=
  ⟨c.attributes.map (·.map f), c.malformedDangerousHtml⟩

def Child.map (f : H → K) : Child H → Child K
  | .text s => .text s
  | .expression handle => .expression (f handle)
  | .element t => .element (t.map f)
  | .fragment items => .fragment (items.map (·.map f))

def Compiled.map {α β : Type} (g : α → β) (c : Compiled α) : Compiled β :=
  ⟨g c.output, c.helpers, c.diagnostics⟩

theorem CompileM.compiled_map {α β : Type} (g : α → β) (a : CompileM α) :
    (g <$> a).compiled = a.compiled.map g :=
  rfl

variable (f : H → K)

section Attributes

theorem Expression.get?_mapProperties (ps : List (String × Expression H)) (key : String) :
    Fields.get? (Expression.mapProperties f ps) key =
      (Fields.get? ps key).map (·.map f) := by
  induction ps with
  | nil => rfl
  | cons p ps ih =>
      obtain ⟨k, e⟩ := p
      by_cases h : k = key
      · simp [Expression.mapProperties, Fields.get?, h]
      · simp [Expression.mapProperties, Fields.get?, h, ih]

theorem AttributeValue.payload?_map (value : AttributeValue H) (key : String) :
    (value.map f).payload? key = (value.payload? key).map (·.map f) := by
  rcases value with text | _ | text | properties | handle
  case expression.object =>
    rw [AttributeValue.map, Expression.map]
    exact Expression.get?_mapProperties f properties key
  all_goals rfl

theorem AttributeValue.verdict_map (value : AttributeValue H) (name : String) :
    (value.map f).verdict name = (value.verdict name).map f := by
  rcases value with text | (_ | _) | text | properties | handle <;> rfl

theorem Attribute.verdict_map (r : AttributeRules) (a : Attribute H) :
    (a.map f).verdict r = (a.verdict r).map f := by
  rcases a with ⟨name, value?⟩ | handle
  · have hpayload (key : String) : (value?.map (·.map f)).bind (·.payload? key) =
        (value?.bind (·.payload? key)).map (·.map f) := by
      cases value? with
      | none => rfl
      | some value => exact value.payload?_map f key
    simp only [Attribute.map, Attribute.verdict]
    cases r.payloadKey? name with
    | some key =>
        simp only [hpayload]
        cases value?.bind (·.payload? key) <;> rfl
    | none =>
        cases value? with
        | none => rfl
        | some value => exact value.verdict_map f (r.outputName name)
  · rfl

theorem Verdict.kept?_map (v : Verdict H) : (v.map f).kept? = v.kept?.map (·.map f) := by
  cases v <;> rfl

theorem Verdict.isMalformed_map (v : Verdict H) : (v.map f).isMalformed = v.isMalformed := by
  cases v <;> rfl

theorem classify_map (r : AttributeRules) (as : List (Attribute H)) :
    classify r (as.map (·.map f)) = (classify r as).map f := by
  simp only [classify, ClassifiedAttributes.map, List.filterMap_map, List.any_map,
    List.map_filterMap, Function.comp_def, Attribute.verdict_map, Verdict.kept?_map,
    Verdict.isMalformed_map]

namespace ClassifiedAttribute

theorem field?_map (a : ClassifiedAttribute H) : (a.map f).field? = a.field?.map (·.map f) := by
  cases a with
  | dynamic name value =>
      simp only [ClassifiedAttribute.map, field?, Option.map_some, Entry.map, Term.map_ofExpression]
  | _ => rfl

theorem spread?_map (a : ClassifiedAttribute H) : (a.map f).spread? = a.spread?.map (·.map f) := by
  cases a <;> rfl

theorem member?_map (a : ClassifiedAttribute H) : (a.map f).member? = a.member?.map (·.map f) := by
  rw [member?, member?, field?_map, spread?_map]
  cases a.field? <;> rfl

theorem isSpread_map (a : ClassifiedAttribute H) : (a.map f).isSpread = a.isSpread := by
  cases a <;> rfl

theorem payload?_map (a : ClassifiedAttribute H) :
    (a.map f).payload? = a.payload?.map (·.map f) := by
  cases a <;> rfl

theorem pieces_map (a : ClassifiedAttribute H) : (a.map f).pieces = a.pieces.map (·.map f) := by
  cases a with
  | dynamic name value =>
      simp only [ClassifiedAttribute.map, pieces, List.map_cons, List.map_nil, Segment.map,
        Term.map_ofExpression]
  | _ => rfl

end ClassifiedAttribute

namespace ClassifiedAttributes

variable (c : ClassifiedAttributes H)

theorem hasSpread_map : (c.map f).hasSpread = c.hasSpread := by
  simp only [hasSpread, ClassifiedAttributes.map, List.any_map, Function.comp_def,
    ClassifiedAttribute.isSpread_map]

theorem payload?_map : (c.map f).payload? = c.payload?.map (·.map f) := by
  have h : (c.map f).attributes.filterMap (·.payload?) =
      (c.attributes.filterMap (·.payload?)).map (·.map f) := by
    simp only [ClassifiedAttributes.map, List.filterMap_map, List.map_filterMap, Function.comp_def,
      ClassifiedAttribute.payload?_map]
  rw [payload?, payload?, h, List.getLast?_map]

theorem props_map : (c.map f).props = c.props.map (·.map f) := by
  simp only [props, ClassifiedAttributes.map, List.filterMap_map, List.map_filterMap,
    Function.comp_def, ClassifiedAttribute.member?_map]

theorem merged_map : (c.map f).merged = c.merged.map f := by
  rw [merged, merged, ObjectLiteral.map, Entry.mapAll_eq]
  simp only [ClassifiedAttributes.map, List.filterMap_map, List.map_append, List.map_filterMap,
    Function.comp_def, ClassifiedAttribute.field?_map, ClassifiedAttribute.spread?_map]

theorem pieces_map : (c.map f).pieces = List.map (·.map f) <$> c.pieces := by
  rw [pieces, pieces, hasSpread_map]
  split
  · simp only [map_bind, map_pure, List.map_cons, List.map_nil, Segment.map, Term.map, merged_map]
  · simp only [map_pure, ClassifiedAttributes.map, List.flatMap_map, List.map_flatMap,
      ClassifiedAttribute.pieces_map]

end ClassifiedAttributes

end Attributes

section Children

theorem CompileM.finish_map (ps : List (Segment H)) :
    finish (ps.map (·.map f)) = (·.map f) <$> finish ps := by
  simp only [finish, map_bind, map_pure, Template.map_ofPieces]

namespace Child

theorem pieces_map (o : Options) (c : Child H) :
    (c.map f).pieces o = (c.pieces o).map (·.map f) := by
  rcases c with text | handle | t | (_ | ⟨t, _ | ⟨u, items⟩⟩) <;>
    simp [Child.map, pieces, Segment.map, Term.map, Term.mapAll_eq]

theorem argument?_map (c : Child H) : (c.map f).argument? = c.argument?.map (·.map f) := by
  rcases c with text | handle | t | (_ | ⟨t, _ | ⟨u, items⟩⟩) <;>
    simp [Child.map, argument?, Term.map, Term.mapAll_eq]

theorem flatten_map (c : Child H) : (c.map f).flatten = List.map (·.map f) <$> c.flatten := by
  cases c with
  | text s =>
      have h := CompileM.finish_map f [(.literal s : Segment H)]
      simp only [List.map_cons, List.map_nil, Segment.map] at h
      simp only [Child.map, flatten, h, bind_pure_comp, Functor.map_map, List.map_cons,
        List.map_nil, Term.map]
  | expression handle => rfl
  | element t => rfl
  | fragment items => rfl

theorem flattenAll_map (cs : List (Child H)) :
    flattenAll (cs.map (·.map f)) = List.map (·.map f) <$> flattenAll cs := by
  induction cs with
  | nil => rfl
  | cons c cs ih =>
      simp only [List.map_cons, flattenAll, flatten_map, ih, map_bind, bind_map_left, map_pure,
        List.map_append]

theorem text?_map (raw : String) :
    (Child.text? raw : Option (Child H)).map (·.map f) = Child.text? raw := by
  unfold Child.text?
  split <;> rfl

end Child

theorem Node.isContent_map (n : Node H) : (n.map f).isContent = n.isContent := by
  cases n <;> rfl

theorem any_isContent_mapAll (ns : List (Node H)) :
    (Node.mapAll f ns).any (·.isContent) = ns.any (·.isContent) := by
  induction ns with
  | nil => rfl
  | cons n ns ih => rw [Node.mapAll, List.any_cons, List.any_cons, Node.isContent_map, ih]

end Children

namespace Element

variable (o : Options)

theorem childrenProp_map (cs : List (Child H)) :
    childrenProp (cs.map (·.map f)) = (childrenProp cs).map (·.map f) := by
  have harguments : (cs.map (·.map f)).filterMap (·.argument?) =
      (cs.filterMap (·.argument?)).map (·.map f) := by
    simp only [List.filterMap_map, List.map_filterMap, Function.comp_def, Child.argument?_map]
  rw [childrenProp, childrenProp, harguments]
  generalize cs.filterMap (·.argument?) = items
  cases items with
  | nil => rfl
  | cons t items =>
      have h := Term.map_ofItems f (t :: items)
      simp only [List.map_cons, List.map_nil, Entry.map, h]

theorem content_map (children : CompileM (List (Child H))) (p : Option (Expression H)) :
    content o (List.map (·.map f) <$> children) (p.map (·.map f)) =
      List.map (·.map f) <$> content o children p := by
  cases p with
  | some payload =>
      simp only [Option.map_some, content, map_bind, map_pure, List.map_cons, List.map_nil,
        Segment.map, Term.map, Term.map_ofExpression]
  | none =>
      simp only [Option.map_none, content, bind_map_left, map_bind, map_pure, List.flatMap_map,
        List.map_flatMap, Child.pieces_map]

variable (e : Element H) (children : CompileM (List (Child H)))

theorem assembleHost_map :
    (e.map f).assembleHost o (List.map (·.map f) <$> children) =
      (·.map f) <$> e.assembleHost o children := by
  obtain ⟨tag, attributes, nodes, closed⟩ := e
  simp only [Element.map, assembleHost, classify_map, ClassifiedAttributes.pieces_map,
    ClassifiedAttributes.payload?_map, any_isContent_mapAll, content_map, isSelfClosing, map_bind,
    bind_map_left, Option.isSome_map]
  by_cases hself : (Tag.isVoid tag || !closed) = true
  · simp only [hself, if_true, map_bind, ← CompileM.finish_map, List.map_cons, List.map_append,
      List.map_nil, Segment.map]
    rfl
  · simp only [hself, Bool.false_eq_true, if_false, map_bind, ← CompileM.finish_map, List.map_cons,
      List.map_append, List.map_nil, Segment.map]
    rfl

theorem assembleComponent_map :
    (e.map f).assembleComponent o (List.map (·.map f) <$> children) =
      (·.map f) <$> e.assembleComponent o children := by
  obtain ⟨tag, attributes, nodes, closed⟩ := e
  simp only [Element.map, assembleComponent, classify_map, ClassifiedAttributes.props_map,
    childrenProp_map, map_bind, bind_map_left, ← CompileM.finish_map, List.map_cons, List.map_nil,
    Segment.map, Term.map, ObjectLiteral.map, Entry.mapAll_eq, List.map_append]

theorem assemble_map :
    (e.map f).assemble o (List.map (·.map f) <$> children) =
      (·.map f) <$> e.assemble o children := by
  have htag : (e.map f).tag = e.tag := by
    obtain ⟨tag, attributes, nodes, closed⟩ := e
    rfl
  rw [assemble, assemble, htag]
  cases Tag.kind e.tag with
  | host => exact assembleHost_map f o e children
  | component => exact assembleComponent_map f o e children
  | unsupported =>
      have h := CompileM.finish_map f ([] : List (Segment H))
      rw [List.map_nil] at h
      simp only [assembleUnsupported, htag, h, map_bind]

end Element

mutual

theorem Element.compile_map (o : Options) : (e : Element H) →
    (e.map f).compile o = (·.map f) <$> e.compile o
  | ⟨tag, attributes, children, closed⟩ => by
      have h := Element.assemble_map f o ⟨tag, attributes, children, closed⟩
        (compileChildren o children)
      rw [← compileChildren_map o children] at h
      rw [Element.compile, ← h, Element.map, Element.compile]

theorem Node.child?_map (o : Options) : (n : Node H) →
    (n.map f).child? o = Option.map (·.map f) <$> n.child? o
  | .element e => by
      simp only [Node.map, Node.child?, e.compile_map o, bind_map_left, map_bind, map_pure,
        Option.map_some, Child.map]
  | .fragment children => by
      simp only [Node.map, Node.child?, compileChildren_map o children, Child.flattenAll_map,
        bind_map_left, map_bind, map_pure, Option.map_some]
      rfl
  | .text raw => by simp only [Node.map, Node.child?, map_pure, Child.text?_map]
  | .expression _ => rfl
  | .emptyExpression => rfl

theorem compileChildren_map (o : Options) : (ns : List (Node H)) →
    compileChildren o (Node.mapAll f ns) = List.map (·.map f) <$> compileChildren o ns
  | [] => rfl
  | n :: ns => by
      simp only [Node.mapAll, compileChildren, n.child?_map o, compileChildren_map o ns,
        bind_map_left, map_bind, map_pure, List.map_append, Option.toList_map]

end

theorem fragmentValue_map (o : Options) (children : List (Node H)) :
    fragmentValue o (Node.mapAll f children) = (·.map f) <$> fragmentValue o children := by
  simp only [fragmentValue, flattenFragment, compileChildren_map, Child.flattenAll_map, bind_assoc,
    bind_map_left, map_bind, map_pure, Term.map_ofItems]

theorem Node.compile_map (o : Options) (n : Node H) :
    (n.map f).compile o = (·.map f) <$> n.compile o := by
  cases n with
  | element e => exact e.compile_map f o
  | fragment children =>
      simp only [Node.map, Node.compile, fragmentValue_map, bind_map_left, map_bind,
        ← CompileM.finish_map, List.map_cons, List.map_nil, Segment.map]
  | text raw => exact CompileM.finish_map f [.literal (Text.trim raw)]
  | expression handle => exact CompileM.finish_map f [.expression (.host handle)]
  | emptyExpression => exact CompileM.finish_map f []

theorem compile_render_natural (f : H → K) :
    (∀ (o : Options) (n : Node H), compile o (n.map f) = (compile o n).map (·.map f)) ∧
      ∀ (t : Template H) (s : Scope K), (t.map f).render s = t.render (s.comap f) := by
  refine ⟨?compile, ?render⟩
  case compile =>
    intro o n
    rw [compile, n.compile_map f o, CompileM.compiled_map]
    rfl
  case render =>
    intro t s
    exact t.render_map f s

end HtmlTemplate
