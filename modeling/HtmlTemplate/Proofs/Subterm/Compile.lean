import HtmlTemplate.Proofs.Interpretation.Compile
import HtmlTemplate.Proofs.Subterm.Basic

namespace HtmlTemplate

open CompileM

variable {H α : Type}

def Child.collect (f : Term H → List α) : Child H → List α
  | .text _ => []
  | .expression handle => f (.host handle)
  | .element t => t.collect f ++ f (.template t)
  | .fragment items => items.flatMap (·.collect f)

structure Term.Ignores (f : Term H → List α) : Prop where
  str : ∀ text, f (.str text) = []
  bool : ∀ b, f (.bool b) = []
  list : ∀ items, f (.list items) = []
  object : ∀ o, f (.object o) = []

variable {f : Term H → List α}

mutual

theorem Term.collect_ofExpression (hf : Term.Ignores f) : (e : Expression H) →
    (Term.ofExpression e).collect f = e.handles.flatMap fun handle => f (.host handle)
  | .bool b => hf.bool b
  | .str text => hf.str text
  | .object properties => by
      rw [Term.ofExpression, Term.collect, ObjectLiteral.collect, hf.object, List.append_nil,
        Entry.collectAll_fieldsOfProperties hf properties, Expression.handles]
  | .host handle => by
      rw [Expression.handles, List.flatMap_singleton]
      rfl

theorem Entry.collectAll_fieldsOfProperties (hf : Term.Ignores f) :
    (ps : List (String × Expression H)) →
      Entry.collectAll f (Term.fieldsOfProperties ps) =
        (Expression.propertyHandles ps).flatMap fun handle => f (.host handle)
  | [] => rfl
  | (_, e) :: ps => by
      rw [Term.fieldsOfProperties, Entry.collectAll, Entry.collect, Term.collect_ofExpression hf e,
        Entry.collectAll_fieldsOfProperties hf ps, Expression.propertyHandles, List.flatMap_append]

end

section Attributes

def Attribute.collect (f : Term H → List α) (a : Attribute H) : List α :=
  a.handles.flatMap fun handle => f (.host handle)

theorem Attribute.flatMap_collect_eq_nil (h : ∀ handle, f (.host handle) = [])
    (as : List (Attribute H)) : as.flatMap (·.collect f) = [] := by
  simp only [collect, h, List.flatMap_eq_nil_iff, implies_true]

theorem Entry.flatMap_collect_filterMap {p : Attribute H → Bool}
    {g : Attribute H → Option (Entry H)}
    (hp : ∀ a, p a = true → (g a).toList.flatMap (·.collect f) = a.collect f)
    (hn : ∀ a, p a = false → g a = none) (as : List (Attribute H)) :
    (as.filterMap g).flatMap (·.collect f) = (as.filter p).flatMap (·.collect f) := by
  induction as with
  | nil => rfl
  | cons a as ih =>
      rw [filterMap_cons_eq_append, List.flatMap_append, ih]
      cases h : p a with
      | true => rw [List.filter_cons_of_pos h, hp a h, List.flatMap_cons]
      | false =>
          rw [List.filter_cons_of_neg (by simp [h]), hn a h]
          rfl

variable (o : Options)

theorem ClassifiedAttributes.collect_spreads (r : AttributeRules) (as : List (Attribute H)) :
    ((classify r as).attributes.filterMap (·.spread?)).flatMap (·.collect f) =
      (as.filter (·.isSpread)).flatMap (·.collect f) := by
  simp only [classify, List.filterMap_filterMap]
  refine Entry.flatMap_collect_filterMap ?_ ?_ as
  · rintro (⟨name, value?⟩ | handle) h
    · cases h
    · rfl
  · rintro (⟨name, value?⟩ | handle) h
    · exact Attribute.spread?_named r name value?
    · cases h

variable (hf : Term.Ignores f)
include hf

theorem Attribute.collect_field? (r : AttributeRules) (name : String)
    (value? : Option (AttributeValue H)) (h : r.payloadKey? name = none) :
    (((Attribute.named name value?).verdict r).kept?.bind (·.field?)).toList.flatMap
      (·.collect f) = (Attribute.named name value?).collect f := by
  rcases value? with _ | text | (_ | _) | text | properties | handle <;>
    simp [verdict, h, AttributeValue.verdict, Verdict.kept?, ClassifiedAttribute.field?,
      Entry.collect, Attribute.collect, Attribute.handles, Expression.handles, Term.collect,
      Term.collect_ofExpression hf, hf.str, hf.bool]

namespace ClassifiedAttributes

theorem collect_fields (as : List (Attribute H)) :
    ((classify (.host o) as).attributes.filterMap (·.field?)).flatMap (·.collect f) =
      (as.filter (·.isPlain o)).flatMap (·.collect f) := by
  simp only [classify, List.filterMap_filterMap]
  refine Entry.flatMap_collect_filterMap ?_ ?_ as
  · rintro (⟨name, value?⟩ | handle) h
    · exact Attribute.collect_field? hf (.host o) name value?
        (AttributeRules.payloadKey?_of_isPlain o h)
    · cases h
  · rintro (⟨name, value?⟩ | handle) h
    · rw [Attribute.kept?_of_not_isPlain o h]
      cases (Attribute.named name value?).payload? o <;> rfl
    · rfl

theorem collect_props (as : List (Attribute H)) :
    (classify (.component o) as).props.flatMap (·.collect f) = as.flatMap (·.collect f) := by
  have hmember (a : Attribute H) :
      ((a.verdict (.component o)).kept?.bind (·.member?)).toList.flatMap (·.collect f) =
        a.collect f := by
    rcases a with ⟨name, value?⟩ | handle
    · rw [← Attribute.collect_field? hf (.component o) name value? rfl]
      rcases value? with _ | text | (_ | _) | text | properties | handle <;> rfl
    · rfl
  rw [props, classify, List.filterMap_filterMap,
    Entry.flatMap_collect_filterMap (p := fun _ => true) (fun a _ => hmember a) (by simp),
    List.filter_eq_self.mpr fun _ _ => rfl]

theorem collect_merged (as : List (Attribute H)) :
    (classify (.host o) as).merged.collect f =
      (as.filter (·.isPlain o)).flatMap (·.collect f) ++
        (as.filter (·.isSpread)).flatMap (·.collect f) := by
  rw [ObjectLiteral.collect_eq, merged, List.flatMap_append, collect_fields o hf, collect_spreads]

theorem collect_plain (as : List (ClassifiedAttribute H)) :
    (as.flatMap (·.pieces)).flatMap (·.collect f) =
      (as.filterMap (·.field?)).flatMap (·.collect f) := by
  induction as with
  | nil => rfl
  | cons a as ih =>
      have ha : a.pieces.flatMap (·.collect f) = a.field?.toList.flatMap (·.collect f) := by
        cases a <;> simp [ClassifiedAttribute.pieces, ClassifiedAttribute.field?, Segment.collect,
          Entry.collect, Term.collect, hf.str, hf.bool]
      rw [List.flatMap_cons, List.flatMap_append, ha, ih, filterMap_cons_eq_append,
        List.flatMap_append]

theorem collect_pieces (as : List (Attribute H)) :
    (classify (.host o) as).pieces.output.flatMap (·.collect f) =
      (as.filter (·.isPlain o)).flatMap (·.collect f) ++
        (as.filter (·.isSpread)).flatMap (·.collect f) ++
          if as.any (·.isSpread) then f (.attributes (classify (.host o) as).merged) else [] := by
  rw [output_pieces, hasSpread_classify]
  cases h : as.any (·.isSpread) with
  | true => simp [Segment.collect, Term.collect, collect_merged o hf]
  | false =>
      have hs : as.filter (·.isSpread) = [] := by
        refine List.filter_eq_nil_iff.mpr ?_
        exact List.any_eq_false.mp h
      simp [collect_plain hf, collect_fields o hf, hs]

end ClassifiedAttributes

end Attributes

section Children

theorem Element.collect_assembleHost (o : Options) (e : Element H)
    (children : CompileM (List (Child H))) [AddsOnly children] :
    (e.assembleHost o children).output.collect f =
      (classify (.host o) e.attributes).pieces.output.flatMap (·.collect f) ++
        if e.isSelfClosing then []
        else (content o children (classify (.host o) e.attributes).payload?).output.flatMap
          (·.collect f) := by
  rw [output_assembleHost, Template.collect_ofPieces]
  cases e.isSelfClosing <;> simp [Segment.collect]

theorem Child.collect_text? (raw : String) :
    (Child.text? raw : Option (Child H)).toList.flatMap (·.collect f) = [] := by
  unfold Child.text?
  split <;> rfl

variable (o : Options) (hf : Term.Ignores f)
include hf

theorem Term.collect_ofItems (items : List (Term H)) :
    (Term.ofItems items).collect f = items.flatMap (·.collect f) := by
  rcases items with _ | ⟨t, _ | ⟨u, items⟩⟩
  · exact hf.list []
  · simp [Term.ofItems]
  · simp [Term.ofItems, Term.collect, Term.collectAll_eq, hf.list]

namespace Child

theorem collect_pieces (c : Child H) : (c.pieces o).flatMap (·.collect f) = c.collect f := by
  rcases c with text | handle | t | (_ | ⟨t, _ | ⟨u, items⟩⟩) <;>
    simp [pieces, collect, Segment.collect, Term.collect, Term.collectAll_eq, hf.list]

theorem collect_argument? (c : Child H) :
    c.argument?.toList.flatMap (·.collect f) = c.collect f := by
  rcases c with text | handle | t | (_ | ⟨t, _ | ⟨u, items⟩⟩) <;>
    simp [argument?, collect, Term.collect, Term.collectAll_eq, hf.str, hf.list]

theorem collect_arguments (cs : List (Child H)) :
    (cs.filterMap (·.argument?)).flatMap (·.collect f) = cs.flatMap (·.collect f) := by
  induction cs with
  | nil => rfl
  | cons c cs ih =>
      rw [filterMap_cons_eq_append, List.flatMap_append, collect_argument? hf, ih,
        List.flatMap_cons]

end Child

namespace Element

theorem collect_childrenProp (cs : List (Child H)) :
    (childrenProp cs).flatMap (·.collect f) = cs.flatMap (·.collect f) := by
  rw [← Child.collect_arguments hf]
  unfold childrenProp
  split
  · rename_i h
    rw [h]
    rfl
  · rw [List.flatMap_singleton, Entry.collect, Term.collect_ofItems hf]

variable (children : CompileM (List (Child H)))

theorem collect_content (p : Option (Expression H)) :
    (content o children p).output.flatMap (·.collect f) =
      match p with
      | some payload =>
          (payload.handles.flatMap fun handle => f (.host handle)) ++
            f (.raw (.ofExpression payload))
      | none => children.output.flatMap (·.collect f) := by
  rw [output_content]
  cases p with
  | some payload => simp [Segment.collect, Term.collect, Term.collect_ofExpression hf]
  | none => simp only [List.flatMap_assoc, Child.collect_pieces o hf]

theorem collect_assembleComponent (e : Element H) :
    (e.assembleComponent o children).output.collect f =
      e.attributes.flatMap (·.collect f) ++ children.output.flatMap (·.collect f) ++
        f (.call e.tag ⟨(classify (.component o) e.attributes).props ++
          childrenProp children.output⟩) := by
  rw [output_assembleComponent, Template.collect_ofPieces, List.flatMap_singleton, Segment.collect,
    Term.collect, ObjectLiteral.collect_eq, List.flatMap_append,
    ClassifiedAttributes.collect_props o hf, collect_childrenProp hf]

end Element

end Children

end HtmlTemplate
