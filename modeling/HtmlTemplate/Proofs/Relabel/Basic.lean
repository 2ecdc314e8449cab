import HtmlTemplate.Compile.Child
import HtmlTemplate.Markup.Classify
import HtmlTemplate.Template.Render

namespace HtmlTemplate

variable {H K : Type}

mutual

def Expression.map (f : H → K) : Expression H → Expression K
  | .bool value => .bool value
  | .str text => .str text
  | .object properties => .object (Expression.mapProperties f properties)
  | .host handle => .host (f handle)

def Expression.mapProperties (f : H → K) :
    List (String × Expression H) → List (String × Expression K)
  | [] => []
  | (key, value) :: properties => (key, value.map f) :: Expression.mapProperties f properties

end

def AttributeValue.map (f : H → K) : AttributeValue H → AttributeValue K
  | .text value => .text value
  | .expression value => .expression (value.map f)

def Attribute.map (f : H → K) : Attribute H → Attribute K
  | .named name value? => .named name (value?.map (·.map f))
  | .spread handle => .spread (f handle)

mutual

def Node.map (f : H → K) : Node H → Node K
  | .element e => .element (e.map f)
  | .fragment children => .fragment (Node.mapAll f children)
  | .text raw => .text raw
  | .expression handle => .expression (f handle)
  | .emptyExpression => .emptyExpression

def Element.map (f : H → K) : Element H → Element K
  | ⟨tag, attributes, children, closed⟩ =>
      ⟨tag, attributes.map (·.map f), Node.mapAll f children, closed⟩

def Node.mapAll (f : H → K) : List (Node H) → List (Node K)
  | [] => []
  | n :: ns => n.map f :: Node.mapAll f ns

end

mutual

def Term.map (f : H → K) : Term H → Term K
  | .host handle => .host (f handle)
  | .str text => .str text
  | .bool value => .bool value
  | .template t => .template (t.map f)
  | .list items => .list (Term.mapAll f items)
  | .object o => .object (o.map f)
  | .raw inner => .raw (inner.map f)
  | .attributes o => .attributes (o.map f)
  | .call callee props => .call callee (props.map f)

def Term.mapAll (f : H → K) : List (Term H) → List (Term K)
  | [] => []
  | t :: ts => t.map f :: Term.mapAll f ts

def Template.map (f : H → K) : Template H → Template K
  | ⟨segments⟩ => ⟨Segment.mapAll f segments⟩

def Segment.map (f : H → K) : Segment H → Segment K
  | .literal text => .literal text
  | .expression term => .expression (term.map f)

def Segment.mapAll (f : H → K) : List (Segment H) → List (Segment K)
  | [] => []
  | s :: ss => s.map f :: Segment.mapAll f ss

def ObjectLiteral.map (f : H → K) : ObjectLiteral H → ObjectLiteral K
  | ⟨entries⟩ => ⟨Entry.mapAll f entries⟩

def Entry.map (f : H → K) : Entry H → Entry K
  | .field key value => .field key (value.map f)
  | .spread handle => .spread (f handle)

def Entry.mapAll (f : H → K) : List (Entry H) → List (Entry K)
  | [] => []
  | e :: es => e.map f :: Entry.mapAll f es

end

def Scope.comap (s : Scope K) (f : H → K) : Scope H where
  value handle := s.value (f handle)
  component := s.component

variable (f : H → K)

theorem eq_map {α β : Type} {g : List α → List β} {h : α → β} (hnil : g [] = [])
    (hcons : ∀ a as, g (a :: as) = h a :: g as) (as : List α) : g as = as.map h := by
  induction as with
  | nil => exact hnil
  | cons a as ih => rw [hcons, ih, List.map_cons]

theorem Term.mapAll_eq (ts : List (Term H)) : Term.mapAll f ts = ts.map (·.map f) :=
  eq_map rfl (fun _ _ => rfl) ts

theorem Segment.mapAll_eq (ss : List (Segment H)) : Segment.mapAll f ss = ss.map (·.map f) :=
  eq_map rfl (fun _ _ => rfl) ss

theorem Entry.mapAll_eq (es : List (Entry H)) : Entry.mapAll f es = es.map (·.map f) :=
  eq_map rfl (fun _ _ => rfl) es

theorem Segment.map_alternate (pending : String) (ps : List (Segment H)) :
    (alternate pending ps).map (·.map f) = alternate pending (ps.map (·.map f)) := by
  induction ps generalizing pending with
  | nil => simp [alternate, Segment.map]
  | cons p ps ih =>
      cases p with
      | literal text => simp [alternate, Segment.map, ih]
      | expression term => simp [alternate, Segment.map, ih]

theorem Template.map_ofPieces (ps : List (Segment H)) :
    (ofPieces ps).map f = ofPieces (ps.map (·.map f)) := by
  have hleft := segments_ofPieces ps
  have hright := segments_ofPieces (ps.map (·.map f))
  generalize ofPieces ps = t at hleft ⊢
  generalize ofPieces (ps.map (·.map f)) = u at hright ⊢
  obtain ⟨segments⟩ := t
  obtain ⟨segments'⟩ := u
  subst hleft
  subst hright
  rw [Template.map, Segment.mapAll_eq, Segment.map_alternate]

theorem Term.map_ofItems (items : List (Term H)) :
    (Term.ofItems items).map f = Term.ofItems (items.map (·.map f)) := by
  rcases items with _ | ⟨t, _ | ⟨u, items⟩⟩
  · rfl
  · rfl
  · simp [Term.ofItems, Term.map, Term.mapAll_eq]

mutual

theorem Term.map_ofExpression : (e : Expression H) →
    (Term.ofExpression e).map f = Term.ofExpression (e.map f)
  | .bool _ => rfl
  | .str _ => rfl
  | .object properties => by
      rw [Term.ofExpression, Term.map, ObjectLiteral.map, Expression.map, Term.ofExpression,
        Entry.mapAll_fieldsOfProperties properties]
  | .host _ => rfl

theorem Entry.mapAll_fieldsOfProperties : (ps : List (String × Expression H)) →
    Entry.mapAll f (Term.fieldsOfProperties ps) =
      Term.fieldsOfProperties (Expression.mapProperties f ps)
  | [] => rfl
  | (_, e) :: ps => by
      rw [Term.fieldsOfProperties, Entry.mapAll, Entry.map, Expression.mapProperties,
        Term.fieldsOfProperties, Term.map_ofExpression e, Entry.mapAll_fieldsOfProperties ps]

end

section Render

variable (s : Scope K)

mutual

theorem Term.evaluate_map : (t : Term H) → (t.map f).evaluate s = t.evaluate (s.comap f)
  | .host _ => rfl
  | .str _ => rfl
  | .bool _ => rfl
  | .template t => by rw [Term.map, Term.evaluate, Term.evaluate, t.render_map]
  | .list items => by rw [Term.map, Term.evaluate, Term.evaluate, Term.evaluateAll_map items]
  | .object o => by rw [Term.map, Term.evaluate, Term.evaluate, o.evaluate_map]
  | .raw inner => by rw [Term.map, Term.evaluate, Term.evaluate, inner.evaluate_map]
  | .attributes o => by rw [Term.map, Term.evaluate, Term.evaluate, o.evaluate_map]
  | .call callee props => by
      rw [Term.map, Term.evaluate, Term.evaluate, props.evaluate_map]
      rfl

theorem Term.evaluateAll_map : (ts : List (Term H)) →
    Term.evaluateAll s (Term.mapAll f ts) = Term.evaluateAll (s.comap f) ts
  | [] => rfl
  | t :: ts => by
      rw [Term.mapAll, Term.evaluateAll, Term.evaluateAll, t.evaluate_map, Term.evaluateAll_map ts]

theorem Template.render_map : (t : Template H) → (t.map f).render s = t.render (s.comap f)
  | ⟨segments⟩ => by
      rw [Template.map, Template.render, Template.render, Segment.renderAll_map segments]

theorem Segment.render_map : (p : Segment H) → (p.map f).render s = p.render (s.comap f)
  | .literal _ => rfl
  | .expression term => by rw [Segment.map, Segment.render, Segment.render, term.evaluate_map]

theorem Segment.renderAll_map : (ps : List (Segment H)) →
    Segment.renderAll s (Segment.mapAll f ps) = Segment.renderAll (s.comap f) ps
  | [] => rfl
  | p :: ps => by
      rw [Segment.mapAll, Segment.renderAll, Segment.renderAll, p.render_map,
        Segment.renderAll_map ps]

theorem ObjectLiteral.evaluate_map : (o : ObjectLiteral H) →
    (o.map f).evaluate s = o.evaluate (s.comap f)
  | ⟨entries⟩ => by
      rw [ObjectLiteral.map, ObjectLiteral.evaluate, ObjectLiteral.evaluate,
        Entry.allPairs_map entries]

theorem Entry.pairs_map : (e : Entry H) → (e.map f).pairs s = e.pairs (s.comap f)
  | .field _ term => by rw [Entry.map, Entry.pairs, Entry.pairs, term.evaluate_map]
  | .spread _ => rfl

theorem Entry.allPairs_map : (es : List (Entry H)) →
    Entry.allPairs s (Entry.mapAll f es) = Entry.allPairs (s.comap f) es
  | [] => rfl
  | e :: es => by
      rw [Entry.mapAll, Entry.allPairs, Entry.allPairs, e.pairs_map, Entry.allPairs_map es]

end

end Render

end HtmlTemplate
