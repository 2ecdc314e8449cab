import HtmlTemplate.Template.Builder

namespace HtmlTemplate

variable {H α : Type}

mutual

-- A spread is looked up as its handle is.
def Term.collect (f : Term H → List α) : Term H → List α
  | .host handle => f (.host handle)
  | .str text => f (.str text)
  | .bool value => f (.bool value)
  | .template t => t.collect f ++ f (.template t)
  | .list items => Term.collectAll f items ++ f (.list items)
  | .object o => o.collect f ++ f (.object o)
  | .raw inner => inner.collect f ++ f (.raw inner)
  | .attributes o => o.collect f ++ f (.attributes o)
  | .call callee props => props.collect f ++ f (.call callee props)

def Term.collectAll (f : Term H → List α) : List (Term H) → List α
  | [] => []
  | t :: ts => t.collect f ++ Term.collectAll f ts

def Template.collect (f : Term H → List α) : Template H → List α
  | ⟨segments⟩ => Segment.collectAll f segments

def Segment.collect (f : Term H → List α) : Segment H → List α
  | .literal _ => []
  | .expression term => term.collect f

def Segment.collectAll (f : Term H → List α) : List (Segment H) → List α
  | [] => []
  | s :: ss => s.collect f ++ Segment.collectAll f ss

def ObjectLiteral.collect (f : Term H → List α) : ObjectLiteral H → List α
  | ⟨entries⟩ => Entry.collectAll f entries

def Entry.collect (f : Term H → List α) : Entry H → List α
  | .field _ value => value.collect f
  | .spread handle => f (.host handle)

def Entry.collectAll (f : Term H → List α) : List (Entry H) → List α
  | [] => []
  | e :: es => e.collect f ++ Entry.collectAll f es

end

def Term.subterms (t : Term H) : List (Term H) :=
  t.collect fun u => [u]

def Template.subterms (t : Template H) : List (Term H) :=
  t.collect fun u => [u]

def Term.any (p : Term H → Bool) (t : Term H) : Bool :=
  t.subterms.any p

def Template.any (p : Term H → Bool) (t : Template H) : Bool :=
  t.subterms.any p

section Lists

variable (f : Term H → List α)

theorem eq_flatMap {β : Type} {g : List β → List α} {h : β → List α} (hnil : g [] = [])
    (hcons : ∀ b bs, g (b :: bs) = h b ++ g bs) (bs : List β) : g bs = bs.flatMap h := by
  induction bs with
  | nil => exact hnil
  | cons b bs ih => rw [hcons, ih, List.flatMap_cons]

theorem Term.collectAll_eq (ts : List (Term H)) :
    Term.collectAll f ts = ts.flatMap (·.collect f) :=
  eq_flatMap rfl (fun _ _ => rfl) ts

theorem Segment.collectAll_eq (ss : List (Segment H)) :
    Segment.collectAll f ss = ss.flatMap (·.collect f) :=
  eq_flatMap rfl (fun _ _ => rfl) ss

theorem Entry.collectAll_eq (es : List (Entry H)) :
    Entry.collectAll f es = es.flatMap (·.collect f) :=
  eq_flatMap rfl (fun _ _ => rfl) es

theorem Template.collect_eq (t : Template H) : t.collect f = t.segments.flatMap (·.collect f) := by
  obtain ⟨segments⟩ := t
  rw [Template.collect, Segment.collectAll_eq]

theorem ObjectLiteral.collect_eq (o : ObjectLiteral H) :
    o.collect f = o.entries.flatMap (·.collect f) := by
  obtain ⟨entries⟩ := o
  rw [ObjectLiteral.collect, Entry.collectAll_eq]

theorem Segment.flatMap_collect_alternate (pending : String) (ps : List (Segment H)) :
    (alternate pending ps).flatMap (·.collect f) = ps.flatMap (·.collect f) := by
  induction ps generalizing pending with
  | nil => rfl
  | cons p ps ih =>
      cases p with
      | literal text => simp only [alternate, ih, List.flatMap_cons, collect, List.nil_append]
      | expression term => simp only [alternate, ih, List.flatMap_cons, collect, List.nil_append]

theorem Template.collect_ofPieces (ps : List (Segment H)) :
    (ofPieces ps).collect f = ps.flatMap (·.collect f) := by
  rw [collect_eq, segments_ofPieces, Segment.flatMap_collect_alternate]

end Lists

mutual

theorem Term.collect_eq_flatMap (f : Term H → List α) : (t : Term H) →
    t.collect f = t.subterms.flatMap f
  | .host _ | .str _ | .bool _ => by simp [Term.subterms, Term.collect]
  | .template t => by
      have h := Template.collect_eq_flatMap f t
      simp [Term.subterms, Term.collect, h, Template.subterms]
  | .list items => by
      have h := Term.collectAll_eq_flatMap f items
      simp [Term.subterms, Term.collect, h]
  | .object o | .attributes o | .call _ o => by
      have h := ObjectLiteral.collect_eq_flatMap f o
      simp [Term.subterms, Term.collect, h]
  | .raw inner => by
      have h := Term.collect_eq_flatMap f inner
      simp [Term.subterms, Term.collect, h]

theorem Term.collectAll_eq_flatMap (f : Term H → List α) : (ts : List (Term H)) →
    Term.collectAll f ts = (Term.collectAll (fun u => [u]) ts).flatMap f
  | [] => rfl
  | t :: ts => by
      rw [Term.collectAll, Term.collectAll, List.flatMap_append, Term.collect_eq_flatMap f t,
        Term.collectAll_eq_flatMap f ts, Term.subterms]

theorem Template.collect_eq_flatMap (f : Term H → List α) : (t : Template H) →
    t.collect f = t.subterms.flatMap f
  | ⟨segments⟩ => Segment.collectAll_eq_flatMap f segments

theorem Segment.collect_eq_flatMap (f : Term H → List α) : (s : Segment H) →
    s.collect f = (s.collect fun u => [u]).flatMap f
  | .literal _ => rfl
  | .expression term => Term.collect_eq_flatMap f term

theorem Segment.collectAll_eq_flatMap (f : Term H → List α) : (ss : List (Segment H)) →
    Segment.collectAll f ss = (Segment.collectAll (fun u => [u]) ss).flatMap f
  | [] => rfl
  | s :: ss => by
      rw [Segment.collectAll, Segment.collectAll, List.flatMap_append,
        Segment.collect_eq_flatMap f s, Segment.collectAll_eq_flatMap f ss]

theorem ObjectLiteral.collect_eq_flatMap (f : Term H → List α) : (o : ObjectLiteral H) →
    o.collect f = (o.collect fun u => [u]).flatMap f
  | ⟨entries⟩ => Entry.collectAll_eq_flatMap f entries

theorem Entry.collect_eq_flatMap (f : Term H → List α) : (e : Entry H) →
    e.collect f = (e.collect fun u => [u]).flatMap f
  | .field _ value => Term.collect_eq_flatMap f value
  | .spread handle => by simp [Entry.collect]

theorem Entry.collectAll_eq_flatMap (f : Term H → List α) : (es : List (Entry H)) →
    Entry.collectAll f es = (Entry.collectAll (fun u => [u]) es).flatMap f
  | [] => rfl
  | e :: es => by
      rw [Entry.collectAll, Entry.collectAll, List.flatMap_append, Entry.collect_eq_flatMap f e,
        Entry.collectAll_eq_flatMap f es]

end

mutual

def Expression.handles : Expression H → List H
  | .bool _ => []
  | .str _ => []
  | .object properties => Expression.propertyHandles properties
  | .host handle => [handle]

def Expression.propertyHandles : List (String × Expression H) → List H
  | [] => []
  | (_, e) :: properties => e.handles ++ Expression.propertyHandles properties

end

def Attribute.handles : Attribute H → List H
  | .named _ (some (.expression e)) => e.handles
  | .named _ _ => []
  | .spread handle => [handle]

end HtmlTemplate
