import HtmlTemplate.Template.Builder
import HtmlTemplate.Template.Render

namespace HtmlTemplate

variable {H : Type} (s : Scope H)

theorem Value.listHtml_append (vs ws : List Value) :
    listHtml (vs ++ ws) = listHtml vs ++ listHtml ws := by
  induction vs with
  | nil => simp only [List.nil_append, listHtml, String.empty_append]
  | cons v vs ih => simp only [List.cons_append, listHtml, ih, String.append_assoc]

namespace Segment

theorem renderAll_nil : renderAll s [] = pure "" :=
  rfl

theorem renderAll_cons_literal (text : String) (ps : List (Segment H)) :
    renderAll s (.literal text :: ps) = do
      let a ← renderAll s ps
      return text ++ a :=
  rfl

theorem renderAll_cons_expression (term : Term H) (ps : List (Segment H)) :
    renderAll s (.expression term :: ps) = do
      let v ← term.evaluate s
      let a ← renderAll s ps
      return v.toHtml ++ a := by
  simp only [renderAll, render, bind_assoc, pure_bind]

theorem renderAll_append (xs ys : List (Segment H)) :
    renderAll s (xs ++ ys) = do
      let a ← renderAll s xs
      let b ← renderAll s ys
      return a ++ b := by
  induction xs with
  | nil => simp only [List.nil_append, renderAll, pure_bind, String.empty_append, bind_pure]
  | cons x xs ih =>
      simp only [List.cons_append, renderAll, ih, bind_assoc, pure_bind, String.append_assoc]

theorem renderAll_alternate (pending : String) (ps : List (Segment H)) :
    renderAll s (alternate pending ps) = do
      let a ← renderAll s ps
      return pending ++ a := by
  induction ps generalizing pending with
  | nil => rfl
  | cons p ps ih =>
      cases p with
      | literal text =>
          simp only [alternate, renderAll_cons_literal, ih, bind_assoc, pure_bind,
            String.append_assoc]
      | expression term =>
          simp only [alternate, renderAll_cons_literal, renderAll_cons_expression, ih, bind_assoc,
            pure_bind, String.empty_append]

end Segment

theorem Template.render_ofPieces (ps : List (Segment H)) :
    (ofPieces ps).render s = Segment.renderAll s ps := by
  have h := segments_ofPieces ps
  generalize ofPieces ps = t at h
  obtain ⟨segments⟩ := t
  subst h
  simp only [render, Segment.renderAll_alternate, String.empty_append, bind_pure]

theorem Term.evaluate_str (text : String) : evaluate s (.str text) = pure (.string text) :=
  rfl

theorem Term.evaluate_bool (b : Bool) : evaluate s (.bool b) = pure (.bool b) :=
  rfl

theorem Term.evaluateAll_append (ts us : List (Term H)) :
    evaluateAll s (ts ++ us) = do
      let vs ← evaluateAll s ts
      let ws ← evaluateAll s us
      return vs ++ ws := by
  induction ts with
  | nil => simp only [List.nil_append, evaluateAll, pure_bind, bind_pure]
  | cons t ts ih =>
      simp only [List.cons_append, evaluateAll, ih, bind_assoc, pure_bind]

theorem Entry.allPairs_append (es fs : List (Entry H)) :
    allPairs s (es ++ fs) = do
      let ps ← allPairs s es
      let qs ← allPairs s fs
      return ps ++ qs := by
  induction es with
  | nil => simp only [List.nil_append, allPairs, pure_bind, bind_pure]
  | cons e es ih =>
      simp only [List.cons_append, allPairs, ih, bind_assoc, pure_bind, List.append_assoc]

theorem ObjectLiteral.evaluate_eq (object : ObjectLiteral H) :
    object.evaluate s = do
      let ps ← Entry.allPairs s object.entries
      return .ofPairs ps := by
  cases object
  rw [evaluate]

end HtmlTemplate
