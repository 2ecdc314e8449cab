import HtmlTemplate.Proofs.Alternation
import HtmlTemplate.Proofs.Render

namespace HtmlTemplate

variable {H : Type}

namespace Segment

def isExpression (p : Segment H) : Bool :=
  p.expression?.isSome

def runText (run : List (Segment H)) : String :=
  String.join (run.filterMap (·.literal?))

theorem runText_cons_literal (text : String) (run : List (Segment H)) :
    runText (.literal text :: run) = text ++ runText run := by
  have h : (Segment.literal text : Segment H).literal? = some text := rfl
  rw [runText, List.filterMap_cons_some h, String.join_cons, runText]

theorem filterMap_expression?_alternate (pending : String) (ps : List (Segment H)) :
    (alternate pending ps).filterMap (·.expression?) = ps.filterMap (·.expression?) := by
  induction ps generalizing pending with
  | nil => rfl
  | cons p ps ih =>
      cases p with
      | literal text => rw [alternate, ih, List.filterMap_cons_none rfl]
      | expression term =>
          have hterm : (Segment.expression term).expression? = some term := rfl
          rw [alternate, List.filterMap_cons_none rfl, List.filterMap_cons_some hterm,
            List.filterMap_cons_some hterm, ih]

def runs (ps : List (Segment H)) : List (List (Segment H)) :=
  ps.splitOnP isExpression

theorem runs_cons_literal (text : String) (ps : List (Segment H)) :
    runs (.literal text :: ps) = (runs ps).modifyHead (.literal text :: ·) := by
  rw [runs, List.splitOnP_cons_eq_if_modifyHead, if_neg nofun, runs]

theorem runs_cons_expression (term : Term H) (ps : List (Segment H)) :
    runs (.expression term :: ps) = [] :: runs ps := by
  have h : (Segment.expression term).isExpression = true := rfl
  rw [runs, List.splitOnP_cons_eq_if_modifyHead, if_pos h, runs]

theorem modifyHead_empty_append (texts : List String) : texts.modifyHead ("" ++ ·) = texts := by
  cases texts with
  | nil => rfl
  | cons text texts => rw [List.modifyHead_cons, String.empty_append]

theorem filterMap_literal?_alternate (pending : String) (ps : List (Segment H)) :
    (alternate pending ps).filterMap (·.literal?) =
      ((runs ps).map runText).modifyHead (pending ++ ·) := by
  induction ps generalizing pending with
  | nil => simp [alternate, literal?, runs, runText]
  | cons p ps ih =>
      cases p with
      | literal text =>
          rw [alternate, ih, runs_cons_literal]
          cases runs ps with
          | nil => rfl
          | cons run rest => simp [runText_cons_literal, String.append_assoc]
      | expression term =>
          have hpending : (Segment.literal pending : Segment H).literal? = some pending := rfl
          have hempty : pending ++ runText ([] : List (Segment H)) = pending := String.append_empty
          rw [alternate, List.filterMap_cons_some hpending, List.filterMap_cons_none rfl, ih,
            modifyHead_empty_append, runs_cons_expression, List.map_cons, List.modifyHead_cons,
            hempty]

theorem alternate_alternate (pending text : String) (ps : List (Segment H)) :
    alternate pending (alternate text ps) = alternate (pending ++ text) ps := by
  induction ps generalizing pending text with
  | nil => rfl
  | cons p ps ih =>
      cases p with
      | literal more => rw [alternate, alternate, ih, String.append_assoc]
      | expression term =>
          simp only [alternate]
          rw [ih, String.empty_append]

theorem renderAll_eq_mapM (s : Scope H) (ps : List (Segment H)) :
    renderAll s ps = do
      let texts ← ps.mapM fun
        | .literal text => return text
        | .expression term => do
            let v ← term.evaluate s
            return v.toHtml
      return String.join texts := by
  induction ps with
  | nil => rfl
  | cons p ps ih =>
      cases p with
      | literal text =>
          simp only [renderAll_cons_literal, ih, List.mapM_cons, bind_assoc, pure_bind,
            String.join_cons]
      | expression term =>
          simp only [renderAll_cons_expression, ih, List.mapM_cons, bind_assoc, pure_bind,
            String.join_cons]

end Segment

structure Segment.Silent (ps : List (Segment H)) : Prop where
  no_terms : ps.filterMap (·.expression?) = []
  no_text : Segment.runText ps = ""

namespace Segment

theorem runText_append (ps qs : List (Segment H)) :
    runText (ps ++ qs) = runText ps ++ runText qs := by
  rw [runText, List.filterMap_append, String.join_append, runText, runText]

theorem runText_alternate (pending : String) (ps : List (Segment H)) :
    runText (alternate pending ps) = pending ++ runText ps := by
  induction ps generalizing pending with
  | nil => rw [alternate, runText_cons_literal]
  | cons p ps ih =>
      cases p with
      | literal text => rw [alternate, ih, runText_cons_literal, String.append_assoc]
      | expression term =>
          have hterm (run : List (Segment H)) : runText (.expression term :: run) = runText run :=
            rfl
          rw [alternate, runText_cons_literal, hterm, ih, hterm, String.empty_append]

namespace Silent

theorem nil : Silent ([] : List (Segment H)) :=
  ⟨rfl, rfl⟩

theorem append_iff (ps qs : List (Segment H)) : Silent (ps ++ qs) ↔ Silent ps ∧ Silent qs := by
  constructor
  · rintro ⟨hterms, htext⟩
    rw [List.filterMap_append, List.append_eq_nil_iff] at hterms
    rw [runText_append, String.append_eq_empty_iff] at htext
    exact ⟨⟨hterms.1, htext.1⟩, hterms.2, htext.2⟩
  · rintro ⟨hp, hq⟩
    refine ⟨?_, ?_⟩
    · rw [List.filterMap_append, hp.no_terms, hq.no_terms, List.append_nil]
    · rw [runText_append, hp.no_text, hq.no_text, String.empty_append]

theorem literal_iff (text : String) : Silent [(.literal text : Segment H)] ↔ text = "" := by
  have htext : runText [(.literal text : Segment H)] = text := by
    rw [runText_cons_literal]
    exact String.append_empty
  exact ⟨fun h => htext.symm.trans h.no_text, fun h => ⟨rfl, htext.trans h⟩⟩

theorem not_expression (term : Term H) (ps : List (Segment H)) :
    ¬ Silent (.expression term :: ps) :=
  fun h => List.cons_ne_nil _ _ h.no_terms

end Silent

end Segment

theorem Builder.pushAll_append (b : Builder H) (ps qs : List (Segment H)) :
    b.pushAll (ps ++ qs) = (b.pushAll ps).pushAll qs :=
  List.foldl_append

theorem Builder.pushAll_of_silent {ps : List (Segment H)} (h : Segment.Silent ps)
    (b : Builder H) : b.pushAll ps = b := by
  induction ps with
  | nil => rfl
  | cons p ps ih =>
      obtain ⟨hp, hps⟩ := (Segment.Silent.append_iff [p] ps).mp h
      cases p with
      | literal text =>
          have hpush : b.push (.literal text) = b := by
            rw [push, (Segment.Silent.literal_iff text).mp hp, String.append_empty]
          rw [show b.pushAll (.literal text :: ps) = (b.push (.literal text)).pushAll ps from rfl,
            hpush, ih hps]
      | expression term => exact absurd hp (Segment.Silent.not_expression term [])

namespace Template

-- Neither the number of terms nor the length of all the text can make up for what is inserted.
theorem ofPieces_insert_eq_iff (before ps after : List (Segment H)) :
    ofPieces (before ++ ps ++ after) = ofPieces (before ++ after) ↔ Segment.Silent ps := by
  constructor
  · intro h
    have hsegments := congrArg segments h
    rw [segments_ofPieces, segments_ofPieces] at hsegments
    have hterms := congrArg (fun ss => (ss.filterMap (·.expression?)).length) hsegments
    have htext := congrArg (fun ss => (Segment.runText ss).length) hsegments
    simp only [Segment.filterMap_expression?_alternate, List.filterMap_append,
      List.length_append] at hterms
    simp only [Segment.runText_alternate, Segment.runText_append, String.length_append] at htext
    refine ⟨List.length_eq_zero_iff.mp ?_, String.length_eq_zero_iff.mp ?_⟩
    · omega
    · omega
  · intro h
    rw [ofPieces, ofPieces, Builder.pushAll_append, Builder.pushAll_append,
      Builder.pushAll_of_silent h, Builder.pushAll_append]

theorem ofPieces_segments_ofPieces (ps : List (Segment H)) :
    ofPieces (ofPieces ps).segments = ofPieces ps := by
  have h : (ofPieces (ofPieces ps).segments).segments = (ofPieces ps).segments := by
    rw [segments_ofPieces, segments_ofPieces, Segment.alternate_alternate, String.empty_append]
  generalize ofPieces (ofPieces ps).segments = t at h ⊢
  generalize ofPieces ps = u at h ⊢
  cases t
  cases u
  exact congrArg Template.mk h

end Template

theorem Builder.finish_pushAll_normal (pieces : List (Segment H)) :
    (empty.pushAll pieces).finish.IsAlternating ∧
    (empty.pushAll pieces).finish.expressions = pieces.filterMap (·.expression?) ∧
    (empty.pushAll pieces).finish.literals =
      (Segment.runs pieces).map Segment.runText ∧
    (∀ s : Scope H, (empty.pushAll pieces).finish.render s = do
      let texts ← pieces.mapM fun
        | .literal text => return text
        | .expression term => do
            let v ← term.evaluate s
            return v.toHtml
      return String.join texts) ∧
    (empty.pushAll (empty.pushAll pieces).finish.segments).finish =
      (empty.pushAll pieces).finish := by
  have hsegments : (empty.pushAll pieces).finish.segments = Segment.alternate "" pieces :=
    Template.segments_ofPieces pieces
  refine ⟨?alternating, ?expressions, ?literals, ?render, ?rebuilt⟩
  case alternating =>
    exact Template.isAlternating_of_alternates (Template.alternates_ofPieces pieces)
  case expressions =>
    rw [Template.expressions, hsegments, Segment.filterMap_expression?_alternate]
  case literals =>
    rw [Template.literals, hsegments, Segment.filterMap_literal?_alternate,
      Segment.modifyHead_empty_append]
  case render =>
    intro s
    rw [← Segment.renderAll_eq_mapM]
    exact Template.render_ofPieces s pieces
  case rebuilt =>
    exact Template.ofPieces_segments_ofPieces pieces

end HtmlTemplate
