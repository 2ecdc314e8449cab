import HtmlTemplate.Proofs.Interpretation.Compile
import Mathlib.Data.List.TakeWhile

namespace HtmlTemplate

open CompileM

variable {H : Type}

structure Placed (H : Type) where
  ancestors : List (Element H)
  element : Element H

mutual

def Node.placed (ancestors : List (Element H)) : Node H → List (Placed H)
  | .element e => e.placed ancestors
  | .fragment children => Node.allPlaced ancestors children
  | .text _ => []
  | .expression _ => []
  | .emptyExpression => []

def Node.allPlaced (ancestors : List (Element H)) : List (Node H) → List (Placed H)
  | [] => []
  | n :: ns => n.placed ancestors ++ Node.allPlaced ancestors ns

def Element.placed (ancestors : List (Element H)) : Element H → List (Placed H)
  | ⟨tag, attributes, children, closed⟩ =>
      ⟨ancestors, ⟨tag, attributes, children, closed⟩⟩ ::
        Node.allPlaced (⟨tag, attributes, children, closed⟩ :: ancestors) children

end

def Node.isBlank : Node H → Bool
  | .text raw => raw.toList.all Text.isBlank
  | .emptyExpression => true
  | _ => false

section

variable (o : Options)

namespace Element

def hasPayload (e : Element H) : Bool :=
  e.attributes.any fun a => (a.payload? o).isSome

def keepsChildren (e : Element H) : Bool :=
  match Tag.kind e.tag with
  | .unsupported => false
  | .component => true
  | .host => !e.isSelfClosing && !e.hasPayload o

def diagnostics (e : Element H) : List Diagnostic :=
  match Tag.kind e.tag with
  | .unsupported => [.unsupportedTag e.tag]
  | .component => []
  | .host =>
      (if e.attributes.any fun a => a.isDangerous o && (a.payload? o).isNone then
        [.malformedDangerousHtml e.tag o.dangerousHtmlAttribute o.dangerousHtmlKey]
      else []) ++
      if e.isSelfClosing && (e.hasPayload o || e.children.any fun n => !n.isBlank) then
        [.droppedChildren e.tag]
      else []

end Element

def Placed.isLive (p : Placed H) : Bool :=
  p.ancestors.all (·.keepsChildren o)

def Node.liveElements (n : Node H) : List (Element H) :=
  ((n.placed []).filter (·.isLive o)).map (·.element)

end

theorem Text.trim_eq_empty_iff (s : String) : trim s = "" ↔ ∀ c ∈ s.toList, isBlank c = true := by
  have ht : trim s = "" ↔ trimChars s.toList = [] := by
    rw [← String.toList_inj, toList_trim, String.toList_empty]
  rw [ht, trimChars, List.reverse_eq_nil_iff, List.dropWhile_eq_nil_iff]
  simp only [List.mem_reverse]
  constructor
  · intro h c hc
    rw [← List.takeWhile_append_dropWhile (p := isBlank) (l := s.toList)] at hc
    rcases List.mem_append.mp hc with hc | hc
    · exact List.mem_takeWhile_imp hc
    · exact h c hc
  · intro h c hc
    exact h c (List.dropWhile_subset _ hc)

theorem Node.isContent_eq_not_isBlank (n : Node H) : n.isContent = !n.isBlank := by
  cases n with
  | text raw =>
      have h : Text.trim raw = "" ↔ raw.toList.all Text.isBlank = true := by
        rw [Text.trim_eq_empty_iff, List.all_eq_true]
      rw [Bool.eq_iff_iff, Node.isContent, Node.isBlank, decide_eq_true_eq, ne_eq, h,
        Bool.not_eq_true, Bool.not_eq_true']
  | element e => rfl
  | fragment children => rfl
  | expression handle => rfl
  | emptyExpression => rfl

section Attributes

variable (o : Options)

theorem Attribute.isMalformed_verdict (a : Attribute H) :
    (a.verdict (.host o)).isMalformed = (a.isDangerous o && (a.payload? o).isNone) := by
  rcases a with ⟨name, value?⟩ | handle
  · cases hp : (Attribute.named name value?).isPlain o with
    | true =>
        have hk := AttributeRules.payloadKey?_of_isPlain o hp
        have hd : (Attribute.named name value?).isDangerous o = false := by
          simpa [isPlain, isSpread] using hp
        rw [hd, Bool.false_and]
        simp only [verdict, hk]
        rcases value? with _ | text | (_ | _) | text | properties | handle <;> rfl
    | false =>
        have hd : (Attribute.named name value?).isDangerous o = true := by
          simpa [isPlain, isSpread] using hp
        have hk : (AttributeRules.host o).payloadKey? name = some o.dangerousHtmlKey := by
          simpa [AttributeRules.payloadKey?, AttributeRules.host, isDangerous] using hd
        have hm : ((Attribute.named name value?).verdict (.host o)).isMalformed =
            ((Attribute.named name value?).verdict (.host o)).kept?.isNone := by
          simp only [verdict, hk]
          cases value?.bind (·.payload? o.dangerousHtmlKey) <;> rfl
        rw [hd, Bool.true_and, hm, kept?_of_not_isPlain o hp, Option.isNone_map]
  · rfl

theorem malformedDangerousHtml_classify (as : List (Attribute H)) :
    (classify (.host o) as).malformedDangerousHtml =
      as.any fun a => a.isDangerous o && (a.payload? o).isNone := by
  simp only [classify, Attribute.isMalformed_verdict]

theorem ClassifiedAttributes.isSome_payload?_classify (e : Element H) :
    (classify (.host o) e.attributes).payload?.isSome = e.hasPayload o := by
  rw [payload?_classify, Bool.eq_iff_iff, List.getLast?_isSome, Element.hasPayload,
    List.any_eq_true, ne_eq, List.filterMap_eq_nil_iff]
  simp [Option.isSome_iff_ne_none]

theorem ClassifiedAttributes.diagnostics_added_pieces (c : ClassifiedAttributes H) :
    c.pieces.added.diagnostics = [] := by
  unfold pieces
  split <;> rfl

end Attributes

namespace Element

variable (o : Options) (e : Element H) (children : CompileM (List (Child H)))

theorem diagnostics_added_content (p : Option (Expression H)) :
    (content o children p).added.diagnostics =
      if p.isSome then [] else children.added.diagnostics := by
  cases p with
  | none => simp [content]
  | some payload => rfl

variable [AddsOnly children]

theorem diagnostics_added_assembleHost (h : Tag.kind e.tag = .host) :
    (e.assembleHost o children).added.diagnostics =
      e.diagnostics o ++ if e.keepsChildren o then children.added.diagnostics else [] := by
  have hp := ClassifiedAttributes.isSome_payload?_classify o e
  have hc := ClassifiedAttributes.diagnostics_added_pieces (classify (.host o) e.attributes)
  cases hs : e.isSelfClosing with
  | true =>
      simp [assembleHost, diagnostics, keepsChildren, h, hs, hc, hp, Log.append,
        malformedDangerousHtml_classify, Node.isContent_eq_not_isBlank, Bool.or_comm]
  | false =>
      cases hb : e.hasPayload o <;>
        simp [assembleHost, diagnostics, keepsChildren, h, hs, hc, hp, hb, Log.append,
          malformedDangerousHtml_classify, diagnostics_added_content]

theorem diagnostics_added_assemble :
    (e.assemble o children).added.diagnostics =
      e.diagnostics o ++ if e.keepsChildren o then children.added.diagnostics else [] := by
  unfold assemble
  cases h : Tag.kind e.tag with
  | host => exact diagnostics_added_assembleHost o e children h
  | component =>
      simp [assembleComponent, diagnostics, keepsChildren, h, Log.append]
  | unsupported =>
      simp [assembleUnsupported, diagnostics, keepsChildren, h, Log.append]

theorem tag_eq_of_mem_diagnostics {d : Diagnostic} (h : d ∈ e.diagnostics o) : d.tag = e.tag := by
  unfold diagnostics at h
  split at h
  · cases List.mem_singleton.mp h
    rfl
  · cases h
  · rcases List.mem_append.mp h with h | h
    · cases List.mem_singleton.mp (List.mem_ite_nil_right.mp h).2
      rfl
    · cases List.mem_singleton.mp (List.mem_ite_nil_right.mp h).2
      rfl

end Element

section Tree

variable (o : Options)

def liveDiagnostics (ps : List (Placed H)) : List Diagnostic :=
  (ps.filter (·.isLive o)).flatMap (·.element.diagnostics o)

theorem liveDiagnostics_append (ps qs : List (Placed H)) :
    liveDiagnostics o (ps ++ qs) = liveDiagnostics o ps ++ liveDiagnostics o qs := by
  rw [liveDiagnostics, List.filter_append, List.flatMap_append, liveDiagnostics, liveDiagnostics]

theorem liveDiagnostics_cons (p : Placed H) (ps : List (Placed H)) :
    liveDiagnostics o (p :: ps) =
      (if p.isLive o then p.element.diagnostics o else []) ++ liveDiagnostics o ps := by
  cases h : p.isLive o <;> simp [liveDiagnostics, h]

-- Compilation never enters the children that an element drops, while the list of placed elements
-- goes through the whole tree. The statement is about any ancestors, so that it covers both.
mutual

theorem Element.liveDiagnostics_placed : (e : Element H) → (as : List (Element H)) →
    liveDiagnostics o (e.placed as) =
      if as.all (·.keepsChildren o) then (e.compile o).added.diagnostics else []
  | ⟨tag, attributes, children, closed⟩, as => by
      have ih := liveDiagnostics_allPlaced children (⟨tag, attributes, children, closed⟩ :: as)
      rw [Element.placed, liveDiagnostics_cons, ih, Element.compile,
        Element.diagnostics_added_assemble, Placed.isLive, List.all_cons]
      cases as.all (·.keepsChildren o) with
      | false => rw [Bool.and_false]; rfl
      | true => rw [Bool.and_true]; rfl

theorem Node.liveDiagnostics_placed : (n : Node H) → (as : List (Element H)) →
    liveDiagnostics o (n.placed as) =
      if as.all (·.keepsChildren o) then (n.child? o).added.diagnostics else []
  | .element e, as => by
      rw [Node.placed, e.liveDiagnostics_placed as]
      simp [Node.child?]
  | .fragment children, as => by
      rw [Node.placed, liveDiagnostics_allPlaced children as]
      simp [Node.child?, Log.append, Child.diagnostics_added_flattenAll]
  | .text raw, _ => by
      rw [Node.child?]
      exact (ite_self _).symm
  | .expression _, _ => (ite_self _).symm
  | .emptyExpression, _ => (ite_self _).symm

theorem liveDiagnostics_allPlaced : (ns : List (Node H)) → (as : List (Element H)) →
    liveDiagnostics o (Node.allPlaced as ns) =
      if as.all (·.keepsChildren o) then (compileChildren o ns).added.diagnostics else []
  | [], _ => (ite_self _).symm
  | n :: ns, as => by
      rw [Node.allPlaced, liveDiagnostics_append, n.liveDiagnostics_placed as,
        liveDiagnostics_allPlaced ns as]
      cases as.all (·.keepsChildren o) <;> simp [compileChildren, Log.append]

end

theorem Node.diagnostics_added_compile (n : Node H) :
    (n.compile o).added.diagnostics = liveDiagnostics o (n.placed []) := by
  cases n with
  | element e => exact (e.liveDiagnostics_placed o []).symm
  | fragment children =>
      rw [Node.placed, liveDiagnostics_allPlaced o children []]
      simp [Node.compile, fragmentValue, flattenFragment, Log.append,
        Child.diagnostics_added_flattenAll]
  | text raw => rfl
  | expression handle => rfl
  | emptyExpression => rfl

theorem diagnostics_eq_flatMap_liveElements (n : Node H) :
    (compile o n).diagnostics = (n.liveElements o).flatMap (·.diagnostics o) ∧
      ∀ e ∈ n.liveElements o, ∀ d ∈ e.diagnostics o, d.tag = e.tag := by
  refine ⟨?_, ?_⟩
  · have h : (compile o n).diagnostics = liveDiagnostics o (n.placed []) :=
      n.diagnostics_added_compile o
    rw [h, liveDiagnostics, Node.liveElements, List.flatMap_map]
  · intro e _ d hd
    exact e.tag_eq_of_mem_diagnostics o hd

def irregular : Node Unit :=
  .element ⟨"div", [.flag "dangerouslySetInnerHTML"],
    [.element ⟨"Card", [], [.fragment [.element ⟨"br", [], [.expression ()], true⟩]], true⟩,
      .element ⟨"a.b", [], [.element ⟨"c.d", [], [], true⟩], true⟩,
      .element ⟨"hr", [], [.text " \n", .emptyExpression], true⟩], true⟩

theorem diagnostics_eq_flatMap_liveElements_irregular :
    (compile {} irregular).diagnostics.map (fun d => (d.code, d.tag)) =
      [(.malformedDangerousHtml, "div"), (.voidElementChildren, "br"),
        (.unsupportedTagName, "a.b")] ∧
    (irregular.liveElements {}).map (·.tag) = ["div", "Card", "br", "a.b", "hr"] ∧
    ∀ e ∈ irregular.liveElements {}, ∀ d ∈ e.diagnostics {}, d.tag = e.tag := by
  obtain ⟨hd, ht⟩ := diagnostics_eq_flatMap_liveElements {} irregular
  exact ⟨by rw [hd]; rfl, rfl, ht⟩

end Tree

end HtmlTemplate
