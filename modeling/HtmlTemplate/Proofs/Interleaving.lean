import HtmlTemplate.Proofs.Interpretation.Compile

namespace HtmlTemplate

variable {H α β : Type}

theorem filterMap_eq_of_filter_eq {p : α → Bool} {f : α → Option β} {as bs : List α}
    (hf : ∀ a, p a = false → f a = none) (h : as.filter p = bs.filter p) :
    as.filterMap f = bs.filterMap f := by
  have hfilter (l : List α) : (l.filter p).filterMap f = l.filterMap f := by
    rw [List.filterMap_filter]
    congr 1
    funext a
    cases hp : p a with
    | true => rfl
    | false => exact (hf a hp).symm
  rw [← hfilter as, h, hfilter bs]

namespace ClassifiedAttributes

variable {as bs : List (Attribute H)} (r : AttributeRules)

section Named

variable (hnamed : as.filter (fun a => !a.isSpread) = bs.filter (fun a => !a.isSpread))
include hnamed

theorem filterMap_classify_of_named {f : ClassifiedAttribute H → Option β}
    (hf : ∀ handle, f (.spread handle) = none) :
    (classify r as).attributes.filterMap f = (classify r bs).attributes.filterMap f := by
  simp only [classify, List.filterMap_filterMap]
  refine filterMap_eq_of_filter_eq ?_ hnamed
  rintro (⟨name, value?⟩ | handle) ha
  · cases ha
  · exact hf handle

theorem payload?_classify_of_named : (classify r as).payload? = (classify r bs).payload? := by
  rw [payload?, payload?, filterMap_classify_of_named r hnamed fun _ => rfl]

theorem malformedDangerousHtml_classify_of_named :
    (classify r as).malformedDangerousHtml = (classify r bs).malformedDangerousHtml := by
  have hany (l : List (Attribute H)) : (classify r l).malformedDangerousHtml =
      (l.filter (fun a => !a.isSpread)).any fun a => (a.verdict r).isMalformed := by
    rw [List.any_filter]
    change (l.any fun a => (a.verdict r).isMalformed) = _
    congr 1
    funext a
    cases a with
    | named name value? => rfl
    | spread handle => rfl
  rw [hany, hany, hnamed]

end Named

section Spreads

variable (hspreads : as.filter (·.isSpread) = bs.filter (·.isSpread))
include hspreads

theorem filterMap_spread?_classify :
    (classify r as).attributes.filterMap (·.spread?) =
      (classify r bs).attributes.filterMap (·.spread?) := by
  simp only [classify, List.filterMap_filterMap]
  refine filterMap_eq_of_filter_eq ?_ hspreads
  rintro (⟨name, value?⟩ | handle) ha
  · exact Attribute.spread?_named r name value?
  · cases ha

omit hspreads in
theorem hasSpread_classify_of_ne_nil (hne : as.filter (·.isSpread) ≠ []) :
    (classify r as).hasSpread = true := by
  obtain ⟨a, ha⟩ := List.exists_mem_of_ne_nil _ hne
  obtain ⟨hmem, hspread⟩ := List.mem_filter.mp ha
  rw [hasSpread_classify]
  exact List.any_eq_true.mpr ⟨a, hmem, hspread⟩

theorem pieces_classify_of_spreads (hne : as.filter (·.isSpread) ≠ [])
    (hnamed : as.filter (fun a => !a.isSpread) = bs.filter (fun a => !a.isSpread)) :
    (classify r as).pieces = (classify r bs).pieces := by
  have hmerged : (classify r as).merged = (classify r bs).merged := by
    rw [merged, merged, filterMap_classify_of_named r hnamed fun _ => rfl,
      filterMap_spread?_classify r hspreads]
  have has := hasSpread_classify_of_ne_nil r hne
  have hbs := hasSpread_classify_of_ne_nil r (hspreads ▸ hne)
  rw [pieces, pieces, if_pos has, if_pos hbs, hmerged]

end Spreads

end ClassifiedAttributes

theorem compile_interleaved (o : Options) (tag : String) (as bs : List (Attribute H))
    (children : List (Node H)) (closed : Bool) (htag : Tag.kind tag = .host)
    (hnamed : as.filter (fun a => !a.isSpread) = bs.filter (fun a => !a.isSpread))
    (hspreads : as.filter (·.isSpread) = bs.filter (·.isSpread))
    (hne : as.filter (·.isSpread) ≠ []) :
    compile o (.element ⟨tag, as, children, closed⟩) =
      compile o (.element ⟨tag, bs, children, closed⟩) := by
  have hself : Element.isSelfClosing ⟨tag, as, children, closed⟩ =
      Element.isSelfClosing ⟨tag, bs, children, closed⟩ := rfl
  simp only [compile, Node.compile, Element.compile, Element.assemble, htag, Element.assembleHost,
    hself, ClassifiedAttributes.pieces_classify_of_spreads (.host o) hspreads hne hnamed,
    ClassifiedAttributes.payload?_classify_of_named (.host o) hnamed,
    ClassifiedAttributes.malformedDangerousHtml_classify_of_named (.host o) hnamed]

def spreadsLast : List (Attribute String) :=
  [.text "className" "wide", .text "title" "a", .flag "dangerouslySetInnerHTML", .spread "rest",
    .spread "more"]

def spreadsBetween : List (Attribute String) :=
  [.spread "rest", .text "className" "wide", .spread "more", .text "title" "a",
    .flag "dangerouslySetInnerHTML"]

theorem compile_interleaved_last_between :
    spreadsLast.filter (·.isSpread) ≠ [] ∧
    compile {} (.element ⟨"p", spreadsLast, [.text "x"], true⟩) =
      compile {} (.element ⟨"p", spreadsBetween, [.text "x"], true⟩) :=
  ⟨nofun, compile_interleaved {} "p" spreadsLast spreadsBetween [.text "x"] true rfl rfl rfl nofun⟩

end HtmlTemplate
