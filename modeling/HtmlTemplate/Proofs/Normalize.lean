import HtmlTemplate.Proofs.Diagnostics

namespace HtmlTemplate

open CompileM

variable {H : Type}

namespace Text

theorem dropWhile_eq_self_of_prefix {cs ds : List Char}
    (h : ds <+: cs.dropWhile isBlank) : ds.dropWhile isBlank = ds := by
  cases ds with
  | nil => rfl
  | cons d ds =>
      obtain ⟨rest, hrest⟩ := h
      have hhead := List.head?_dropWhile_not isBlank cs
      rw [← hrest] at hhead
      exact List.dropWhile_cons_of_neg (Bool.eq_false_iff.mp hhead)

theorem trim_trim (s : String) : trim (trim s) = trim s := by
  have hpre : trimChars s.toList <+: s.toList.dropWhile isBlank := by
    have hsuf := List.dropWhile_suffix isBlank (l := (s.toList.dropWhile isBlank).reverse)
    simpa only [trimChars, List.reverse_reverse] using List.reverse_prefix.mpr hsuf
  have hfirst := dropWhile_eq_self_of_prefix hpre
  have hlast : (trimChars s.toList).reverse.dropWhile isBlank = (trimChars s.toList).reverse := by
    rw [trimChars, List.reverse_reverse]
    exact dropWhile_eq_self_of_prefix List.prefix_rfl
  rw [← String.toList_inj, toList_trim, toList_trim, trimChars, hfirst, hlast, List.reverse_reverse]

end Text

section

variable (o : Options)

/-- An injection of markup that is false is still reported as malformed, so it is no noise. -/
def Attribute.isNoise : Attribute H → Bool
  | .named name (some (.expression (.bool false))) => name ≠ o.dangerousHtmlAttribute
  | _ => false

mutual

def Node.normalize : Node H → Node H
  | .element e => .element e.normalize
  | .fragment children => .fragment (Node.normalizeAll children)
  | .text raw => .text (Text.trim raw)
  | .expression handle => .expression handle
  | .emptyExpression => .emptyExpression

def Element.normalize : Element H → Element H
  | ⟨tag, attributes, children, closed⟩ =>
      ⟨tag, attributes.filter fun a => !a.isNoise o, Node.normalizeAll children, closed⟩

def Node.normalizeAll : List (Node H) → List (Node H)
  | [] => []
  | n :: ns => if n.isBlank then Node.normalizeAll ns else n.normalize :: Node.normalizeAll ns

end

mutual

def Node.isNormal : Node H → Bool
  | .element e => e.isNormal
  | .fragment children => Node.allNormal children
  | .text raw => Text.trim raw = raw
  | .expression _ => true
  | .emptyExpression => true

def Element.isNormal : Element H → Bool
  | ⟨_, attributes, children, _⟩ =>
      attributes.all (fun a => !a.isNoise o) && Node.allNormal children

def Node.allNormal : List (Node H) → Bool
  | [] => true
  | n :: ns => !n.isBlank && n.isNormal && Node.allNormal ns

end

end

section Attributes

variable (o : Options)

theorem Attribute.verdict_of_isNoise {r : AttributeRules} {a : Attribute H}
    (hr : ∀ name, name ≠ o.dangerousHtmlAttribute → r.payloadKey? name = none)
    (h : a.isNoise o = true) : a.verdict r = .dropped := by
  unfold isNoise at h
  split at h
  · rename_i name
    have hkey := hr name (of_decide_eq_true h)
    simp only [verdict, hkey]
    rfl
  · cases h

theorem classify_filter_isNoise {r : AttributeRules}
    (hr : ∀ name, name ≠ o.dangerousHtmlAttribute → r.payloadKey? name = none)
    (as : List (Attribute H)) :
    classify r (as.filter fun a => !a.isNoise o) = classify r as := by
  have hkept : (as.filter fun a => !a.isNoise o).filterMap (fun a => (a.verdict r).kept?) =
      as.filterMap fun a => (a.verdict r).kept? := by
    rw [List.filterMap_filter]
    congr 1
    funext a
    cases h : a.isNoise o with
    | true => rw [Attribute.verdict_of_isNoise o hr h]; rfl
    | false => rfl
  have hmalformed : (as.filter fun a => !a.isNoise o).any (fun a => (a.verdict r).isMalformed) =
      as.any fun a => (a.verdict r).isMalformed := by
    rw [List.any_filter]
    congr 1
    funext a
    cases h : a.isNoise o with
    | true => rw [Attribute.verdict_of_isNoise o hr h]; rfl
    | false => rfl
  rw [classify, classify, hkept, hmalformed]

theorem classify_host_filter_isNoise (as : List (Attribute H)) :
    classify (.host o) (as.filter fun a => !a.isNoise o) = classify (.host o) as := by
  refine classify_filter_isNoise o ?_ as
  intro name hname
  simp [AttributeRules.payloadKey?, AttributeRules.host, hname]

theorem classify_component_filter_isNoise (as : List (Attribute H)) :
    classify (.component o) (as.filter fun a => !a.isNoise o) = classify (.component o) as := by
  refine classify_filter_isNoise o ?_ as
  intro name _
  rfl

end Attributes

section Children

variable (o : Options)

theorem Node.child?_of_isBlank {n : Node H} (h : n.isBlank = true) : n.child? o = pure none := by
  cases n with
  | text raw =>
      have htrim : Text.trim raw = "" :=
        (Text.trim_eq_empty_iff raw).mpr (List.all_eq_true.mp h)
      rw [Node.child?, Child.text?, if_pos htrim]
  | emptyExpression => rfl
  | element e => cases h
  | fragment children => cases h
  | expression handle => cases h

theorem Node.isBlank_normalize (n : Node H) : (n.normalize o).isBlank = n.isBlank := by
  have hcontent : (n.normalize o).isContent = n.isContent := by
    cases n with
    | text raw => simp only [Node.normalize, Node.isContent, Text.trim_trim]
    | element e => rfl
    | fragment children => rfl
    | expression handle => rfl
    | emptyExpression => rfl
  rw [Node.isContent_eq_not_isBlank, Node.isContent_eq_not_isBlank] at hcontent
  exact Bool.not_inj hcontent

theorem any_isContent_normalizeAll (ns : List (Node H)) :
    (Node.normalizeAll o ns).any (·.isContent) = ns.any (·.isContent) := by
  induction ns with
  | nil => rfl
  | cons n ns ih =>
      have hn := n.isContent_eq_not_isBlank
      have hm := (n.normalize o).isContent_eq_not_isBlank
      rw [Node.isBlank_normalize] at hm
      cases hb : n.isBlank <;> simp [Node.normalizeAll, hb, ih, hn, hm]

end Children

mutual

theorem Element.compile_normalize (o : Options) : (e : Element H) →
    (e.normalize o).compile o = e.compile o
  | ⟨tag, attributes, children, closed⟩ => by
      rw [Element.normalize, Element.compile, Element.compile,
        compileChildren_normalizeAll o children]
      exact Element.assemble_congr o _ rfl rfl (classify_host_filter_isNoise o attributes)
        (classify_component_filter_isNoise o attributes) (any_isContent_normalizeAll o children)

theorem Node.child?_normalize (o : Options) : (n : Node H) →
    (n.normalize o).child? o = n.child? o
  | .element e => by rw [Node.normalize, Node.child?, Node.child?, e.compile_normalize o]
  | .fragment children => by
      rw [Node.normalize, Node.child?, Node.child?, compileChildren_normalizeAll o children]
  | .text raw => by
      rw [Node.normalize, Node.child?, Node.child?, Child.text?, Child.text?, Text.trim_trim]
  | .expression _ => rfl
  | .emptyExpression => rfl

theorem compileChildren_normalizeAll (o : Options) : (ns : List (Node H)) →
    compileChildren o (Node.normalizeAll o ns) = compileChildren o ns
  | [] => rfl
  | n :: ns => by
      have ih := compileChildren_normalizeAll o ns
      cases hb : n.isBlank with
      | true =>
          rw [Node.normalizeAll, if_pos hb, ih, compileChildren, Node.child?_of_isBlank o hb]
          simp
      | false =>
          rw [Node.normalizeAll, hb, if_neg Bool.false_ne_true, compileChildren, compileChildren,
            ih, n.child?_normalize o]

end

mutual

theorem Element.isNormal_normalize (o : Options) : (e : Element H) →
    (e.normalize o).isNormal o = true
  | ⟨tag, attributes, children, closed⟩ => by
      have hattributes : (attributes.filter fun a => !a.isNoise o).all (fun a => !a.isNoise o) :=
        List.all_eq_true.mpr fun a ha => (List.mem_filter.mp ha).2
      rw [Element.normalize, Element.isNormal, hattributes, Node.allNormal_normalizeAll o children]
      rfl

theorem Node.isNormal_normalize (o : Options) : (n : Node H) → (n.normalize o).isNormal o = true
  | .element e => by rw [Node.normalize, Node.isNormal, e.isNormal_normalize o]
  | .fragment children => by
      rw [Node.normalize, Node.isNormal, Node.allNormal_normalizeAll o children]
  | .text raw => by
      rw [Node.normalize, Node.isNormal]
      exact decide_eq_true (Text.trim_trim raw)
  | .expression _ => rfl
  | .emptyExpression => rfl

theorem Node.allNormal_normalizeAll (o : Options) : (ns : List (Node H)) →
    Node.allNormal o (Node.normalizeAll o ns) = true
  | [] => rfl
  | n :: ns => by
      have ih := Node.allNormal_normalizeAll o ns
      cases hb : n.isBlank with
      | true => rw [Node.normalizeAll, if_pos hb, ih]
      | false =>
          rw [Node.normalizeAll, hb, if_neg Bool.false_ne_true, Node.allNormal,
            Node.isBlank_normalize, hb, n.isNormal_normalize o, ih]
          rfl

end

theorem Node.compile_normalize (o : Options) (n : Node H) :
    (n.normalize o).compile o = n.compile o := by
  cases n with
  | element e => exact e.compile_normalize o
  | fragment children =>
      rw [Node.normalize, Node.compile, Node.compile, fragmentValue, fragmentValue, flattenFragment,
        flattenFragment, compileChildren_normalizeAll]
  | text raw => rw [Node.normalize, Node.compile, Node.compile, Text.trim_trim]
  | expression handle => rfl
  | emptyExpression => rfl

theorem compile_normalize_eq (o : Options) (n : Node H) :
    compile o (n.normalize o) = compile o n ∧ (n.normalize o).isNormal o = true := by
  have h := n.compile_normalize o
  refine ⟨?_, n.isNormal_normalize o⟩
  rw [compile, compile, h]

end HtmlTemplate
