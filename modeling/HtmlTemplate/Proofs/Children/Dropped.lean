import HtmlTemplate.Proofs.Builder
import HtmlTemplate.Proofs.Children.Props

namespace HtmlTemplate

open Segment (Silent)

variable {H : Type}

section Emission

variable (o : Options)

theorem Child.silent_pieces_fragment_iff (items : List (Term H)) :
    Silent ((Child.fragment items).pieces o) ↔ items = [] := by
  rcases items with _ | ⟨t, _ | ⟨u, items⟩⟩
  · exact iff_of_true .nil rfl
  · exact iff_of_false (Silent.not_expression t []) (List.cons_ne_nil _ _)
  · refine iff_of_false (fun h => ?_) (List.cons_ne_nil _ _)
    have hterm := ((Silent.append_iff [.literal o.fragmentStartMarker] _).mp h).2
    exact Silent.not_expression _ _ hterm

theorem Child.text?_of_blank {raw : String} (h : raw.toList.all Text.isBlank = true) :
    (Child.text? raw : Option (Child H)) = none := by
  rw [← Text.decide_trim_eq_empty, decide_eq_true_iff] at h
  rw [Child.text?, if_pos h]

theorem Child.text?_of_not_blank {raw : String} (h : raw.toList.all Text.isBlank = false) :
    (Child.text? raw : Option (Child H)) = some (.text (Text.trim raw)) ∧ Text.trim raw ≠ "" := by
  rw [← Text.decide_trim_eq_empty, decide_eq_false_iff_not] at h
  exact ⟨if_neg h, h⟩

mutual

theorem Node.items_child?_eq_nil_iff : (n : Node H) →
    ((n.child? o).output.toList.flatMap (·.items) = [] ↔ n.isVacant = true)
  | .element e => by simp [Child.items, Node.isVacant]
  | .fragment children => by
      have ih := items_compileChildren_eq_nil_iff children
      simpa [Child.items, Node.isVacant] using ih
  | .text raw => by
      rw [Node.output_child?_text, Node.isVacant]
      cases h : raw.toList.all Text.isBlank with
      | true => simp [Child.text?_of_blank h]
      | false => simp [(Child.text?_of_not_blank h).1, Child.items]
  | .expression handle => by simp [Child.items, Node.isVacant]
  | .emptyExpression => by simp [Node.isVacant]

theorem items_compileChildren_eq_nil_iff : (ns : List (Node H)) →
    ((compileChildren o ns).output.flatMap (·.items) = [] ↔ Node.allVacant ns = true)
  | [] => by simp [Node.allVacant]
  | n :: ns => by
      rw [output_compileChildren_cons, List.flatMap_append, List.append_eq_nil_iff,
        n.items_child?_eq_nil_iff, items_compileChildren_eq_nil_iff ns, Node.allVacant,
        Bool.and_eq_true]

end

theorem Node.silent_pieces_child?_iff (n : Node H) :
    Silent ((n.child? o).output.toList.flatMap (·.pieces o)) ↔ n.isVacant = true := by
  cases n with
  | element e =>
      have hpieces : ((Node.child? o (.element e)).output.toList.flatMap (·.pieces o)) =
          [.expression (.template (e.compile o).output)] := by
        simp [Child.pieces]
      rw [hpieces]
      exact iff_of_false (Silent.not_expression _ []) Bool.false_ne_true
  | fragment children =>
      have h := items_compileChildren_eq_nil_iff o children
      rw [Node.output_child?_fragment, Option.toList_some, List.flatMap_singleton,
        Child.silent_pieces_fragment_iff, h, Node.isVacant]
  | text raw =>
      rw [Node.output_child?_text, Node.isVacant]
      cases h : raw.toList.all Text.isBlank with
      | true =>
          rw [Child.text?_of_blank h]
          exact iff_of_true .nil rfl
      | false =>
          obtain ⟨htext, hne⟩ := Child.text?_of_not_blank (H := H) h
          rw [htext, Option.toList_some, List.flatMap_singleton, Child.pieces, Silent.literal_iff]
          exact iff_of_false hne Bool.false_ne_true
  | expression handle =>
      exact iff_of_false (Silent.not_expression _ []) Bool.false_ne_true
  | emptyExpression => exact iff_of_true .nil rfl

theorem silent_pieces_compileChildren_iff (ns : List (Node H)) :
    Silent ((compileChildren o ns).output.flatMap (·.pieces o)) ↔ Node.allVacant ns = true := by
  induction ns with
  | nil => exact iff_of_true .nil rfl
  | cons n ns ih =>
      rw [output_compileChildren_cons, List.flatMap_append, Silent.append_iff,
        n.silent_pieces_child?_iff, ih, Node.allVacant, Bool.and_eq_true]

end Emission

section Report

variable (o : Options)

def Element.divOf (children : List (Node H)) : Element H :=
  ⟨"div", [], children, true⟩

def Element.LosesContent (e : Element H) : Prop :=
  (HtmlTemplate.compile o (.element (divOf e.children))).output ≠
    (HtmlTemplate.compile o (.element (divOf []))).output

def Element.ReportsDropped (e : Element H) : Prop :=
  ∃ d ∈ (HtmlTemplate.compile o (.element e)).diagnostics,
    d.code = .voidElementChildren ∧ d.tag = e.tag

theorem Element.output_compile_divOf (children : List (Node H)) :
    (HtmlTemplate.compile o (.element (divOf children))).output =
      .ofPieces ([.literal "<div", .literal ">"] ++
        (compileChildren o children).output.flatMap (·.pieces o) ++ [.literal "</div>"]) := by
  have htag : Tag.kind "div" = .host := rfl
  have hself : Element.isSelfClosing ⟨"div", [], children, true⟩ = false := by
    have hvoid : Tag.isVoid "div" = false := by decide
    rw [isSelfClosing, hvoid]
    rfl
  have hpieces : (classify (.host o) ([] : List (Attribute H))).pieces.output = [] := rfl
  have hpayload : (classify (.host o) ([] : List (Attribute H))).payload? = none := rfl
  change ((divOf children).compile o).output = _
  simp only [divOf, Element.compile, Element.assemble, htag, output_assembleHost, hself, hpieces,
    hpayload, output_content]
  rfl

theorem Element.losesContent_iff (e : Element H) :
    e.LosesContent o ↔ Node.allVacant e.children = false := by
  rw [LosesContent, output_compile_divOf, output_compile_divOf, output_compileChildren_nil,
    List.flatMap_nil, List.append_nil, ne_eq, Template.ofPieces_insert_eq_iff,
    silent_pieces_compileChildren_iff, Bool.not_eq_true]

theorem Element.diagnostics_compile_of_isSelfClosing {e : Element H}
    (htag : Tag.kind e.tag = .host) (hself : e.isSelfClosing = true) :
    (HtmlTemplate.compile o (.element e)).diagnostics = e.diagnostics o := by
  change (e.compile o).added.diagnostics = _
  have hdrops : e.keepsChildren o = false := by simp [keepsChildren, htag, hself]
  obtain ⟨tag, attributes, children, closed⟩ := e
  rw [Element.compile, diagnostics_added_assemble, hdrops]
  exact List.append_nil _

theorem Element.reportsDropped_iff {e : Element H} (htag : Tag.kind e.tag = .host)
    (hself : e.isSelfClosing = true) (hpayload : e.hasPayload o = false) :
    e.ReportsDropped o ↔ e.children.any (·.isContent) = true := by
  have hcontent : (e.children.any fun n => !n.isBlank) = e.children.any (·.isContent) := by
    simp only [Node.isContent_eq_not_isBlank]
  have hdiagnostics : e.diagnostics o =
      (if e.attributes.any fun a => a.isDangerous o && (a.payload? o).isNone then
        [.malformedDangerousHtml e.tag o.dangerousHtmlAttribute o.dangerousHtmlKey]
      else []) ++ if e.children.any (·.isContent) then [.droppedChildren e.tag] else [] := by
    simp only [diagnostics, htag, hself, hpayload, hcontent, Bool.true_and, Bool.false_or]
  rw [ReportsDropped, diagnostics_compile_of_isSelfClosing o htag hself, hdiagnostics]
  constructor
  · rintro ⟨d, hd, hcode, -⟩
    rcases List.mem_append.mp hd with hd | hd
    · cases List.mem_singleton.mp (List.mem_ite_nil_right.mp hd).2
      cases hcode
    · exact (List.mem_ite_nil_right.mp hd).1
  · intro h
    rw [if_pos h]
    exact ⟨.droppedChildren e.tag, List.mem_append_right _ (List.mem_singleton_self _), rfl, rfl⟩

end Report

theorem Node.allVacant_iff (ns : List (Node H)) :
    Node.allVacant ns = true ↔ ∀ n ∈ ns, n.isVacant = true := by
  induction ns with
  | nil => exact iff_of_true rfl nofun
  | cons n ns ih => rw [Node.allVacant, Bool.and_eq_true, ih, List.forall_mem_cons]

-- Only for a fragment do the check and the emission of its content part ways.
theorem Node.isContent_eq_not_isVacant {n : Node H} (h : ∀ children, n ≠ .fragment children) :
    n.isContent = !n.isVacant := by
  rw [Node.isContent_eq_not_isBlank]
  cases n with
  | fragment children => exact absurd rfl (h children)
  | _ => rfl

theorem Node.isContent_of_not_isVacant {n : Node H} (h : n.isVacant = false) :
    n.isContent = true := by
  rw [Node.isContent_eq_not_isBlank]
  cases n with
  | fragment children => rfl
  | _ => exact congrArg not h

theorem reportsDropped_iff_losesContent_iff (o : Options) (e : Element H)
    (htag : Tag.kind e.tag = .host) (hself : e.isSelfClosing = true)
    (hpayload : e.hasPayload o = false) :
    (e.ReportsDropped o ↔ e.children.any (·.isContent) = true) ∧
    (e.LosesContent o ↔ Node.allVacant e.children = false) ∧
    (e.LosesContent o → e.ReportsDropped o) ∧
    ((e.ReportsDropped o ↔ e.LosesContent o) ↔
      (Node.allVacant e.children = true → ∀ children, .fragment children ∉ e.children)) := by
  have hreports := Element.reportsDropped_iff o htag hself hpayload
  have hloses := e.losesContent_iff o
  have hsound : e.LosesContent o → e.ReportsDropped o := by
    intro h
    have hvacant : ¬ ∀ n ∈ e.children, n.isVacant = true := by
      rw [← Node.allVacant_iff, hloses.mp h]
      exact Bool.false_ne_true
    push Not at hvacant
    obtain ⟨n, hn, hv⟩ := hvacant
    rw [hreports, List.any_eq_true]
    exact ⟨n, hn, Node.isContent_of_not_isVacant (Bool.eq_false_iff.mpr hv)⟩
  refine ⟨hreports, hloses, hsound, ?exact⟩
  case exact =>
    constructor
    · intro hiff hvacant children hmem
      have hlost : e.LosesContent o :=
        hiff.mp (hreports.mpr (List.any_eq_true.mpr ⟨_, hmem, rfl⟩))
      rw [hloses, hvacant] at hlost
      cases hlost
    · intro hfragments
      refine ⟨fun hreported => ?_, hsound⟩
      obtain ⟨n, hn, hcontent⟩ := List.any_eq_true.mp (hreports.mp hreported)
      rw [hloses, Bool.eq_false_iff]
      intro hvacant
      have hn' : ∀ children, n ≠ .fragment children := by
        rintro children rfl
        exact hfragments hvacant children hn
      rw [Node.isContent_eq_not_isVacant hn', (Node.allVacant_iff _).mp hvacant n hn] at hcontent
      cases hcontent

def filledBreak : Element Unit :=
  ⟨"br", [.text "className" "wide"], [.text " ", .fragment [.fragment [], .text "a"]], true⟩

theorem reportsDropped_iff_losesContent_iff_filledBreak :
    Tag.kind filledBreak.tag = .host ∧ filledBreak.isSelfClosing = true ∧
    filledBreak.hasPayload {} = false ∧
    filledBreak.ReportsDropped {} ∧ filledBreak.LosesContent {} := by
  have hself : filledBreak.isSelfClosing = true := by decide
  obtain ⟨hreports, -, -, hiff⟩ :=
    reportsDropped_iff_losesContent_iff {} filledBreak rfl hself rfl
  have hreported : filledBreak.ReportsDropped {} := hreports.mpr rfl
  exact ⟨rfl, hself, rfl, hreported, (hiff.mpr nofun).mp hreported⟩

def hollowBreak : Element Unit :=
  ⟨"br", [], [.fragment []], true⟩

theorem hollowBreak_reported_not_lost :
    Tag.kind hollowBreak.tag = .host ∧ hollowBreak.isSelfClosing = true ∧
    hollowBreak.hasPayload {} = false ∧
    (compile {} (.element hollowBreak)).diagnostics = [.droppedChildren "br"] ∧
    hollowBreak.ReportsDropped {} ∧ ¬ hollowBreak.LosesContent {} := by
  refine ⟨rfl, by decide, rfl, rfl, ⟨_, List.mem_singleton_self _, rfl, rfl⟩, ?_⟩
  exact not_not_intro rfl

end HtmlTemplate
