import HtmlTemplate.Proofs.Children.Props
import HtmlTemplate.Proofs.Nesting.Render

namespace HtmlTemplate

variable {H : Type}

namespace Text

theorem one_le_length_entity (c : Char) : 1 ≤ (entity c).length := by
  unfold entity
  split_ifs <;> exact Nat.le_add_left 1 _

theorem one_lt_length_entity {c : Char} (h : c ∈ special) : 1 < (entity c).length := by
  simp only [special, List.mem_cons, List.not_mem_nil, or_false] at h
  rcases h with rfl | rfl | rfl | rfl | rfl <;> decide

theorem length_le_length_escapeChars (cs : List Char) : cs.length ≤ (escapeChars cs).length := by
  induction cs with
  | nil => exact Nat.le_refl 0
  | cons c cs ih =>
      have hc := one_le_length_entity c
      rw [escapeChars, List.flatMap_cons, ← escapeChars, List.length_append, List.length_cons]
      omega

theorem length_lt_length_escapeChars {cs : List Char} {c : Char} (hmem : c ∈ cs)
    (hc : c ∈ special) : cs.length < (escapeChars cs).length := by
  obtain ⟨before, after, rfl⟩ := List.append_of_mem hmem
  have hentity := one_lt_length_entity hc
  have hbefore := length_le_length_escapeChars before
  have hafter := length_le_length_escapeChars after
  have hcons : escapeChars (c :: after) = entity c ++ escapeChars after := List.flatMap_cons
  rw [escapeChars_append, hcons]
  simp only [List.length_append, List.length_cons]
  omega

theorem mem_trim {raw : String} {c : Char} (hmem : c ∈ raw.toList) (hc : isBlank c = false) :
    c ∈ (trim raw).toList := by
  have hdrop {cs : List Char} (h : c ∈ cs) : c ∈ cs.dropWhile isBlank := by
    rw [← List.takeWhile_append_dropWhile (p := isBlank) (l := cs), List.mem_append] at h
    refine h.resolve_left fun htake => ?_
    rw [List.mem_takeWhile_imp htake] at hc
    cases hc
  rw [toList_trim, trimChars, List.mem_reverse]
  exact hdrop (List.mem_reverse.mpr (hdrop hmem))

theorem isBlank_of_special {c : Char} (h : c ∈ special) : isBlank c = false := by
  simp only [special, List.mem_cons, List.not_mem_nil, or_false] at h
  rcases h with rfl | rfl | rfl | rfl | rfl <;> rfl

structure Grows (s t : String) (p : Prop) : Prop where
  length_le : s.length ≤ t.length
  eq_iff : s = t ↔ p

namespace Grows

variable {s s' t t' : String} {p p' : Prop}

theorem refl (s : String) (hp : p) : Grows s s p :=
  ⟨Nat.le_refl _, iff_of_true rfl hp⟩

theorem congr (h : Grows s t p) (hp : p ↔ p') : Grows s t p' :=
  ⟨h.length_le, h.eq_iff.trans hp⟩

-- Neither part can make up for a difference in the other, because both only grow.
theorem append (h : Grows s t p) (h' : Grows s' t' p') : Grows (s ++ s') (t ++ t') (p ∧ p') where
  length_le := by
    rw [String.length_append, String.length_append]
    exact Nat.add_le_add h.length_le h'.length_le
  eq_iff := by
    rw [← h.eq_iff, ← h'.eq_iff]
    refine ⟨fun heq => ?_, fun ⟨hs, hs'⟩ => by rw [hs, hs']⟩
    have hlength := congrArg String.length heq
    rw [String.length_append, String.length_append] at hlength
    have hs : s.length = t.length := by
      have := h.length_le
      have := h'.length_le
      omega
    rw [← String.toList_inj, String.toList_append, String.toList_append] at heq
    rw [← String.length_toList, ← String.length_toList] at hs
    obtain ⟨hleft, hright⟩ := List.append_inj heq hs
    exact ⟨String.toList_inj.mp hleft, String.toList_inj.mp hright⟩

theorem escape (s : String) : Grows s (Text.escape s) (∀ c ∈ s.toList, c ∉ special) where
  length_le := by
    rw [← String.length_toList, ← String.length_toList, toList_escape]
    exact length_le_length_escapeChars s.toList
  eq_iff := by
    refine ⟨fun heq c hmem hc => ?_, fun h => (escape_of_forall_not_mem h).symm⟩
    have hlt := length_lt_length_escapeChars hmem hc
    rw [← toList_escape, ← heq] at hlt
    exact Nat.lt_irrefl _ hlt

theorem escape_trim (raw : String) :
    Grows (trim raw) (Text.escape (trim raw)) (∀ c ∈ raw.toList, c ∉ special) := by
  refine (escape (trim raw)).congr ⟨fun h c hmem hc => ?_, fun h c hmem => ?_⟩
  · exact h c (mem_trim hmem (isBlank_of_special hc)) hc
  · exact h c (mem_of_mem_trim hmem)

end Grows

end Text

def Node.isEscapeFree : Node H → Prop
  | .text raw => ∀ c ∈ raw.toList, c ∉ Text.special
  | _ => True

section

variable {o : Options} {s : Scope H}

theorem Node.grows_item {n : Node H} {v? : Option Value} (h : n.argument? o s = .ok v?) :
    ∃ ws, n.item o s = .ok ws ∧
      Text.Grows (Value.listHtml ws) (Value.listHtml v?.toList) n.isEscapeFree := by
  cases n with
  | element e =>
      rw [Node.argument?, bind_eq_ok_iff] at h
      obtain ⟨m, hm, h⟩ := h
      cases h
      refine ⟨[.html m], ?_, .refl _ trivial⟩
      rw [Node.item, hm]
      rfl
  | fragment children =>
      rw [Node.argument?, bind_eq_ok_iff] at h
      obtain ⟨ws, hws, h⟩ := h
      cases h
      refine ⟨ws, ?_, ?_⟩
      · rw [Node.item, hws]
      · rw [Value.listHtml_collect?]
        exact .refl _ trivial
  | text raw =>
      rw [Node.argument?] at h
      obtain rfl := Except.ok.inj h
      have hgrows : Text.Grows (Text.trim raw) (Text.escape (Text.trim raw))
          (Node.isEscapeFree (.text raw : Node H)) := .escape_trim raw
      rw [Node.item]
      refine ⟨_, rfl, ?_⟩
      by_cases hraw : Text.trim raw = ""
      · rw [hraw] at hgrows
        rw [if_pos hraw, if_pos hraw]
        exact hgrows
      · simpa [hraw, Value.listHtml, Value.toHtml] using hgrows
  | expression handle =>
      rw [Node.argument?, bind_eq_ok_iff] at h
      obtain ⟨v, hv, h⟩ := h
      cases h
      refine ⟨[v], ?_, .refl _ trivial⟩
      rw [Node.item, hv]
      rfl
  | emptyExpression =>
      rw [Node.argument?] at h
      cases h
      exact ⟨[], rfl, .refl _ trivial⟩

theorem Node.grows_items {ns : List (Node H)} {vs : List Value}
    (h : Node.arguments o s ns = .ok vs) :
    ∃ ws, Node.items o s ns = .ok ws ∧
      Text.Grows (Value.listHtml ws) (Value.listHtml vs) (∀ n ∈ ns, n.isEscapeFree) := by
  induction ns generalizing vs with
  | nil =>
      cases h
      exact ⟨[], rfl, .refl _ nofun⟩
  | cons n ns ih =>
      simp only [Node.arguments, bind_eq_ok_iff] at h
      obtain ⟨v?, hv, vs, hvs, h⟩ := h
      cases h
      obtain ⟨ws, hws, hgrows⟩ := Node.grows_item hv
      obtain ⟨xs, hxs, hgrows'⟩ := ih hvs
      refine ⟨ws ++ xs, ?_, ?_⟩
      · rw [Node.items, hws, hxs]
        rfl
      · rw [Value.listHtml_append, Value.listHtml_append, List.forall_mem_cons]
        exact hgrows.append hgrows'

theorem forall_isEscapeFree_iff {ns : List (Node H)} :
    (∀ n ∈ ns, n.isEscapeFree) ↔ ∀ raw, .text raw ∈ ns → ∀ c ∈ raw.toList, c ∉ Text.special := by
  refine ⟨fun h raw hraw => h (.text raw) hraw, fun h n hn => ?_⟩
  cases n with
  | text raw => exact h raw hn
  | _ => trivial

theorem toHtml_get_children (fs : Fields Value) (vs : List Value) :
    ((Value.object (fs.withChildren (Value.collect? vs))).get "children").toHtml =
      if vs.isEmpty then ((Value.object fs).get "children").toHtml else Value.listHtml vs := by
  rw [← Value.isEmpty_collect?]
  cases hbody : Value.collect? vs with
  | none => rfl
  | some body =>
      rw [Fields.withChildren, Value.get, Fields.get?_insert, if_pos rfl, Option.getD_some,
        Value.toHtml_of_collect? hbody]
      rfl

end

theorem toHtml_children_wrapped_iff (o : Options) (s : Scope H) (e : Element H)
    (htag : Tag.kind e.tag = .component) :
    ∃ props wrapped : ObjectLiteral H,
      (compile o (.element e)).output = .ofPieces [.expression (.call e.tag props)] ∧
      (compile o (.element { e with children := [.fragment e.children] })).output =
        .ofPieces [.expression (.call e.tag wrapped)] ∧
      ∀ fields, props.evaluate s = .ok fields → ∃ fields', wrapped.evaluate s = .ok fields' ∧
        (((Value.object fields').get "children").toHtml =
            ((Value.object fields).get "children").toHtml ↔
          ∀ raw, .text raw ∈ e.children → ∀ c ∈ raw.toList, c ∉ Text.special) := by
  refine ⟨e.props o, Element.props o { e with children := [.fragment e.children] },
    e.output_compile_of_component o htag,
    Element.output_compile_of_component o { e with children := [.fragment e.children] } htag,
    fun fields hfields => ?_⟩
  obtain ⟨ps, vs, hps, hvs, rfl⟩ := (e.evaluate_props_eq_ok_iff o s).mp hfields
  obtain ⟨ws, hws, hgrows⟩ := Node.grows_items hvs
  have hwrapped : Node.arguments o s [.fragment e.children] = .ok (Value.collect? ws).toList := by
    simp only [Node.arguments, Node.argument?, hws]
    exact congrArg Except.ok (List.append_nil _)
  have hempty : ws.isEmpty = vs.isEmpty := by
    rw [Node.yields_isEmpty_items o s e.children ws hws,
      Node.yields_isEmpty_arguments o s e.children vs hvs]
  refine ⟨_, (Element.evaluate_props_eq_ok_iff o s _).mpr ⟨ps, _, hps, hwrapped, rfl⟩, ?_⟩
  rw [toHtml_get_children, toHtml_get_children, Value.listHtml_collect?, Value.isEmpty_collect?,
    hempty, ← forall_isEscapeFree_iff, ← hgrows.eq_iff]
  cases hvacant : vs.isEmpty with
  | true =>
      rw [List.isEmpty_iff.mp hvacant, List.isEmpty_iff.mp (hempty.trans hvacant)]
      exact iff_of_true rfl rfl
  | false => rfl

def plainCard : Element String :=
  ⟨"Card", [.text "children" "old"], [.text " a b ", .expression "x", .fragment [.text "c&d"]],
    true⟩

theorem toHtml_children_wrapped_iff_plain :
    ∃ (props wrapped : ObjectLiteral String) (fields fields' : Fields Value),
      (compile {} (.element plainCard)).output = .ofPieces [.expression (.call "Card" props)] ∧
      (compile {} (.element { plainCard with children := [.fragment plainCard.children] })).output =
        .ofPieces [.expression (.call "Card" wrapped)] ∧
      props.evaluate passing = .ok fields ∧ wrapped.evaluate passing = .ok fields' ∧
      ((Value.object fields').get "children").toHtml =
        ((Value.object fields).get "children").toHtml := by
  obtain ⟨props, wrapped, hprops, hwrapped, h⟩ :=
    toHtml_children_wrapped_iff {} passing plainCard rfl
  obtain rfl := Template.eq_of_ofPieces_call
    ((plainCard.output_compile_of_component {} rfl).symm.trans hprops)
  obtain ⟨fields', hfields', hiff⟩ := h _ rfl
  refine ⟨_, wrapped, _, fields', hprops, hwrapped, rfl, hfields', hiff.mpr fun raw hraw => ?_⟩
  obtain rfl : raw = " a b " := by simpa [plainCard] using hraw
  simp [Text.special]

theorem toHtml_children_wrapped_ne :
    ∃ (props wrapped : ObjectLiteral String) (fields fields' : Fields Value),
      (compile {} (.element ⟨"Card", [], [.text "a&b"], true⟩)).output =
        .ofPieces [.expression (.call "Card" props)] ∧
      (compile {} (.element ⟨"Card", [], [.fragment [.text "a&b"]], true⟩)).output =
        .ofPieces [.expression (.call "Card" wrapped)] ∧
      props.evaluate passing = .ok fields ∧ wrapped.evaluate passing = .ok fields' ∧
      ((Value.object fields).get "children").toHtml = "a&amp;b" ∧
      ((Value.object fields').get "children").toHtml ≠
        ((Value.object fields).get "children").toHtml := by
  refine ⟨_, _, _, _, rfl, rfl, rfl, rfl, rfl, ?_⟩
  change "a&b" ≠ "a&amp;b"
  decide

end HtmlTemplate
