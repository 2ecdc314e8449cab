import HtmlTemplate.Proofs.Spread

namespace HtmlTemplate

namespace Text

def references : List (List Char) :=
  ["&amp;".toList, "&lt;".toList, "&gt;".toList, "&quot;".toList, "&#39;".toList]

def unescapeChars : List Char → List Char
  | '&' :: 'a' :: 'm' :: 'p' :: ';' :: cs => '&' :: unescapeChars cs
  | '&' :: 'l' :: 't' :: ';' :: cs => '<' :: unescapeChars cs
  | '&' :: 'g' :: 't' :: ';' :: cs => '>' :: unescapeChars cs
  | '&' :: 'q' :: 'u' :: 'o' :: 't' :: ';' :: cs => '\x22' :: unescapeChars cs
  | '&' :: '#' :: '3' :: '9' :: ';' :: cs => '\x27' :: unescapeChars cs
  | c :: cs => c :: unescapeChars cs
  | [] => []

def unescape (s : String) : String :=
  String.ofList (unescapeChars s.toList)

theorem unescapeChars_cons {c : Char} (h : c ≠ '&') (cs : List Char) :
    unescapeChars (c :: cs) = c :: unescapeChars cs := by
  rw [unescapeChars] <;> (intros; exact h ‹_›)

theorem unescapeChars_entity (c : Char) (k : List Char) :
    unescapeChars (entity c ++ k) = c :: unescapeChars k := by
  by_cases h : c ∈ special
  · simp only [special, List.mem_cons, List.not_mem_nil, or_false] at h
    rcases h with rfl | rfl | rfl | rfl | rfl <;> simp [entity, unescapeChars]
  · have hc : c ≠ '&' := by
      rintro rfl
      exact h List.mem_cons_self
    rw [entity_of_not_mem h, List.singleton_append, unescapeChars_cons hc]

theorem unescapeChars_escapeChars (cs : List Char) : unescapeChars (escapeChars cs) = cs := by
  induction cs with
  | nil => rfl
  | cons c cs ih => rw [escapeChars, List.flatMap_cons, unescapeChars_entity, ← escapeChars, ih]

theorem unescape_escape (s : String) : unescape (escape s) = s := by
  rw [unescape, toList_escape, unescapeChars_escapeChars, String.ofList_toList]

theorem entity_mem_references {c : Char} (h : c ∈ special) : entity c ∈ references := by
  simp only [special, List.mem_cons, List.not_mem_nil, or_false] at h
  rcases h with rfl | rfl | rfl | rfl | rfl <;> decide

theorem ampersand_not_mem_tail : ∀ r ∈ references, '&' ∉ r.tail := by
  decide

theorem mem_references_of_entity {c : Char} {before after : List Char}
    (h : entity c = before ++ '&' :: after) : before = [] ∧ entity c ∈ references := by
  by_cases hc : c ∈ special
  · have hmem := entity_mem_references hc
    have htail := ampersand_not_mem_tail _ hmem
    cases before with
    | nil => exact ⟨rfl, hmem⟩
    | cons b before =>
        rw [h] at htail
        exact absurd (List.mem_append_right before List.mem_cons_self) htail
  · rw [entity_of_not_mem hc, eq_comm, List.append_eq_singleton_iff] at h
    rcases h with ⟨-, h⟩ | ⟨-, h⟩
    · cases h
      exact absurd List.mem_cons_self hc
    · cases h

theorem exists_reference_prefix (cs before after : List Char)
    (h : escapeChars cs = before ++ '&' :: after) : ∃ r ∈ references, r <+: '&' :: after := by
  induction cs generalizing before with
  | nil => simp [escapeChars] at h
  | cons c cs ih =>
      rw [escapeChars, List.flatMap_cons, ← escapeChars, List.append_eq_append_iff] at h
      rcases h with ⟨rest, -, hcs⟩ | ⟨rest, hc, hrest⟩
      · exact ih rest hcs
      · cases rest with
        | nil => exact ih [] hrest.symm
        | cons d rest =>
            cases (List.cons.inj hrest).1
            obtain ⟨rfl, hmem⟩ := mem_references_of_entity hc
            refine ⟨entity c, hmem, escapeChars cs, ?_⟩
            rw [hrest, hc, List.nil_append]

theorem escape_append (s t : String) : escape (s ++ t) = escape s ++ escape t := by
  rw [escape, String.toList_append, escapeChars_append, String.ofList_append, ← escape, ← escape]

end Text

namespace Value

mutual

def leaves : Value → List Value
  | .list items => leavesAll items
  | v => [v]

def leavesAll : List Value → List Value
  | [] => []
  | v :: vs => v.leaves ++ leavesAll vs

end

def isShown : Value → Bool
  | .undefined => false
  | .null => false
  | .bool b => b
  | _ => true

def shownText (vs : List Value) : String :=
  String.join ((vs.filter isShown).map text)

theorem shownText_append (vs ws : List Value) :
    shownText (vs ++ ws) = shownText vs ++ shownText ws := by
  rw [shownText, List.filter_append, List.map_append, String.join_append]
  rfl

theorem shownText_singleton {v : Value} (h : v.isShown = true) : shownText [v] = v.text := by
  rw [shownText, List.filter_cons_of_pos h, List.filter_nil, List.map_singleton, String.join_cons,
    String.join_nil, String.append_empty]

mutual

theorem toHtml_eq_escape : (v : Value) → v.isHtmlFree = true →
    v.toHtml = Text.escape (shownText v.leaves)
  | .undefined, _ => rfl
  | .null, _ => rfl
  | .bool b, _ => by cases b <;> rfl
  | .number x, _ => congrArg Text.escape (shownText_singleton (v := .number x) rfl).symm
  | .string s, _ => congrArg Text.escape (shownText_singleton (v := .string s) rfl).symm
  | .list items, h => by
      rw [toHtml, leaves]
      exact listHtml_eq_escape items (by simpa only [isHtmlFree] using h)
  | .object fields, _ => congrArg Text.escape (shownText_singleton (v := .object fields) rfl).symm

theorem listHtml_eq_escape : (vs : List Value) → allHtmlFree vs = true →
    listHtml vs = Text.escape (shownText (leavesAll vs))
  | [], _ => rfl
  | v :: vs, h => by
      simp only [allHtmlFree, Bool.and_eq_true] at h
      rw [listHtml, leavesAll, shownText_append, Text.escape_append, toHtml_eq_escape v h.1,
        listHtml_eq_escape vs h.2]

end

end Value

open Text

theorem escape_lossless :
    (∀ s : String, marks (escape s) = [] ∧
      (∀ before after, (escape s).toList = before ++ '&' :: after →
        ∃ r ∈ references, r <+: '&' :: after) ∧
      unescape (escape s) = s) ∧
    ∀ v : Value, v.isHtmlFree = true →
      marks v.toHtml = [] ∧ unescape v.toHtml = Value.shownText v.leaves := by
  refine ⟨fun s => ⟨marks_escape s, fun before after h => ?_, unescape_escape s⟩, fun v hv => ?_⟩
  · rw [toList_escape] at h
    exact exists_reference_prefix s.toList before after h
  · refine ⟨Value.marks_toHtml v hv, ?_⟩
    rw [Value.toHtml_eq_escape v hv, unescape_escape]

def quotation : Value :=
  .list [.string "&lt;", .null, .list [.bool true, .bool false, .string "<'&"], .undefined,
    .object [("a", .html "<b>")]]

theorem escape_lossless_quotation :
    (∃ r ∈ references, r <+: "&amp;lt;".toList) ∧
    quotation.isHtmlFree = true ∧
    marks "&amp;lt;true&lt;&#39;&amp;[object Object]" = [] ∧
    unescape "&amp;lt;true&lt;&#39;&amp;[object Object]" = "&lt;true<'&[object Object]" := by
  obtain ⟨hescape, hvalue⟩ := escape_lossless
  have hfree : quotation.isHtmlFree = true := rfl
  obtain ⟨hmarks, hread⟩ := hvalue quotation hfree
  exact ⟨(hescape "&lt;").2.1 [] "amp;lt;".toList rfl, hfree, hmarks, hread⟩

end HtmlTemplate
