import HtmlTemplate.Proofs.Noninterference

namespace HtmlTemplate

variable {H α β : Type}

theorem Yields.bind_congr {x : Except RenderError α} {f g : α → Except RenderError β}
    {P : α → Prop} (hx : Yields x P) (h : ∀ a, P a → f a = g a) : x >>= f = x >>= g := by
  cases x with
  | error e => rfl
  | ok a => exact h a (hx a rfl)

namespace Text

def special : List Char :=
  ['&', '<', '>', '\x22', '\x27']

theorem entity_of_not_mem {c : Char} (h : c ∉ special) : entity c = [c] := by
  simp only [special, List.mem_cons, List.not_mem_nil, or_false, not_or] at h
  obtain ⟨ha, hl, hg, hq, hs⟩ := h
  rw [entity, if_neg ha, if_neg hl, if_neg hg, if_neg hq, if_neg hs]

theorem escapeChars_of_forall_not_mem {cs : List Char} (h : ∀ c ∈ cs, c ∉ special) :
    escapeChars cs = cs := by
  induction cs with
  | nil => rfl
  | cons c cs ih =>
      rw [List.forall_mem_cons] at h
      rw [escapeChars, List.flatMap_cons, entity_of_not_mem h.1, ← escapeChars, ih h.2,
        List.singleton_append]

theorem escape_of_forall_not_mem {s : String} (h : ∀ c ∈ s.toList, c ∉ special) :
    escape s = s := by
  rw [escape, escapeChars_of_forall_not_mem h, String.ofList_toList]

def spaced : List String → String
  | [] => ""
  | t :: ts => " " ++ t ++ spaced ts

theorem spaced_append (ts us : List String) : spaced (ts ++ us) = spaced ts ++ spaced us := by
  induction ts with
  | nil => rw [List.nil_append, spaced, String.empty_append]
  | cons t ts ih => simp only [List.cons_append, spaced, ih, String.append_assoc]

theorem spaced_eq_intercalate {ts : List String} (h : ts ≠ []) :
    spaced ts = " " ++ String.intercalate " " ts := by
  induction ts with
  | nil => exact absurd rfl h
  | cons t ts ih =>
      cases ts with
      | nil => simp [spaced]
      | cons u us =>
          rw [spaced, ih (List.cons_ne_nil u us), String.intercalate_cons_cons]
          simp only [String.append_assoc]

end Text

namespace Value

def isSwitch : Value → Bool
  | .undefined => true
  | .null => true
  | .bool _ => true
  | _ => false

theorem attributeText?_of_not_isSwitch {v : Value} (name : String) (h : v.isSwitch = false) :
    v.attributeText? name = some (name ++ "=\"" ++ v.toHtml ++ "\"") := by
  cases v with
  | undefined => cases h
  | null => cases h
  | bool b => cases h
  | _ => rfl

end Value

def attributeTexts (ps : List (String × Value)) : List String :=
  ps.filterMap fun (name, v) => v.attributeText? name

theorem attributeTexts_append (ps qs : List (String × Value)) :
    attributeTexts (ps ++ qs) = attributeTexts ps ++ attributeTexts qs :=
  List.filterMap_append

namespace ClassifiedAttribute

def name? : ClassifiedAttribute H → Option String
  | .static name _ => some name
  | .dynamic name _ => some name
  | .flag name => some name
  | .spread _ => none
  | .dangerousHtml _ => none

/-- Joining escapes what is otherwise written as it is, and leaves out or shortens what is otherwise
written as a value. -/
def joinsAlike (s : Scope H) : ClassifiedAttribute H → Prop
  | .static _ value => ∀ c ∈ value.toList, c ∉ Text.special
  | .dynamic _ e => ∀ v, (Term.ofExpression e).evaluate s = .ok v → v.isSwitch = false
  | _ => True

variable {s : Scope H} {a : ClassifiedAttribute H}

theorem renderAll_pieces (h : a.joinsAlike s) :
    Segment.renderAll s a.pieces = do
      let ps ← Entry.allPairs s a.field?.toList
      return Text.spaced (attributeTexts ps) := by
  cases a with
  | static name value =>
      have he : Text.escape value = value := Text.escape_of_forall_not_mem h
      simp [pieces, field?, Segment.renderAll_cons_literal, Segment.renderAll_nil, Entry.allPairs,
        Entry.pairs, Term.evaluate_str, attributeTexts, Value.attributeText?, Value.toHtml, he,
        Text.spaced, String.append_assoc]
  | dynamic name e =>
      have hv : Yields ((Term.ofExpression e).evaluate s) (·.isSwitch = false) := h
      simp only [pieces, field?, Segment.renderAll_cons_literal, Segment.renderAll_cons_expression,
        Segment.renderAll_nil, Option.toList_some, Entry.allPairs, Entry.pairs, bind_assoc,
        pure_bind, List.append_nil]
      refine hv.bind_congr fun v hv => ?_
      simp [attributeTexts, Value.attributeText?_of_not_isSwitch name hv, Text.spaced,
        String.append_assoc]
  | flag name =>
      simp [pieces, field?, Segment.renderAll_cons_literal, Segment.renderAll_nil, Entry.allPairs,
        Entry.pairs, Term.evaluate_bool, attributeTexts, Value.attributeText?, Text.spaced]
  | spread handle => rfl
  | dangerousHtml payload => rfl

theorem yields_allPairs (h : a.joinsAlike s) :
    Yields (Entry.allPairs s a.field?.toList) (fun ps =>
      ps.map Prod.fst = a.name?.toList ∧ (attributeTexts ps).length = ps.length) := by
  cases a with
  | static name value => exact .pure ⟨rfl, rfl⟩
  | dynamic name e =>
      have hv : Yields ((Term.ofExpression e).evaluate s) (·.isSwitch = false) := h
      simp only [field?, Option.toList_some, Entry.allPairs, Entry.pairs, bind_assoc, pure_bind]
      refine .bind hv fun v hv => .pure ⟨rfl, ?_⟩
      simp [attributeTexts, Value.attributeText?_of_not_isSwitch name hv]
  | flag name => exact .pure ⟨rfl, rfl⟩
  | spread handle => exact .pure ⟨rfl, rfl⟩
  | dangerousHtml payload => exact .pure ⟨rfl, rfl⟩

variable {as : List (ClassifiedAttribute H)} (has : ∀ a ∈ as, a.joinsAlike s)
include has

theorem renderAll_flatMap_pieces :
    Segment.renderAll s (as.flatMap (·.pieces)) = do
      let ps ← Entry.allPairs s (as.filterMap (·.field?))
      return Text.spaced (attributeTexts ps) := by
  induction as with
  | nil => rfl
  | cons a as ih =>
      rw [List.forall_mem_cons] at has
      rw [List.flatMap_cons, Segment.renderAll_append, renderAll_pieces has.1, ih has.2,
        filterMap_cons_eq_append, Entry.allPairs_append]
      simp only [bind_assoc, pure_bind, attributeTexts_append, Text.spaced_append]

theorem yields_allPairs_filterMap :
    Yields (Entry.allPairs s (as.filterMap (·.field?))) (fun ps =>
      ps.map Prod.fst = as.filterMap (·.name?) ∧ (attributeTexts ps).length = ps.length) := by
  induction as with
  | nil => exact .pure ⟨rfl, rfl⟩
  | cons a as ih =>
      rw [List.forall_mem_cons] at has
      rw [filterMap_cons_eq_append, filterMap_cons_eq_append, Entry.allPairs_append]
      refine .bind (yields_allPairs has.1) fun ps hps => .bind (ih has.2) fun qs hqs => .pure ?_
      rw [List.map_append, hps.1, hqs.1, attributeTexts_append, List.length_append, hps.2, hqs.2,
        List.length_append]
      exact ⟨rfl, rfl⟩

end ClassifiedAttribute

namespace ClassifiedAttributes

def names (c : ClassifiedAttributes H) : List String :=
  c.attributes.filterMap (·.name?)

structure Joinable (s : Scope H) (c : ClassifiedAttributes H) : Prop where
  hasSpread_eq : c.hasSpread = false
  names_ne_nil : c.names ≠ []
  nodup_names : c.names.Nodup
  joinsAlike : ∀ a ∈ c.attributes, a.joinsAlike s

theorem renderAll_pieces_of_joinable {s : Scope H} {c : ClassifiedAttributes H}
    (h : c.Joinable s) :
    Segment.renderAll s c.pieces.output = do
      let ps ← Entry.allPairs s (c.attributes.filterMap (·.field?))
      return " " ++ joinAttributes (.ofPairs ps) := by
  rw [output_pieces, h.hasSpread_eq, if_neg Bool.false_ne_true,
    ClassifiedAttribute.renderAll_flatMap_pieces h.joinsAlike]
  refine (ClassifiedAttribute.yields_allPairs_filterMap h.joinsAlike).bind_congr fun ps hps => ?_
  have hkeys : ps.map Prod.fst = c.names := hps.1
  have hne : attributeTexts ps ≠ [] := by
    intro hnil
    have hlen : ps.length = 0 := by rw [← hps.2, hnil, List.length_nil]
    apply h.names_ne_nil
    rw [← hkeys, List.length_eq_zero_iff.mp hlen, List.map_nil]
  rw [Fields.ofPairs_of_nodup (hkeys ▸ h.nodup_names), Text.spaced_eq_intercalate hne]
  rfl

theorem renderAll_pieces_of_spread {s : Scope H} {c : ClassifiedAttributes H} {handle : H}
    {v : Value} (hc : c.attributes.filterMap (·.spread?) = [.spread handle])
    (hv : s.value handle = .ok v) (hfields : v.spreadFields = []) :
    Segment.renderAll s c.pieces.output = do
      let ps ← Entry.allPairs s (c.attributes.filterMap (·.field?))
      return " " ++ joinAttributes (.ofPairs ps) := by
  have hspread : c.hasSpread = true := by
    obtain ⟨a, ha, hs⟩ := List.mem_filterMap.mp (hc ▸ List.mem_singleton_self (Entry.spread handle))
    refine List.any_eq_true.mpr ⟨a, ha, ?_⟩
    cases a <;> cases hs
    rfl
  have hpairs : Entry.allPairs s [.spread handle] = pure [] := by
    simp only [Entry.allPairs, Entry.pairs, hv]
    change Except.ok (v.spreadFields ++ []) = Except.ok []
    rw [hfields, List.append_nil]
  rw [output_pieces, hspread, if_pos rfl]
  simp only [Segment.renderAll_cons_literal, Segment.renderAll_cons_expression,
    Segment.renderAll_nil, Term.evaluate, ObjectLiteral.evaluate_eq, merged, Entry.allPairs_append,
    hc, hpairs, Value.toHtml, bind_assoc, pure_bind, List.append_nil, String.append_empty]

theorem filterMap_spread?_of_hasSpread {c : ClassifiedAttributes H} (h : c.hasSpread = false) :
    c.attributes.filterMap (·.spread?) = [] := by
  refine List.filterMap_eq_nil_iff.mpr fun a ha => ?_
  have hs := List.any_eq_false.mp h a ha
  cases a with
  | spread handle => exact absurd rfl hs
  | _ => rfl

end ClassifiedAttributes

theorem filterMap_insert_spread (r : AttributeRules) {f : ClassifiedAttribute H → Option β}
    (before after : List (Attribute H)) (handle : H) :
    (classify r (before ++ .spread handle :: after)).attributes.filterMap f =
      (classify r before).attributes.filterMap f ++
        ((f (.spread handle)).toList ++ (classify r after).attributes.filterMap f) := by
  rw [← filterMap_cons_eq_append, ← List.filterMap_append]
  simp [classify, Attribute.verdict, Verdict.kept?]

theorem filterMap_classify_append (r : AttributeRules) {f : ClassifiedAttribute H → Option β}
    (before after : List (Attribute H)) :
    (classify r (before ++ after)).attributes.filterMap f =
      (classify r before).attributes.filterMap f ++ (classify r after).attributes.filterMap f := by
  simp [classify]

theorem Attribute.opening_insert_spread (o : Options) {s : Scope H}
    {before after : List (Attribute H)} {handle : H} {v : Value}
    (h : (classify (.host o) (before ++ after)).Joinable s) (hv : s.value handle = .ok v)
    (hfields : v.spreadFields = []) :
    opening o s (before ++ .spread handle :: after) = opening o s (before ++ after) := by
  have hnone := ClassifiedAttributes.filterMap_spread?_of_hasSpread h.hasSpread_eq
  rw [filterMap_classify_append, List.append_eq_nil_iff] at hnone
  have hone : (classify (.host o) (before ++ .spread handle :: after)).attributes.filterMap
      (·.spread?) = [.spread handle] := by
    rw [filterMap_insert_spread, hnone.1, hnone.2]
    rfl
  have hfield : (classify (.host o) (before ++ .spread handle :: after)).attributes.filterMap
      (·.field?) = (classify (.host o) (before ++ after)).attributes.filterMap (·.field?) := by
    rw [filterMap_insert_spread, filterMap_classify_append]
    rfl
  rw [← ClassifiedAttributes.renderAll_pieces, ← ClassifiedAttributes.renderAll_pieces,
    ClassifiedAttributes.renderAll_pieces_of_spread hone hv hfields,
    ClassifiedAttributes.renderAll_pieces_of_joinable h, hfield]

theorem render_insert_spread (o : Options) (s : Scope H) (tag : String)
    (before after : List (Attribute H)) (children : List (Node H)) (closed : Bool) (handle : H)
    (v : Value) (htag : Tag.kind tag = .host)
    (h : (classify (.host o) (before ++ after)).Joinable s) (hv : s.value handle = .ok v)
    (hempty : ∀ fields, v = .object fields → fields = []) :
    (compile o (.element ⟨tag, before ++ .spread handle :: after, children, closed⟩)).output.render
        s =
      (compile o (.element ⟨tag, before ++ after, children, closed⟩)).output.render s := by
  have hfields : v.spreadFields = [] := by
    cases v with
    | object fields => exact hempty fields rfl
    | _ => rfl
  have hopening := Attribute.opening_insert_spread o h hv hfields
  have hpayload : (before ++ .spread handle :: after).filterMap (·.payload? o) =
      (before ++ after).filterMap (·.payload? o) := by
    simp [Attribute.payload?]
  have hrender (as : List (Attribute H)) :
      (compile o (.element ⟨tag, as, children, closed⟩)).output.render s =
        Element.interpret o s ⟨tag, as, children, closed⟩ :=
    Element.render_compile o s ⟨tag, as, children, closed⟩
  rw [hrender, hrender]
  simp only [Element.interpret, htag, hopening, hpayload]

def listed : Scope String where
  value handle := .ok (if handle = "x" then .list [.string "<", .null] else .null)
  component name _ := .error (.unknownComponent name)

def leading : List (Attribute String) :=
  [.text "className" "wide", .flag "hidden"]

def trailing : List (Attribute String) :=
  [.expression "open" (.bool false), .host "title" "x", .expression "style" (.object [])]

theorem joinable_leading_trailing :
    (classify (.host {}) (leading ++ trailing)).Joinable listed where
  hasSpread_eq := rfl
  names_ne_nil := nofun
  nodup_names := by decide
  joinsAlike := by
    have hattributes : (classify (.host {}) (leading ++ trailing)).attributes =
        [.static "class" "wide", .flag "hidden", .dynamic "title" (.host "x"),
          .dynamic "style" (.object [])] := rfl
    rw [hattributes]
    have htext : ∀ c ∈ "wide".toList, c ∉ Text.special := by simp [Text.special]
    simp only [List.forall_mem_cons, List.not_mem_nil, false_implies, implies_true, and_true]
    refine ⟨htext, trivial, ?_, ?_⟩
    · rintro v ⟨⟩
      rfl
    · rintro v ⟨⟩
      rfl

theorem render_insert_spread_listed :
    (classify (.host {}) (leading ++ trailing)).Joinable listed ∧
    (compile {} (.element ⟨"p", leading ++ .spread "rest" :: trailing, [.expression "x"],
      true⟩)).output.render listed =
      .ok "<p class=\"wide\" hidden title=\"&lt;\" style=\"[object Object]\">&lt;</p>" := by
  refine ⟨joinable_leading_trailing, ?_⟩
  rw [render_insert_spread {} listed "p" leading trailing [.expression "x"] true "rest" .null rfl
    joinable_leading_trailing rfl nofun]
  rfl

end HtmlTemplate
