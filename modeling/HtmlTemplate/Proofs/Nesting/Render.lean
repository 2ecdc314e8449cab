import HtmlTemplate.Proofs.Diagnostics
import HtmlTemplate.Proofs.Nesting.Scan
import HtmlTemplate.Proofs.Noninterference

namespace HtmlTemplate

variable {H : Type}

mutual

def Node.tagEvents : Node H → List TagEvent
  | .element e => e.tagEvents
  | .fragment children => Node.allTagEvents children
  | .text _ => []
  | .expression _ => []
  | .emptyExpression => []

def Node.allTagEvents : List (Node H) → List TagEvent
  | [] => []
  | n :: ns => n.tagEvents ++ Node.allTagEvents ns

def Element.tagEvents : Element H → List TagEvent
  | ⟨tag, _, children, closed⟩ =>
      match Tag.kind tag with
      | .host =>
          if Tag.isVoid tag || !closed then [.selfClosed tag]
          else .opened tag :: Node.allTagEvents children ++ [.closed tag]
      | _ => []

end

def Element.start? (e : Element H) : Option TagEvent :=
  if Tag.kind e.tag = .host then some (if e.isSelfClosing then .selfClosed e.tag else .opened e.tag)
  else none

def AttributeValue.isRegular : AttributeValue H → Bool
  | .text value => value.toList.all fun c => !isBracket c && c ≠ '\x22'
  | .expression _ => true

def Attribute.isRegular : Attribute H → Bool
  | .named name value? => name.toList.all isNameChar && value?.all (·.isRegular)
  | .spread _ => true

mutual

def Node.isRegular : Node H → Bool
  | .element e => e.isRegular
  | .fragment children => Node.allRegular children
  | .text raw => raw.toList.all fun c => !isBracket c
  | .expression _ => true
  | .emptyExpression => true

def Element.isRegular : Element H → Bool
  | ⟨tag, attributes, children, _⟩ =>
      (Tag.kind tag = .unsupported || tag.toList.all Tag.isNameChar) &&
        attributes.all (·.isRegular) && Node.allRegular children

def Node.allRegular : List (Node H) → Bool
  | [] => true
  | n :: ns => n.isRegular && Node.allRegular ns

end

section Nesting

-- What stands on the stack when a tree starts is untouched when it ends, so the statement is about
-- any stack and any events that follow.
mutual

theorem Element.wellNested_tagEvents : (e : Element H) → (stack : List String) →
    (es : List TagEvent) →
      TagEvent.wellNested stack (e.tagEvents ++ es) = TagEvent.wellNested stack es
  | ⟨tag, attributes, children, closed⟩, stack, es => by
      have ih := Node.wellNested_allTagEvents children (tag :: stack) (.closed tag :: es)
      simp only [Element.tagEvents]
      cases Tag.kind tag with
      | host =>
          cases Tag.isVoid tag || !closed with
          | true => simp [TagEvent.wellNested]
          | false => simp [TagEvent.wellNested, ih]
      | component => rfl
      | unsupported => rfl

theorem Node.wellNested_tagEvents : (n : Node H) → (stack : List String) →
    (es : List TagEvent) →
      TagEvent.wellNested stack (n.tagEvents ++ es) = TagEvent.wellNested stack es
  | .element e, stack, es => by rw [Node.tagEvents, e.wellNested_tagEvents stack es]
  | .fragment children, stack, es => by
      rw [Node.tagEvents, Node.wellNested_allTagEvents children stack es]
  | .text _, _, _ => rfl
  | .expression _, _, _ => rfl
  | .emptyExpression, _, _ => rfl

theorem Node.wellNested_allTagEvents : (ns : List (Node H)) → (stack : List String) →
    (es : List TagEvent) →
      TagEvent.wellNested stack (Node.allTagEvents ns ++ es) = TagEvent.wellNested stack es
  | [], _, _ => rfl
  | n :: ns, stack, es => by
      rw [Node.allTagEvents, List.append_assoc, n.wellNested_tagEvents,
        Node.wellNested_allTagEvents ns]

end

theorem Node.wellNested_nil_tagEvents (n : Node H) :
    TagEvent.wellNested [] n.tagEvents = true := by
  have h := n.wellNested_tagEvents [] []
  rw [List.append_nil] at h
  exact h

example :
    TagEvent.wellNested [] [.opened "a", .opened "b", .closed "a", .closed "b"] = false := by
  rfl

end Nesting

section Live

variable {o : Options}

def liveStarts (o : Options) (ps : List (Placed H)) : List TagEvent :=
  (ps.filter (·.isLive o)).filterMap (·.element.start?)

theorem liveStarts_append (ps qs : List (Placed H)) :
    liveStarts o (ps ++ qs) = liveStarts o ps ++ liveStarts o qs := by
  rw [liveStarts, List.filter_append, List.filterMap_append, liveStarts, liveStarts]

theorem liveStarts_cons (p : Placed H) (ps : List (Placed H)) :
    liveStarts o (p :: ps) =
      (if p.isLive o then p.element.start?.toList else []) ++ liveStarts o ps := by
  cases h : p.isLive o with
  | true => simp [liveStarts, h, filterMap_cons_eq_append]
  | false => simp [liveStarts, h]

theorem Element.hasPayload_of_isPlain {e : Element H}
    (h : e.attributes.all (·.isPlain o) = true) : e.hasPayload o = false := by
  refine List.any_eq_false.mpr fun a ha => ?_
  rw [Attribute.payload?_of_isPlain (List.all_eq_true.mp h a ha)]
  exact Bool.false_ne_true

theorem Element.tagEvents_eq (e : Element H) :
    e.tagEvents =
      match Tag.kind e.tag with
      | .host =>
          if e.isSelfClosing then [.selfClosed e.tag]
          else .opened e.tag :: Node.allTagEvents e.children ++ [.closed e.tag]
      | _ => [] := by
  obtain ⟨tag, attributes, children, closed⟩ := e
  rw [Element.tagEvents]
  rfl

theorem Element.filterMap_start?_tagEvents {e : Element H} (hk : Tag.kind e.tag ≠ .component)
    (ha : e.attributes.all (·.isPlain o) = true) :
    e.tagEvents.filterMap (·.start?) =
      e.start?.toList ++
        if e.keepsChildren o then (Node.allTagEvents e.children).filterMap (·.start?) else [] := by
  have hp := Element.hasPayload_of_isPlain ha
  rw [Element.tagEvents_eq, Element.start?, Element.keepsChildren, hp]
  cases hkind : Tag.kind e.tag with
  | host => cases e.isSelfClosing <;> simp [TagEvent.start?]
  | component => exact absurd hkind hk
  | unsupported => rfl

mutual

theorem Element.liveStarts_placed : (e : Element H) → e.isGuarded o = true →
    (as : List (Element H)) →
      liveStarts o (e.placed as) =
        if as.all (·.keepsChildren o) then e.tagEvents.filterMap (·.start?) else []
  | ⟨tag, attributes, children, closed⟩, h, as => by
      simp only [Element.isGuarded, Bool.and_eq_true, decide_eq_true_eq] at h
      have ih := liveStarts_allPlaced children h.2 (⟨tag, attributes, children, closed⟩ :: as)
      have hstart := Element.filterMap_start?_tagEvents
        (e := ⟨tag, attributes, children, closed⟩) h.1.1 h.1.2
      rw [Element.placed, liveStarts_cons, ih, Placed.isLive, List.all_cons, hstart]
      cases as.all (·.keepsChildren o) with
      | false => rw [Bool.and_false]; rfl
      | true => rw [Bool.and_true]; rfl

theorem Node.liveStarts_placed : (n : Node H) → n.isGuarded o = true → (as : List (Element H)) →
    liveStarts o (n.placed as) =
      if as.all (·.keepsChildren o) then n.tagEvents.filterMap (·.start?) else []
  | .element e, h, as => by
      rw [Node.isGuarded] at h
      rw [Node.placed, Node.tagEvents, e.liveStarts_placed h as]
  | .fragment children, h, as => by
      rw [Node.isGuarded] at h
      rw [Node.placed, Node.tagEvents, liveStarts_allPlaced children h as]
  | .text _, _, _ => (ite_self _).symm
  | .expression _, _, _ => (ite_self _).symm
  | .emptyExpression, _, _ => (ite_self _).symm

theorem liveStarts_allPlaced : (ns : List (Node H)) → Node.allGuarded o ns = true →
    (as : List (Element H)) →
      liveStarts o (Node.allPlaced as ns) =
        if as.all (·.keepsChildren o) then (Node.allTagEvents ns).filterMap (·.start?) else []
  | [], _, _ => (ite_self _).symm
  | n :: ns, h, as => by
      simp only [Node.allGuarded, Bool.and_eq_true] at h
      rw [Node.allPlaced, liveStarts_append, n.liveStarts_placed h.1 as,
        liveStarts_allPlaced ns h.2 as, Node.allTagEvents, List.filterMap_append]
      cases as.all (·.keepsChildren o) <;> rfl

end

theorem Node.filterMap_start?_tagEvents (n : Node H) (h : n.isGuarded o = true) :
    n.tagEvents.filterMap (·.start?) = (n.liveElements o).filterMap (·.start?) := by
  have hlive := n.liveStarts_placed h []
  rw [Node.liveElements, List.filterMap_map]
  exact hlive.symm

end Live

section Scan

variable {o : Options} {s : Scope H}

theorem Text.isMark_of_marks {text : String} (h : Text.marks text = []) {c : Char}
    (hc : c ∈ text.toList) : isBracket c = false ∧ c ≠ '\x22' := by
  have hmark := List.filter_eq_nil_iff.mp h c hc
  simp only [Text.isMark, Bool.or_eq_true, decide_eq_true_eq, not_or] at hmark
  obtain ⟨⟨⟨hl, hg⟩, hq⟩, -⟩ := hmark
  exact ⟨by simp [isBracket, hl, hg], hq⟩

theorem Value.reads_toHtml {v : Value} (h : v.isHtmlFree = true) : Reads v.toHtml [] :=
  Reads.content fun _ hc => (Text.isMark_of_marks (Value.marks_toHtml v h) hc).1

theorem Text.mem_of_mem_trim {raw : String} {c : Char} (h : c ∈ (Text.trim raw).toList) :
    c ∈ raw.toList := by
  rw [Text.toList_trim, Text.trimChars, List.mem_reverse] at h
  have hinner := (List.dropWhile_sublist _).subset h
  exact (List.dropWhile_sublist _).subset (List.mem_reverse.mp hinner)

theorem Text.reads_trim {raw : String} (h : raw.toList.all (fun c => !isBracket c) = true) :
    Reads (Text.trim raw) [] := by
  refine Reads.content fun c hc => ?_
  have hplain := List.all_eq_true.mp h c (Text.mem_of_mem_trim hc)
  simpa using hplain

theorem Options.isNameChar_hostName {name : String}
    (h : name.toList.all Attribute.isNameChar = true) :
    ∀ c ∈ (o.hostName name).toList, Attribute.isNameChar c = true := by
  unfold Options.hostName
  split
  · exact List.all_eq_true.mp rfl
  · exact List.all_eq_true.mp h

theorem Attribute.isAttributes_markup (hs : s.IsHtmlFree) (a : Attribute H)
    (h : a.isRegular = true) :
    Yields (a.markup s o.hostName) (fun m => IsAttributes m.toList) := by
  rcases a with ⟨name, value?⟩ | handle
  · rw [Attribute.isRegular, Bool.and_eq_true] at h
    have hname := Options.isNameChar_hostName (o := o) h.1
    rcases value? with _ | text | (_ | _) | text | properties | handle
    case some.text =>
      refine .pure (.valued hname ?_)
      intro c hc
      have hvalue : text.toList.all (fun d => !isBracket d && d ≠ '\x22') = true := h.2
      have hc' := List.all_eq_true.mp hvalue c hc
      simpa using hc'
    case some.expression.bool.false => exact .pure .nil
    case none | some.expression.bool.true => exact .pure (.flag hname)
    all_goals
      refine .bind (Expression.yields_value hs _) fun v hv => .pure (.valued hname ?_)
      intro c hc
      exact Text.isMark_of_marks (Value.marks_toHtml v hv) hc
  · exact .pure .nil

theorem Attribute.isAttributes_allMarkup (hs : s.IsHtmlFree) (as : List (Attribute H))
    (h : as.all (·.isRegular) = true) :
    Yields (Attribute.allMarkup s o.hostName as) (fun m => IsAttributes m.toList) := by
  induction as with
  | nil => exact .pure .nil
  | cons a as ih =>
      rw [List.all_cons, Bool.and_eq_true] at h
      refine .bind (a.isAttributes_markup hs h.1) fun m hm => ?_
      refine .bind (ih h.2) fun rest hrest => .pure ?_
      rw [String.toList_append]
      exact hm.append hrest

theorem Attribute.isAttributes_opening (hs : s.IsHtmlFree) (as : List (Attribute H))
    (hplain : as.all (·.isPlain o) = true) (h : as.all (·.isRegular) = true) :
    Yields (Attribute.opening o s as) (fun m => IsAttributes m.toList) := by
  rw [Attribute.opening_of_isPlain hplain]
  exact Attribute.isAttributes_allMarkup hs as h

structure Options.HasSilentMarkers (o : Options) : Prop where
  start : Reads o.fragmentStartMarker []
  stop : Reads o.fragmentEndMarker []

theorem Options.HasSilentMarkers.default : ({} : Options).HasSilentMarkers where
  start := Reads.comment " Fragment Start " (by simp)
  stop := Reads.comment " Fragment End " (by simp)

theorem reads_interpret_host (hs : s.IsHtmlFree) {tag : String} {attributes : List (Attribute H)}
    {children : List (Node H)} {closed : Bool} (hk : Tag.kind tag = .host)
    (ht : tag.toList.all Tag.isNameChar = true) (hplain : attributes.all (·.isPlain o) = true)
    (hregular : attributes.all (·.isRegular) = true)
    (hc : Yields (Node.contentAll o s children) (Reads · (Node.allTagEvents children))) :
    Yields (Element.interpret o s ⟨tag, attributes, children, closed⟩)
      (Reads · (Element.tagEvents ⟨tag, attributes, children, closed⟩)) := by
  have hp : attributes.filterMap (·.payload? o) = [] :=
    List.filterMap_eq_nil_iff.mpr fun a h =>
      Attribute.payload?_of_isPlain (List.all_eq_true.mp hplain a h)
  have hname : Tag.IsName tag := by
    refine ⟨?_, List.all_eq_true.mp ht⟩
    intro hnil
    rw [Tag.kind, hnil] at hk
    cases hk
  simp only [Element.interpret, Element.tagEvents, hk, hp]
  refine .bind (Attribute.isAttributes_opening hs attributes hplain hregular)
    fun opening hopening => ?_
  split
  · exact .pure (.selfClosed hname hopening)
  · refine .bind hc fun content hcontent => .pure ?_
    have h := ((Reads.opened hname hopening).append hcontent).append (.closed hname)
    simpa only [String.append_assoc, List.singleton_append] using h

mutual

theorem Element.reads_interpret (ho : o.HasSilentMarkers) (hs : s.IsHtmlFree) : (e : Element H) →
    e.isGuarded o = true → e.isRegular = true → Yields (e.interpret o s) (Reads · e.tagEvents)
  | ⟨tag, attributes, children, closed⟩, hg, hr => by
      simp only [Element.isGuarded, Bool.and_eq_true, decide_eq_true_eq] at hg
      simp only [Element.isRegular, Bool.and_eq_true, Bool.or_eq_true, decide_eq_true_eq] at hr
      cases hk : Tag.kind tag with
      | host =>
          have ht : tag.toList.all Tag.isNameChar = true := by
            rcases hr.1.1 with h | h
            · rw [hk] at h
              cases h
            · exact h
          exact reads_interpret_host hs hk ht hg.1.2 hr.1.2
            (Node.reads_contentAll ho hs children hg.2 hr.2)
      | component => exact absurd hk hg.1.1
      | unsupported =>
          simp only [Element.interpret, Element.tagEvents, hk]
          exact .pure .empty

theorem Node.reads_content (ho : o.HasSilentMarkers) (hs : s.IsHtmlFree) : (n : Node H) →
    n.isGuarded o = true → n.isRegular = true → Yields (n.content o s) (Reads · n.tagEvents)
  | .element e, hg, hr => by
      rw [Node.isGuarded] at hg
      rw [Node.isRegular] at hr
      rw [Node.content, Node.tagEvents]
      exact e.reads_interpret ho hs hg hr
  | .fragment children, hg, hr => by
      rw [Node.isGuarded] at hg
      rw [Node.isRegular] at hr
      refine .bind (Node.reads_items ho hs children hg hr) fun vs hvs => .pure ?_
      rw [Value.marked_eq, Node.tagEvents]
      split
      · exact hvs
      · have h := (ho.start.append hvs).append ho.stop
        simpa only [List.nil_append, List.append_nil] using h
  | .text raw, _, hr => .pure (Text.reads_trim (by simpa only [Node.isRegular] using hr))
  | .expression handle, _, _ => .bind (hs handle) fun _ hv => .pure (Value.reads_toHtml hv)
  | .emptyExpression, _, _ => .pure .empty

theorem Node.reads_contentAll (ho : o.HasSilentMarkers) (hs : s.IsHtmlFree) :
    (ns : List (Node H)) → Node.allGuarded o ns = true → Node.allRegular ns = true →
      Yields (Node.contentAll o s ns) (Reads · (Node.allTagEvents ns))
  | [], _, _ => .pure .empty
  | n :: ns, hg, hr => by
      simp only [Node.allGuarded, Bool.and_eq_true] at hg
      simp only [Node.allRegular, Bool.and_eq_true] at hr
      refine .bind (n.reads_content ho hs hg.1 hr.1) fun m hm => ?_
      refine .bind (Node.reads_contentAll ho hs ns hg.2 hr.2) fun rest hrest => .pure ?_
      rw [Node.allTagEvents]
      exact hm.append hrest

theorem Node.reads_item (ho : o.HasSilentMarkers) (hs : s.IsHtmlFree) : (n : Node H) →
    n.isGuarded o = true → n.isRegular = true →
      Yields (n.item o s) (fun vs => Reads (Value.listHtml vs) n.tagEvents)
  | .element e, hg, hr => by
      rw [Node.isGuarded] at hg
      rw [Node.isRegular] at hr
      refine .bind (e.reads_interpret ho hs hg hr) fun m hm => .pure ?_
      simpa [Value.listHtml, Value.toHtml, Node.tagEvents] using hm
  | .fragment children, hg, hr => by
      rw [Node.isGuarded] at hg
      rw [Node.isRegular] at hr
      rw [Node.item, Node.tagEvents]
      exact Node.reads_items ho hs children hg hr
  | .text raw, _, hr => by
      have h : Reads (Text.trim raw) [] := Text.reads_trim (by simpa only [Node.isRegular] using hr)
      refine .pure ?_
      rw [Node.tagEvents]
      split
      · exact .empty
      · simpa [Value.listHtml, Value.toHtml] using h
  | .expression handle, _, _ => by
      refine .bind (hs handle) fun v hv => .pure ?_
      simpa [Value.listHtml, Node.tagEvents] using Value.reads_toHtml hv
  | .emptyExpression, _, _ => .pure .empty

theorem Node.reads_items (ho : o.HasSilentMarkers) (hs : s.IsHtmlFree) :
    (ns : List (Node H)) → Node.allGuarded o ns = true → Node.allRegular ns = true →
      Yields (Node.items o s ns) (fun vs => Reads (Value.listHtml vs) (Node.allTagEvents ns))
  | [], _, _ => .pure .empty
  | n :: ns, hg, hr => by
      simp only [Node.allGuarded, Bool.and_eq_true] at hg
      simp only [Node.allRegular, Bool.and_eq_true] at hr
      refine .bind (n.reads_item ho hs hg.1 hr.1) fun vs hvs => ?_
      refine .bind (Node.reads_items ho hs ns hg.2 hr.2) fun ws hws => .pure ?_
      rw [Value.listHtml_append, Node.allTagEvents]
      exact hvs.append hws

end

theorem Node.reads_interpret (ho : o.HasSilentMarkers) (hs : s.IsHtmlFree) (n : Node H)
    (hg : n.isGuarded o = true) (hr : n.isRegular = true) :
    Yields (n.interpret o s) (Reads · n.tagEvents) := by
  have hitem := n.reads_item ho hs hg hr
  rw [← Node.listHtml_item]
  exact .bind hitem fun vs hvs => .pure hvs

end Scan

theorem scanTags_render_eq (n : Node H) (hg : n.isGuarded {} = true) (hr : n.isRegular = true)
    (s : Scope H) (hs : s.IsHtmlFree) (markup : String)
    (h : (compile {} n).output.render s = .ok markup) :
    scanTags markup = some n.tagEvents ∧ TagEvent.wellNested [] n.tagEvents = true ∧
      n.tagEvents.filterMap (·.start?) = (n.liveElements {}).filterMap (·.start?) := by
  have hreads : Reads markup n.tagEvents :=
    n.reads_interpret .default hs hg hr markup
      ((n.render_compile {} s).symm.trans h)
  exact ⟨hreads.scanTags_eq, n.wellNested_nil_tagEvents, n.filterMap_start?_tagEvents hg⟩

def captioned : Node Unit :=
  .element ⟨"p", [.host "title" ()],
    [.fragment [.expression (), .element ⟨"br", [], [.text "lost"], true⟩],
      .element ⟨"a.b", [], [.element (.ofTag "i")], true⟩, .element ⟨"b", [], [], false⟩], true⟩

def captionedMarkup : String :=
  "<p title=\"&lt;&quot;/&gt;\"><!-- Fragment Start -->&lt;&quot;/&gt;<br />" ++
    "<!-- Fragment End --><b /></p>"

theorem scanTags_render_eq_captioned :
    (compile {} captioned).output.render (.const (.string "<\"/>")) = .ok captionedMarkup ∧
    scanTags captionedMarkup = some [.opened "p", .selfClosed "br", .selfClosed "b", .closed "p"] ∧
    (captioned.liveElements {}).filterMap (·.start?) =
      [.opened "p", .selfClosed "br", .selfClosed "b"] := by
  have hrender : (compile {} captioned).output.render (.const (.string "<\"/>")) =
      .ok captionedMarkup := rfl
  obtain ⟨hscan, -, hlive⟩ := scanTags_render_eq captioned rfl rfl (.const (.string "<\"/>"))
    (Scope.isHtmlFree_const rfl) captionedMarkup hrender
  exact ⟨hrender, hscan, hlive.symm⟩

end HtmlTemplate
