import HtmlTemplate.Proofs.Interpretation.Compile
import Mathlib.Tactic.SplitIfs

namespace HtmlTemplate

variable {H α β : Type}

namespace Text

def isMark (c : Char) : Bool :=
  c = '<' || c = '>' || c = '\x22' || c = '\x27'

def marks (s : String) : List Char :=
  s.toList.filter isMark

@[simp] theorem marks_append (s t : String) : marks (s ++ t) = marks s ++ marks t := by
  simp [marks]

@[simp] theorem marks_delimiters :
    marks "" = [] ∧ marks " " = [] ∧ marks "=\"" = ['\x22'] ∧ marks "\"" = ['\x22'] ∧
      marks "<" = ['<'] ∧ marks "</" = ['<'] ∧ marks ">" = ['>'] ∧ marks " />" = ['>'] :=
  ⟨rfl, rfl, rfl, rfl, rfl, rfl, rfl, rfl⟩

theorem filter_entity (c : Char) : (entity c).filter isMark = [] := by
  unfold entity
  split_ifs with ha hl hg hq hs
  · rfl
  · rfl
  · rfl
  · rfl
  · rfl
  · have hm : isMark c = false := by simp [isMark, hl, hg, hq, hs]
    rw [List.filter_cons_of_neg (Bool.eq_false_iff.mp hm), List.filter_nil]

theorem marks_escape (s : String) : marks (escape s) = [] := by
  simp only [marks, toList_escape, escapeChars, List.filter_flatMap, filter_entity,
    List.flatMap_eq_nil_iff, implies_true]

end Text

namespace Value

mutual

def isHtmlFree : Value → Bool
  | .html _ => false
  | .list items => allHtmlFree items
  | _ => true

def allHtmlFree : List Value → Bool
  | [] => true
  | v :: vs => v.isHtmlFree && allHtmlFree vs

end

mutual

theorem marks_toHtml : (v : Value) → v.isHtmlFree = true → Text.marks v.toHtml = []
  | .undefined, _ => rfl
  | .null, _ => rfl
  | .bool b, _ => by cases b <;> simp [toHtml, Text.marks_escape]
  | .number x, _ => Text.marks_escape _
  | .string text, _ => Text.marks_escape _
  | .list items, h => by
      rw [toHtml]
      exact marks_listHtml items (by simpa only [isHtmlFree] using h)
  | .object _, _ => Text.marks_escape _

theorem marks_listHtml : (vs : List Value) → allHtmlFree vs = true → Text.marks (listHtml vs) = []
  | [], _ => rfl
  | v :: vs, h => by
      simp only [allHtmlFree, Bool.and_eq_true] at h
      rw [listHtml, Text.marks_append, marks_toHtml v h.1, marks_listHtml vs h.2, List.nil_append]

end

end Value

def Scope.IsHtmlFree (s : Scope H) : Prop :=
  ∀ handle v, s.value handle = .ok v → v.isHtmlFree = true

def Yields (x : Except RenderError α) (P : α → Prop) : Prop :=
  ∀ a, x = .ok a → P a

namespace Yields

theorem pure {a : α} {P : α → Prop} (h : P a) : Yields (Pure.pure a) P := by
  intro b hb
  cases hb
  exact h

theorem bind {x : Except RenderError α} {f : α → Except RenderError β} {P : α → Prop}
    {Q : β → Prop} (hx : Yields x P) (hf : ∀ a, P a → Yields (f a) Q) : Yields (x >>= f) Q := by
  intro b hb
  cases x with
  | error e => cases hb
  | ok a => exact hf a (hx a rfl) b hb

theorem of_forall {x : Except RenderError α} {f : α → β} {P : β → Prop} (h : ∀ a, P (f a)) :
    Yields (do let a ← x; return f a) P :=
  .bind (fun _ _ => trivial) fun a (_ : True) => .pure (h a)

end Yields

section Marks

variable (o : Options)

def Attribute.marks : Attribute H → List Char
  | .named name none => Text.marks (o.hostName name)
  | .named name (some (.text text)) =>
      Text.marks (o.hostName name) ++ '\x22' :: Text.marks text ++ ['\x22']
  | .named name (some (.expression (.bool true))) => Text.marks (o.hostName name)
  | .named _ (some (.expression (.bool false))) => []
  | .named name (some (.expression _)) => Text.marks (o.hostName name) ++ ['\x22', '\x22']
  | .spread _ => []

mutual

def Node.itemCount : Node H → Nat
  | .element _ => 1
  | .fragment children => Node.itemCounts children
  | .text raw => if Text.trim raw = "" then 0 else 1
  | .expression _ => 1
  | .emptyExpression => 0

def Node.itemCounts : List (Node H) → Nat
  | [] => 0
  | n :: ns => n.itemCount + Node.itemCounts ns

end

mutual

def Node.marks : Node H → List Char
  | .element e => e.marks
  | .fragment children => Node.allMarks children
  | .text raw => Text.marks (Text.trim raw)
  | .expression _ => []
  | .emptyExpression => []

def Node.allMarks : List (Node H) → List Char
  | [] => []
  | n :: ns => n.marks ++ Node.allMarks ns

def Element.marks : Element H → List Char
  | ⟨tag, attributes, children, closed⟩ =>
      match Tag.kind tag with
      | .host =>
          '<' :: Text.marks tag ++ attributes.flatMap (·.marks o) ++
            if Tag.isVoid tag || !closed then ['>']
            else '>' :: Node.contentMarks children ++ '<' :: Text.marks tag ++ ['>']
      | _ => []

def Node.contentMark : Node H → List Char
  | .element e => e.marks
  | .fragment children =>
      if Node.itemCounts children ≤ 1 then Node.allMarks children
      else Text.marks o.fragmentStartMarker ++ Node.allMarks children ++
        Text.marks o.fragmentEndMarker
  | .text raw => Text.marks (Text.trim raw)
  | .expression _ => []
  | .emptyExpression => []

def Node.contentMarks : List (Node H) → List Char
  | [] => []
  | n :: ns => n.contentMark ++ Node.contentMarks ns

end

mutual

def Node.isGuarded : Node H → Bool
  | .element e => e.isGuarded
  | .fragment children => Node.allGuarded children
  | .text _ => true
  | .expression _ => true
  | .emptyExpression => true

def Element.isGuarded : Element H → Bool
  | ⟨tag, attributes, children, _⟩ =>
      Tag.kind tag ≠ .component && attributes.all (·.isPlain o) && Node.allGuarded children

def Node.allGuarded : List (Node H) → Bool
  | [] => true
  | n :: ns => n.isGuarded && Node.allGuarded ns

end

end Marks

section Interpretation

variable {o : Options} {s : Scope H}

theorem Expression.yields_value (hs : s.IsHtmlFree) (e : Expression H) :
    Yields (e.value s) (·.isHtmlFree = true) := by
  cases e with
  | bool b => exact .pure rfl
  | str text => exact .pure rfl
  | object properties =>
      rw [Expression.value]
      exact .bind (fun _ _ => trivial) fun _ _ => .pure rfl
  | host handle => exact hs handle

theorem Attribute.yields_markup (hs : s.IsHtmlFree) (a : Attribute H) :
    Yields (a.markup s o.hostName) (fun m => Text.marks m = a.marks o) := by
  rcases a with ⟨name, _ | text | (_ | _) | text | properties | handle⟩ | handle
  case named.some.expression.str | named.some.expression.object | named.some.expression.host =>
    refine .bind (Expression.yields_value hs _) fun v hv => .pure ?_
    simp [marks, Value.marks_toHtml v hv]
  all_goals exact .pure (by simp [marks])

theorem Attribute.yields_allMarkup (hs : s.IsHtmlFree) (as : List (Attribute H)) :
    Yields (Attribute.allMarkup s o.hostName as)
      (fun m => Text.marks m = as.flatMap (·.marks o)) := by
  induction as with
  | nil => exact .pure rfl
  | cons a as ih =>
      refine .bind (a.yields_markup hs) fun m hm => .bind ih fun rest hrest => .pure ?_
      rw [Text.marks_append, hm, hrest, List.flatMap_cons]

theorem Attribute.opening_of_isPlain {as : List (Attribute H)}
    (h : as.all (·.isPlain o) = true) :
    Attribute.opening o s as = Attribute.allMarkup s o.hostName as := by
  have hp : as.filter (·.isPlain o) = as := List.filter_eq_self.mpr (List.all_eq_true.mp h)
  have hn : as.any (·.isSpread) = false := by
    refine List.any_eq_false.mpr fun a ha => ?_
    have hplain := List.all_eq_true.mp h a ha
    rw [Attribute.isPlain, Bool.and_eq_true, Bool.not_eq_true'] at hplain
    exact Bool.eq_false_iff.mp hplain.1
  rw [Attribute.opening, hn, hp]
  rfl

theorem Attribute.yields_opening (hs : s.IsHtmlFree) (as : List (Attribute H))
    (h : as.all (·.isPlain o) = true) :
    Yields (Attribute.opening o s as) (fun m => Text.marks m = as.flatMap (·.marks o)) := by
  rw [Attribute.opening_of_isPlain h]
  exact Attribute.yields_allMarkup hs as

theorem yields_interpret_host (hs : s.IsHtmlFree) {tag : String} {attributes : List (Attribute H)}
    {children : List (Node H)} {closed : Bool} (hk : Tag.kind tag = .host)
    (ha : attributes.all (·.isPlain o) = true)
    (hc : Yields (Node.contentAll o s children)
      (fun m => Text.marks m = Node.contentMarks o children)) :
    Yields (Element.interpret o s ⟨tag, attributes, children, closed⟩)
      (fun m => Text.marks m = Element.marks o ⟨tag, attributes, children, closed⟩) := by
  have hp : attributes.filterMap (·.payload? o) = [] :=
    List.filterMap_eq_nil_iff.mpr fun a h =>
      Attribute.payload?_of_isPlain (List.all_eq_true.mp ha a h)
  simp only [Element.interpret, Element.marks, hk, hp]
  refine .bind (Attribute.yields_opening hs attributes ha) fun opening hopening => ?_
  split
  · exact .pure (by simp [hopening])
  · refine .bind hc fun content hcontent => .pure ?_
    simp [hopening, hcontent]

mutual

theorem Element.yields_interpret (hs : s.IsHtmlFree) : (e : Element H) → e.isGuarded o = true →
    Yields (e.interpret o s) (fun m => Text.marks m = e.marks o)
  | ⟨tag, attributes, children, closed⟩, h => by
      simp only [Element.isGuarded, Bool.and_eq_true, decide_eq_true_eq] at h
      cases hk : Tag.kind tag with
      | host => exact yields_interpret_host hs hk h.1.2 (Node.yields_contentAll hs children h.2)
      | component => exact absurd hk h.1.1
      | unsupported =>
          simp only [Element.interpret, Element.marks, hk]
          exact .pure rfl

theorem Node.yields_content (hs : s.IsHtmlFree) : (n : Node H) → n.isGuarded o = true →
    Yields (n.content o s) (fun m => Text.marks m = n.contentMark o)
  | .element e, h => e.yields_interpret hs h
  | .fragment children, h => by
      refine .bind (Node.yields_items hs children h) fun vs hvs => .pure ?_
      simp only [Value.marked_eq, Node.contentMark, ← hvs.2]
      split <;> simp [hvs.1]
  | .text raw, _ => .pure rfl
  | .expression handle, _ => .bind (hs handle) fun v hv => .pure (Value.marks_toHtml v hv)
  | .emptyExpression, _ => .pure rfl

theorem Node.yields_contentAll (hs : s.IsHtmlFree) : (ns : List (Node H)) →
    Node.allGuarded o ns = true →
      Yields (Node.contentAll o s ns) (fun m => Text.marks m = Node.contentMarks o ns)
  | [], _ => .pure rfl
  | n :: ns, h => by
      simp only [Node.allGuarded, Bool.and_eq_true] at h
      refine .bind (n.yields_content hs h.1) fun m hm => ?_
      refine .bind (Node.yields_contentAll hs ns h.2) fun rest hrest => .pure ?_
      rw [Text.marks_append, hm, hrest, Node.contentMarks]

theorem Node.yields_item (hs : s.IsHtmlFree) : (n : Node H) → n.isGuarded o = true →
    Yields (n.item o s)
      (fun vs => Text.marks (Value.listHtml vs) = n.marks o ∧ vs.length = n.itemCount)
  | .element e, h => by
      refine .bind (e.yields_interpret hs h) fun m hm => .pure ⟨?_, rfl⟩
      simp [Value.listHtml, Value.toHtml, hm, Node.marks]
  | .fragment children, h => Node.yields_items hs children h
  | .text raw, _ => by
      refine .pure ?_
      by_cases h : Text.trim raw = "" <;>
        simp [h, Value.listHtml, Value.toHtml, Node.marks, Node.itemCount]
  | .expression handle, _ => by
      refine .bind (hs handle) fun v hv => .pure ⟨?_, rfl⟩
      simp [Value.listHtml, Value.marks_toHtml v hv, Node.marks]
  | .emptyExpression, _ => .pure ⟨rfl, rfl⟩

theorem Node.yields_items (hs : s.IsHtmlFree) : (ns : List (Node H)) →
    Node.allGuarded o ns = true →
      Yields (Node.items o s ns)
        (fun vs => Text.marks (Value.listHtml vs) = Node.allMarks o ns ∧
          vs.length = Node.itemCounts ns)
  | [], _ => .pure ⟨rfl, rfl⟩
  | n :: ns, h => by
      simp only [Node.allGuarded, Bool.and_eq_true] at h
      refine .bind (n.yields_item hs h.1) fun vs hvs => ?_
      refine .bind (Node.yields_items hs ns h.2) fun ws hws => .pure ?_
      simp [Value.listHtml_append, hvs, hws, Node.allMarks, Node.itemCounts]

end

theorem Node.yields_interpret (hs : s.IsHtmlFree) (n : Node H) (h : n.isGuarded o = true) :
    Yields (n.interpret o s) (fun m => Text.marks m = n.marks o) := by
  cases n with
  | element e => exact e.yields_interpret hs h
  | fragment children =>
      rw [Node.interpret, ← Node.listHtml_items]
      exact .bind (Node.yields_items hs children h) fun vs hvs => .pure hvs.1
  | text raw => exact .pure rfl
  | expression handle => exact .bind (hs handle) fun v hv => .pure (Value.marks_toHtml v hv)
  | emptyExpression => exact .pure rfl

end Interpretation

theorem marks_render_eq (o : Options) (n : Node H) (hn : n.isGuarded o = true) (s t : Scope H)
    (hs : s.IsHtmlFree) (ht : t.IsHtmlFree) (a b : String)
    (ha : (compile o n).output.render s = .ok a) (hb : (compile o n).output.render t = .ok b) :
    Text.marks a = Text.marks b ∧ Text.marks a = n.marks o := by
  have hsa := n.yields_interpret hs hn a ((n.render_compile o s).symm.trans ha)
  have htb := n.yields_interpret ht hn b ((n.render_compile o t).symm.trans hb)
  exact ⟨hsa.trans htb.symm, hsa⟩

def Scope.const (v : Value) : Scope H where
  value _ := .ok v
  component name _ := .error (.unknownComponent name)

theorem Scope.isHtmlFree_const {v : Value} (h : v.isHtmlFree = true) :
    (Scope.const v : Scope H).IsHtmlFree := by
  intro _ _ hv
  cases hv
  exact h

def shortMarkers : Options :=
  { fragmentStartMarker := "<!>", fragmentEndMarker := "<!>" }

def slotted : Node Unit :=
  .element ⟨"p", [.host "title" ()], [.fragment [.expression (), .element (.ofTag "b")]], true⟩

theorem marks_render_eq_slotted :
    (compile shortMarkers slotted).output.render (.const (.list [.string "\">", .null])) =
      .ok "<p title=\"&quot;&gt;\"><!>&quot;&gt;<b></b><!></p>" ∧
    (compile shortMarkers slotted).output.render (.const .undefined) =
      .ok "<p title=\"\"><!><b></b><!></p>" ∧
    Text.marks "<p title=\"&quot;&gt;\"><!>&quot;&gt;<b></b><!></p>" =
      Text.marks "<p title=\"\"><!><b></b><!></p>" ∧
    Text.marks "<p title=\"&quot;&gt;\"><!>&quot;&gt;<b></b><!></p>" =
      slotted.marks shortMarkers := by
  refine ⟨rfl, rfl, ?_⟩
  exact marks_render_eq shortMarkers slotted rfl (.const (.list [.string "\">", .null]))
    (.const .undefined) (Scope.isHtmlFree_const rfl) (Scope.isHtmlFree_const rfl) _ _ rfl rfl

end HtmlTemplate
