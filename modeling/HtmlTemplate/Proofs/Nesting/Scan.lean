import HtmlTemplate.Markup.Tag

/-! The tags of a piece of markup, found by a scan that does not know how it was made. -/

namespace HtmlTemplate

inductive TagEvent where
  | opened (tag : String)
  | closed (tag : String)
  | selfClosed (tag : String)
  deriving DecidableEq, Repr

namespace TagEvent

def ofInner : List Char → TagEvent
  | [] => .opened ""
  | c :: cs =>
      if c = '/' then .closed (String.ofList cs)
      else if [' ', '/'].isSuffixOf (c :: cs) then
        .selfClosed (String.ofList ((c :: cs).takeWhile (· ≠ ' ')))
      else .opened (String.ofList ((c :: cs).takeWhile (· ≠ ' ')))

def wellNested : List String → List TagEvent → Bool
  | stack, [] => stack.isEmpty
  | stack, .opened tag :: es => wellNested (tag :: stack) es
  | stack, .selfClosed _ :: es => wellNested stack es
  | [], .closed _ :: _ => false
  | top :: stack, .closed tag :: es => tag = top && wellNested stack es

def start? : TagEvent → Option TagEvent
  | .closed _ => none
  | e => some e

end TagEvent

def isCommentStart (inner : List Char) : Bool :=
  ['!', '-', '-'].isPrefixOf inner

def endsComment (inner : List Char) : Bool :=
  ['-', '-'].isSuffixOf (inner.drop 3)

def scanFrom : Option (List Char) → List Char → Option (List TagEvent)
  | none, [] => some []
  | some _, [] => none
  | none, c :: cs =>
      if c = '<' then scanFrom (some []) cs
      else if c = '>' then none
      else scanFrom none cs
  | some inner, c :: cs =>
      if isCommentStart inner then
        if c = '>' && endsComment inner then scanFrom none cs
        else scanFrom (some (inner ++ [c])) cs
      else if c = '<' then none
      else if c = '>' then
        if inner.count '\x22' % 2 = 0 then (scanFrom none cs).map (TagEvent.ofInner inner :: ·)
        else none
      else scanFrom (some (inner ++ [c])) cs

def scanTags (markup : String) : Option (List TagEvent) :=
  scanFrom none markup.toList

def isBracket (c : Char) : Bool :=
  c = '<' || c = '>'

theorem ne_of_isBracket_eq_false {c : Char} (h : isBracket c = false) : c ≠ '<' ∧ c ≠ '>' := by
  simpa [isBracket] using h

def Reads (markup : String) (events : List TagEvent) : Prop :=
  ∀ rest, scanFrom none (markup.toList ++ rest) = (scanFrom none rest).map (events ++ ·)

namespace Reads

theorem scanTags_eq {markup : String} {events : List TagEvent} (h : Reads markup events) :
    scanTags markup = some events := by
  have hrest := h []
  simpa [scanFrom, scanTags] using hrest

example :
    scanTags "<p id=\"a\">b<br /></p>" = some [.opened "p", .selfClosed "br", .closed "p"] := by
  rfl

example : scanTags "<p id=\"a>b</p>" = none := by
  rfl

theorem empty : Reads "" [] := by
  intro rest
  simp

theorem append {a b : String} {es fs : List TagEvent} (ha : Reads a es) (hb : Reads b fs) :
    Reads (a ++ b) (es ++ fs) := by
  intro rest
  rw [String.toList_append, List.append_assoc, ha, hb, Option.map_map]
  congr 1
  funext ds
  exact (List.append_assoc es fs ds).symm

theorem content {text : String} (h : ∀ c ∈ text.toList, isBracket c = false) : Reads text [] := by
  intro rest
  have hskip (cs : List Char) (hcs : ∀ c ∈ cs, isBracket c = false) :
      scanFrom none (cs ++ rest) = scanFrom none rest := by
    induction cs with
    | nil => rfl
    | cons c cs ih =>
        obtain ⟨hl, hg⟩ := ne_of_isBracket_eq_false (hcs c List.mem_cons_self)
        rw [List.cons_append, scanFrom, if_neg hl, if_neg hg]
        exact ih fun d hd => hcs d (List.mem_cons_of_mem c hd)
  simp [hskip text.toList h]

end Reads

-- No prefix of what stands inside such a tag can start a comment, since its first character cannot.
theorem scanFrom_inside {c : Char} (hc : c ≠ '!') (read cs rest : List Char)
    (hcs : ∀ d ∈ cs, isBracket d = false) (hq : (c :: read ++ cs).count '\x22' % 2 = 0) :
    scanFrom (some (c :: read)) (cs ++ '>' :: rest) =
      (scanFrom none rest).map (TagEvent.ofInner (c :: read ++ cs) :: ·) := by
  have hcomment (ds : List Char) : isCommentStart (c :: ds) = false := by
    simp [isCommentStart, List.isPrefixOf, hc.symm]
  induction cs generalizing read with
  | nil =>
      rw [List.append_nil] at hq ⊢
      simp [scanFrom, hcomment, hq]
  | cons d cs ih =>
      obtain ⟨hl, hg⟩ := ne_of_isBracket_eq_false (hcs d List.mem_cons_self)
      have hsplit : c :: read ++ d :: cs = c :: (read ++ [d]) ++ cs := by simp
      rw [hsplit] at hq ⊢
      rw [List.cons_append, scanFrom, hcomment, if_neg Bool.false_ne_true, if_neg hl, if_neg hg]
      exact ih (read ++ [d]) (fun x hx => hcs x (List.mem_cons_of_mem d hx)) hq

theorem Reads.tag {c : Char} {cs : List Char} (hc : c ≠ '!')
    (hcs : ∀ d ∈ c :: cs, isBracket d = false) (hq : (c :: cs).count '\x22' % 2 = 0) :
    Reads (String.ofList ('<' :: c :: cs ++ ['>'])) [TagEvent.ofInner (c :: cs)] := by
  intro rest
  obtain ⟨hl, hg⟩ := ne_of_isBracket_eq_false (hcs c List.mem_cons_self)
  have hinside := scanFrom_inside hc [] cs rest (fun d hd => hcs d (List.mem_cons_of_mem c hd)) hq
  simpa [scanFrom, isCommentStart, hl, hg] using hinside

theorem scanFrom_comment (read cs rest : List Char) (hcs : ∀ c ∈ cs, c ≠ '>')
    (hend : ['-', '-'] <:+ read ++ cs) :
    scanFrom (some ('!' :: '-' :: '-' :: read)) (cs ++ '>' :: rest) = scanFrom none rest := by
  have hstart (ds : List Char) : isCommentStart ('!' :: '-' :: '-' :: ds) = true := by
    simp [isCommentStart]
  induction cs generalizing read with
  | nil =>
      have hends : endsComment ('!' :: '-' :: '-' :: read) = true := by
        rw [List.append_nil] at hend
        exact List.isSuffixOf_iff_suffix.mpr hend
      simp [scanFrom, hstart, hends]
  | cons c cs ih =>
      have hc : c ≠ '>' := hcs c List.mem_cons_self
      rw [List.append_cons] at hend
      have hrest := ih (read ++ [c]) (fun d hd => hcs d (List.mem_cons_of_mem c hd)) hend
      simpa [scanFrom, hstart, hc] using hrest

theorem Reads.comment (body : String) (h : ∀ c ∈ body.toList, c ≠ '>') :
    Reads ("<!--" ++ body ++ "-->") [] := by
  intro rest
  have hdashes : ∀ c ∈ ['-', '-'], c ≠ '>' := by simp
  have hcs : ∀ c ∈ body.toList ++ ['-', '-'], c ≠ '>' := by
    intro c hc
    rcases List.mem_append.mp hc with hc | hc
    · exact h c hc
    · exact hdashes c hc
  have hrest := scanFrom_comment [] (body.toList ++ ['-', '-']) rest hcs (List.suffix_append _ _)
  simpa [scanFrom, isCommentStart] using hrest

def Tag.isNameChar (c : Char) : Bool :=
  isAsciiLetter c || ('0' ≤ c && c ≤ '9') || c = '-'

namespace Attribute

def isNameChar (c : Char) : Bool :=
  Tag.isNameChar c || c = '_'

theorem isNameChar_of_tag {c : Char} (h : Tag.isNameChar c = true) : isNameChar c = true := by
  rw [isNameChar, h, Bool.true_or]

theorem ne_of_isNameChar {c d : Char} (hc : isNameChar c = true) (hd : isNameChar d = false) :
    c ≠ d := by
  intro h
  rw [h, hd] at hc
  cases hc

theorem isBracket_of_isNameChar {c : Char} (hc : isNameChar c = true) : isBracket c = false := by
  have hl : c ≠ '<' := ne_of_isNameChar hc (by decide)
  have hg : c ≠ '>' := ne_of_isNameChar hc (by decide)
  simp [isBracket, hl, hg]

theorem count_quote_eq_zero {cs : List Char} (h : ∀ c ∈ cs, isNameChar c = true) :
    cs.count '\x22' = 0 := by
  refine List.count_eq_zero.mpr fun hmem => ?_
  exact ne_of_isNameChar (h _ hmem) (by decide) rfl

end Attribute

structure IsAttributes (cs : List Char) : Prop where
  plain : ∀ c ∈ cs, isBracket c = false
  paired : cs.count '\x22' % 2 = 0
  head : ∀ c ∈ cs.head?, c = ' '
  last : ∀ c ∈ cs.getLast?, c ≠ '/'

namespace IsAttributes

theorem nil : IsAttributes [] :=
  ⟨nofun, rfl, nofun, nofun⟩

theorem append {cs ds : List Char} (hc : IsAttributes cs) (hd : IsAttributes ds) :
    IsAttributes (cs ++ ds) where
  plain := by
    intro c h
    rcases List.mem_append.mp h with h | h
    · exact hc.plain c h
    · exact hd.plain c h
  paired := by
    have h1 := hc.paired
    have h2 := hd.paired
    rw [List.count_append]
    omega
  head := by
    intro c h
    rw [List.head?_append] at h
    rcases Option.or_eq_some_iff.mp h with h | ⟨-, h⟩
    · exact hc.head c h
    · exact hd.head c h
  last := by
    intro c h
    rw [List.getLast?_append] at h
    rcases Option.or_eq_some_iff.mp h with h | ⟨-, h⟩
    · exact hd.last c h
    · exact hc.last c h

theorem flag {name : String} (h : ∀ c ∈ name.toList, Attribute.isNameChar c = true) :
    IsAttributes (" " ++ name).toList where
  plain := by
    intro c hc
    rcases List.mem_append.mp (String.toList_append .. ▸ hc) with hc | hc
    · cases List.mem_singleton.mp hc
      rfl
    · exact Attribute.isBracket_of_isNameChar (h c hc)
  paired := by simp [Attribute.count_quote_eq_zero h]
  head := by simp
  last := by
    intro c hc
    rw [String.toList_append, List.getLast?_append] at hc
    rcases Option.or_eq_some_iff.mp hc with hc | ⟨-, hc⟩
    · exact Attribute.ne_of_isNameChar (h c (List.mem_of_getLast? hc)) (by decide)
    · cases hc
      decide

theorem valued {name value : String} (h : ∀ c ∈ name.toList, Attribute.isNameChar c = true)
    (hv : ∀ c ∈ value.toList, isBracket c = false ∧ c ≠ '\x22') :
    IsAttributes (" " ++ name ++ "=\"" ++ value ++ "\"").toList where
  plain := by
    have hblank : ∀ c ∈ " ".toList, isBracket c = false := by simp [isBracket]
    have hopen : ∀ c ∈ "=\"".toList, isBracket c = false := by simp [isBracket]
    have hclose : ∀ c ∈ "\"".toList, isBracket c = false := by simp [isBracket]
    intro c hc
    simp only [String.toList_append, List.mem_append] at hc
    rcases hc with (((hc | hc) | hc) | hc) | hc
    · exact hblank c hc
    · exact Attribute.isBracket_of_isNameChar (h c hc)
    · exact hopen c hc
    · exact (hv c hc).1
    · exact hclose c hc
  paired := by
    have hvalue : value.toList.count '\x22' = 0 :=
      List.count_eq_zero.mpr fun hmem => (hv _ hmem).2 rfl
    simp [Attribute.count_quote_eq_zero h, hvalue]
  head := by simp
  last := by
    intro c hc
    rw [String.toList_append, List.getLast?_append] at hc
    cases hc
    decide

end IsAttributes

structure Tag.IsName (tag : String) : Prop where
  ne_nil : tag.toList ≠ []
  all : ∀ c ∈ tag.toList, Tag.isNameChar c = true

section Tags

variable {tag : String} {cs : List Char} (ht : Tag.IsName tag) (ha : IsAttributes cs)
include ht

theorem Tag.IsName.eq_cons : ∃ c ds, tag.toList = c :: ds ∧ Attribute.isNameChar c = true := by
  obtain ⟨c, ds, h⟩ := List.exists_cons_of_ne_nil ht.ne_nil
  have hc : c ∈ tag.toList := h ▸ List.mem_cons_self
  exact ⟨c, ds, h, Attribute.isNameChar_of_tag (ht.all c hc)⟩

theorem Tag.IsName.isBracket {c : Char} (h : c ∈ tag.toList) : isBracket c = false :=
  Attribute.isBracket_of_isNameChar (Attribute.isNameChar_of_tag (ht.all c h))

theorem Tag.IsName.count_quote : tag.toList.count '\x22' = 0 :=
  Attribute.count_quote_eq_zero fun c hc => Attribute.isNameChar_of_tag (ht.all c hc)

theorem Tag.IsName.takeWhile_append (h : ∀ c ∈ cs.head?, c = ' ') :
    (tag.toList ++ cs).takeWhile (· ≠ ' ') = tag.toList := by
  have hname : ∀ c ∈ tag.toList, decide (c ≠ ' ') = true := by
    intro c hc
    exact decide_eq_true
      (Attribute.ne_of_isNameChar (Attribute.isNameChar_of_tag (ht.all c hc)) (by decide))
  have hcs : cs.takeWhile (· ≠ ' ') = [] := by
    cases cs with
    | nil => rfl
    | cons c cs => simp [h c rfl]
  rw [List.takeWhile_append_of_pos hname, hcs, List.append_nil]

include ha

theorem not_suffix_of_isAttributes : ¬ [' ', '/'] <:+ tag.toList ++ cs := by
  rintro ⟨pre, h⟩
  have hslash : (tag.toList ++ cs).getLast? = some '/' := by
    rw [← h, List.getLast?_append]
    rfl
  rw [List.getLast?_append] at hslash
  rcases Option.or_eq_some_iff.mp hslash with hlast | ⟨-, hlast⟩
  · exact ha.last _ hlast rfl
  · have hname := Attribute.isNameChar_of_tag (ht.all _ (List.mem_of_getLast? hlast))
    exact Attribute.ne_of_isNameChar hname (by decide) rfl

theorem TagEvent.ofInner_opened : ofInner (tag.toList ++ cs) = .opened tag := by
  have htake := ht.takeWhile_append ha.head
  have hsuffix : [' ', '/'].isSuffixOf (tag.toList ++ cs) = false := by
    rw [← Bool.not_eq_true, List.isSuffixOf_iff_suffix]
    exact not_suffix_of_isAttributes ht ha
  obtain ⟨c, ds, heq, hc⟩ := ht.eq_cons
  rw [heq, List.cons_append] at htake hsuffix ⊢
  have hslash : c ≠ '/' := Attribute.ne_of_isNameChar hc (by decide)
  rw [ofInner, if_neg hslash, hsuffix, if_neg Bool.false_ne_true, htake, ← heq,
    String.ofList_toList]

theorem TagEvent.ofInner_selfClosed :
    ofInner (tag.toList ++ (cs ++ [' ', '/'])) = .selfClosed tag := by
  have hhead : ∀ c ∈ (cs ++ [' ', '/']).head?, c = ' ' := by
    intro c hc
    rw [List.head?_append] at hc
    rcases Option.or_eq_some_iff.mp hc with hc | ⟨-, hc⟩
    · exact ha.head c hc
    · cases hc
      rfl
  have htake := ht.takeWhile_append hhead
  have hsuffix : [' ', '/'].isSuffixOf (tag.toList ++ (cs ++ [' ', '/'])) = true := by
    rw [List.isSuffixOf_iff_suffix, ← List.append_assoc]
    exact List.suffix_append _ _
  obtain ⟨c, ds, heq, hc⟩ := ht.eq_cons
  rw [heq, List.cons_append] at htake hsuffix ⊢
  have hslash : c ≠ '/' := Attribute.ne_of_isNameChar hc (by decide)
  rw [ofInner, if_neg hslash, if_pos hsuffix, htake, ← heq, String.ofList_toList]

end Tags

namespace Reads

variable {tag attributes : String} (ht : Tag.IsName tag)
include ht

theorem named {cs : List Char} (hplain : ∀ c ∈ cs, isBracket c = false)
    (hpaired : cs.count '\x22' % 2 = 0) :
    Reads (String.ofList ('<' :: (tag.toList ++ cs) ++ ['>']))
      [TagEvent.ofInner (tag.toList ++ cs)] := by
  have hbracket : ∀ c ∈ tag.toList ++ cs, isBracket c = false := by
    intro c hc
    rcases List.mem_append.mp hc with hc | hc
    · exact ht.isBracket hc
    · exact hplain c hc
  have hquote : (tag.toList ++ cs).count '\x22' % 2 = 0 := by
    rw [List.count_append, ht.count_quote, Nat.zero_add]
    exact hpaired
  obtain ⟨c, ds, heq, hc⟩ := ht.eq_cons
  rw [heq, List.cons_append] at hbracket hquote ⊢
  exact Reads.tag (Attribute.ne_of_isNameChar hc (by decide)) hbracket hquote

theorem opened (ha : IsAttributes attributes.toList) :
    Reads ("<" ++ tag ++ attributes ++ ">") [.opened tag] := by
  have h := Reads.named ht ha.plain ha.paired
  rw [TagEvent.ofInner_opened ht ha] at h
  intro rest
  have hrest := h rest
  simpa [List.append_assoc] using hrest

theorem selfClosed (ha : IsAttributes attributes.toList) :
    Reads ("<" ++ tag ++ attributes ++ " />") [.selfClosed tag] := by
  have hend : ∀ c ∈ [' ', '/'], isBracket c = false := by simp [isBracket]
  have hplain : ∀ c ∈ attributes.toList ++ [' ', '/'], isBracket c = false := by
    intro c hc
    rcases List.mem_append.mp hc with hc | hc
    · exact ha.plain c hc
    · exact hend c hc
  have hpaired : (attributes.toList ++ [' ', '/']).count '\x22' % 2 = 0 := by
    rw [List.count_append]
    exact ha.paired
  have h := Reads.named ht hplain hpaired
  rw [TagEvent.ofInner_selfClosed ht ha] at h
  intro rest
  have hrest := h rest
  simpa [List.append_assoc] using hrest

theorem closed : Reads ("</" ++ tag ++ ">") [.closed tag] := by
  have hplain : ∀ c ∈ '/' :: tag.toList, isBracket c = false := by
    intro c hc
    rcases List.mem_cons.mp hc with rfl | hc
    · rfl
    · exact ht.isBracket hc
  have hpaired : ('/' :: tag.toList).count '\x22' % 2 = 0 := by
    rw [List.count_cons_of_ne (by decide), ht.count_quote]
  have h := Reads.tag (by decide) hplain hpaired
  rw [TagEvent.ofInner, if_pos rfl, String.ofList_toList] at h
  intro rest
  have hrest := h rest
  simpa [List.append_assoc] using hrest

end Reads

end HtmlTemplate
