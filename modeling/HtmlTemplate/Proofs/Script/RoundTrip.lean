import HtmlTemplate.Proofs.Script.Reader

namespace HtmlTemplate

open Script

variable {n : ScriptNames}

namespace Script

def marks : List Char :=
  ['\x22', '\x60', '[', '\x7b', '(']

def closers : List Char :=
  [',', ']', '\x7d', ')', ' ']

theorem not_isNameChar_of_mem {c : Char} (h : c ∈ marks ++ closers) :
    isNameChar c = false ∧ c ≠ '.' := by
  have hall : (marks ++ closers).all (fun c => !isNameChar c && c != '.') = true := by decide
  simpa using List.all_eq_true.mp hall c h

def EndsTerm (k : List Char) : Prop :=
  ∀ c ∈ k.head?, c ∈ closers

theorem endsName_of_endsTerm {k : List Char} (hk : EndsTerm k) : EndsName k := by
  intro c hc
  exact (not_isNameChar_of_mem (List.mem_append_right marks (hk c hc))).1

theorem endsTerm_nil : EndsTerm [] := by
  intro c hc
  cases hc

theorem endsTerm_cons {c : Char} {k : List Char} (h : c ∈ closers) :
    EndsTerm (c :: k) := by
  intro d hd
  cases hd
  exact h

end Script

theorem ObjectLiteral.scriptChars_eq_cons (n : ScriptNames) (o : ObjectLiteral String) :
    ∃ cs, o.scriptChars n = '\x7b' :: cs := by
  obtain ⟨entries⟩ := o
  rw [ObjectLiteral.scriptChars]
  cases entries with
  | nil => exact ⟨_, rfl⟩
  | cons e es => exact ⟨_, rfl⟩

namespace Term

def name (n : ScriptNames) : Term String → List Char
  | .host handle => handle.toList
  | .str _ => []
  | .bool value => boolChars value
  | .template _ => n.html.toList
  | .list _ => []
  | .object _ => []
  | .raw _ => n.rawHtml.toList
  | .attributes _ => n.rawHtml.toList
  | .call callee _ => callee.toList

def tail (n : ScriptNames) : Term String → List Char
  | .host _ => []
  | .str text => Json.quoted text
  | .bool _ => []
  | .template t => '\x60' :: (Segment.listScript n t.segments ++ ['\x60'])
  | .list items => bracketed (listScripts n items)
  | .object o => o.scriptChars n
  | .raw inner => '(' :: (inner.scriptChars n ++ [')'])
  | .attributes o => '(' :: (entriesCall n ++ (o.scriptChars n ++ (attributeListEnd n).toList))
  | .call _ props => '(' :: (props.scriptChars n ++ [')'])

theorem scriptChars_eq (n : ScriptNames) (t : Term String) :
    t.scriptChars n = t.name n ++ t.tail n := by
  cases t with
  | host handle => rw [scriptChars, name, tail, List.append_nil]
  | str text => rw [scriptChars, name, tail, List.nil_append]
  | bool value => rw [scriptChars, name, tail, List.append_nil]
  | template t =>
      obtain ⟨segments⟩ := t
      rw [scriptChars, name, tail, Template.scriptChars]
  | list items => rw [scriptChars, name, tail, List.nil_append]
  | object o => rw [scriptChars, name, tail, List.nil_append]
  | raw inner => rw [scriptChars, name, tail, applied]
  | attributes o =>
      rw [scriptChars, name, tail, attributeList, attributeListStart, entriesCall]
      simp only [String.toList_append, List.append_assoc]
      rfl
  | call callee props => rw [scriptChars, name, tail, applied]

section

variable {t : Term String} {k : List Char}

theorem all_isNameChar_name (hn : n.areIdentifiers = true) (ht : t.isWellFormed n = true) :
    (t.name n).all isNameChar = true := by
  simp only [ScriptNames.areIdentifiers, Bool.and_eq_true] at hn
  obtain ⟨⟨hhtml, hraw⟩, -⟩ := hn
  cases t with
  | host handle =>
      simp only [isWellFormed, isHandle, Bool.and_eq_true] at ht
      exact all_isNameChar ht.1.1
  | bool value => cases value <;> rfl
  | template t => exact all_isNameChar hhtml
  | raw inner => exact all_isNameChar hraw
  | attributes o => exact all_isNameChar hraw
  | call callee props =>
      simp only [isWellFormed, Bool.and_eq_true] at ht
      exact all_isNameChar ht.1.1
  | str text => rfl
  | list items => rfl
  | object o => rfl

theorem head?_tail (hk : EndsTerm k) : ∀ c ∈ (t.tail n ++ k).head?, c ∈ marks ++ closers := by
  intro c hc
  cases t with
  | host handle => exact List.mem_append_right _ (hk c hc)
  | bool value => exact List.mem_append_right _ (hk c hc)
  | object o =>
      obtain ⟨cs, ho⟩ := ObjectLiteral.scriptChars_eq_cons n o
      rw [tail, ho] at hc
      cases hc
      decide
  | _ => cases hc; decide

theorem endsName_tail (hk : EndsTerm k) : EndsName (t.tail n ++ k) := by
  intro c hc
  exact (not_isNameChar_of_mem (head?_tail hk c hc)).1

theorem tail_append_ne_dot (hk : EndsTerm k) (r : List Char) : t.tail n ++ k ≠ '.' :: r := by
  intro h
  have hd := head?_tail (n := n) (t := t) hk '.' (by rw [h]; rfl)
  exact (not_isNameChar_of_mem hd).2 rfl

section

variable (hn : n.areIdentifiers = true) (ht : t.isWellFormed n = true) (hk : EndsTerm k)
include hn ht hk

theorem scanName_scriptChars :
    scanName (t.scriptChars n ++ k) = (t.name n, t.tail n ++ k) := by
  rw [scriptChars_eq, List.append_assoc]
  exact scanName_append (all_isNameChar_name hn ht) (endsName_tail hk)

theorem tail_eq_of_scriptChars_append (name r : List Char) (hname : name.all isNameChar = true)
    (hr : EndsName r) (h : t.scriptChars n ++ k = name ++ r) : t.tail n ++ k = r := by
  rw [scriptChars_eq, List.append_assoc] at h
  exact (name_append_inj (all_isNameChar_name hn ht) hname (endsName_tail hk) hr h).2

theorem scriptChars_append_ne_object (r : List Char) :
    t.scriptChars n ++ k ≠ "Object".toList ++ '.' :: r := by
  intro h
  have hr : EndsName ('.' :: r) := endsName_cons (by decide)
  have htail := tail_eq_of_scriptChars_append hn ht hk _ _ (by decide) hr h
  exact tail_append_ne_dot hk _ htail

theorem skip_entriesCall : skip (entriesCall n) (t.scriptChars n ++ k) = none := by
  have hjoin : n.joinHtml.toList.all isNameChar = true := by
    simp only [ScriptNames.areIdentifiers, Bool.and_eq_true] at hn
    exact all_isNameChar hn.2
  cases hs : skip (entriesCall n) (t.scriptChars n ++ k) with
  | none => rfl
  | some r =>
      exfalso
      have h := eq_append_of_skip hs
      simp only [entriesCall, List.append_assoc, List.cons_append] at h
      generalize "entries(".toList ++ r = r at h
      have hr : EndsName ('(' :: ("Object".toList ++ '.' :: r)) := endsName_cons (by decide)
      have htail := tail_eq_of_scriptChars_append hn ht hk _ _ hjoin hr h
      cases t with
      | host handle =>
          rw [show k = _ from htail] at hk
          exact absurd (hk '(' rfl) (by decide)
      | str text => simp [tail, Json.quoted, Json.quotedChars] at htail
      | bool value =>
          rw [show k = _ from htail] at hk
          exact absurd (hk '(' rfl) (by decide)
      | template t => simp [tail] at htail
      | list items => simp [tail, bracketed] at htail
      | object o =>
          obtain ⟨cs, ho⟩ := ObjectLiteral.scriptChars_eq_cons n o
          simp [tail, ho] at htail
      | raw inner =>
          rw [isWellFormed] at ht
          simp only [tail, List.cons_append, List.append_assoc, List.cons.injEq, true_and] at htail
          exact scriptChars_append_ne_object hn ht (endsTerm_cons (by decide)) r htail
      | attributes o =>
          simp only [tail, entriesCall, List.cons_append, List.append_assoc, List.cons.injEq,
            true_and] at htail
          have hname := name_append_inj hjoin (by decide) (endsName_cons (by decide))
            (endsName_cons (by decide)) htail
          exact absurd (List.cons.inj hname.2).1 (by decide)
      | call callee props =>
          obtain ⟨cs, ho⟩ := ObjectLiteral.scriptChars_eq_cons n props
          simp only [tail, ho, List.cons_append, List.cons.injEq, true_and] at htail
          exact absurd (List.cons.inj htail).1 (by decide)

end

end

theorem scriptChars_eq_cons (hn : n.areIdentifiers = true) {t : Term String}
    (ht : t.isWellFormed n = true) : ∃ c cs, t.scriptChars n = c :: cs ∧ c ≠ ']' := by
  have hident {s : String} (hs : isIdentifier s = true) (cs : List Char) :
      ∃ c ds, s.toList ++ cs = c :: ds ∧ c ≠ ']' := by
    obtain ⟨c, ds, h, hc⟩ := toList_eq_cons hs
    refine ⟨c, ds ++ cs, by rw [h, List.cons_append], ?_⟩
    rintro rfl
    exact absurd hc (by decide)
  simp only [ScriptNames.areIdentifiers, Bool.and_eq_true] at hn
  rw [scriptChars_eq]
  cases t with
  | host handle =>
      simp only [isWellFormed, isHandle, Bool.and_eq_true] at ht
      exact hident ht.1.1 _
  | str text => exact ⟨'\x22', _, rfl, by decide⟩
  | bool value => cases value <;> exact ⟨_, _, rfl, by decide⟩
  | template t => exact hident hn.1.1 _
  | list items => exact ⟨'[', _, rfl, by decide⟩
  | object o =>
      obtain ⟨cs, ho⟩ := ObjectLiteral.scriptChars_eq_cons n o
      exact ⟨'\x7b', cs, ho, by decide⟩
  | raw inner => exact hident hn.1.2 _
  | attributes o => exact hident hn.1.2 _
  | call callee props =>
      simp only [isWellFormed, Bool.and_eq_true] at ht
      exact hident ht.1.1 _

end Term

namespace Script

variable {fuel : Nat} {k : List Char}

-- The equations of the reader are large: this makes them once for all the steps that follow.
attribute [local simp] readTerm readItems readSegments readObject readEntries readEntry

theorem readTerm_ofName {name : List Char} (hname : name.all isNameChar = true)
    (hk : EndsTerm k) : readTerm n (fuel + 1) (name ++ k) = some (ofName name, k) := by
  rw [readTerm, scanName_append hname (endsName_of_endsTerm hk)]
  cases k with
  | nil => rfl
  | cons c k =>
      have hc := hk c rfl
      simp only [closers, List.mem_cons, List.not_mem_nil, or_false] at hc
      rcases hc with rfl | rfl | rfl | rfl | rfl <;> rfl

theorem ofName_handle {handle : String} (h : isHandle handle = true) :
    ofName handle.toList = .host handle := by
  simp only [isHandle, Bool.and_eq_true, decide_eq_true_eq] at h
  obtain ⟨⟨-, htrue⟩, hfalse⟩ := h
  have ht : handle.toList ≠ boolChars true := fun he => htrue (String.toList_injective he)
  have hf : handle.toList ≠ boolChars false := fun he => hfalse (String.toList_injective he)
  rw [ofName, if_neg ht, if_neg hf, String.ofList_toList]

theorem ofName_boolChars (value : Bool) : ofName (boolChars value) = .bool value := by
  cases value <;> rfl

theorem readTerm_str (text : String) :
    readTerm n (fuel + 1) (Json.quoted text ++ k) = some (.str text, k) := by
  obtain ⟨cs, hcs, h⟩ := Json.readString_quoted text k
  have hs : scanName ('\x22' :: cs) = ([], '\x22' :: cs) := rfl
  rw [hcs, readTerm, hs]
  simp only [h]
  rfl

section

variable (hn : n.areIdentifiers = true) (hk : EndsTerm k)
include hn hk

theorem readTerm_template {segments : List (Segment String)}
    (ht : (Term.template ⟨segments⟩).isWellFormed n = true)
    (h : readSegments n fuel (Segment.listScript n segments ++ '\x60' :: k) =
      some (segments, k)) :
    readTerm n (fuel + 1) ((Term.template ⟨segments⟩).scriptChars n ++ k) =
      some (.template ⟨segments⟩, k) := by
  rw [readTerm, Term.scanName_scriptChars hn ht hk]
  simp only [Term.tail, List.cons_append, List.append_assoc, List.nil_append, h]
  rfl

theorem readTerm_items {t : Term String} {ts : List (Term String)}
    (ht : (Term.list (t :: ts)).isWellFormed n = true)
    (h : readItems n fuel
        (List.intercalate [',', ' '] (Term.listScripts n (t :: ts)) ++ ']' :: k) =
      some (t :: ts, k)) :
    readTerm n (fuel + 1) ((Term.list (t :: ts)).scriptChars n ++ k) =
      some (.list (t :: ts), k) := by
  rw [readTerm, Term.scanName_scriptChars hn ht hk]
  simp only [Term.isWellFormed, Term.allWellFormed, Bool.and_eq_true] at ht
  obtain ⟨c, cs, hcs, hc⟩ := Term.scriptChars_eq_cons hn ht.1
  have hskip : skip [']'] (List.intercalate [',', ' '] (Term.listScripts n (t :: ts)) ++ ']' :: k) =
      none := by
    rw [Term.listScripts, hcs, List.intercalate_cons_cons_left, List.cons_append]
    exact skip_of_ne hc _ _
  simp only [Term.tail, bracketed, List.cons_append, List.append_assoc, List.nil_append, hskip, h]
  rfl

theorem readTerm_list_nil :
    readTerm n (fuel + 1) ((Term.list []).scriptChars n ++ k) = some (.list [], k) := by
  rw [readTerm, Term.scanName_scriptChars hn rfl hk]
  rfl

theorem readTerm_object {o : ObjectLiteral String} (ht : (Term.object o).isWellFormed n = true)
    (h : readObject n fuel (o.scriptChars n ++ k) = some (o, k)) :
    readTerm n (fuel + 1) ((Term.object o).scriptChars n ++ k) = some (.object o, k) := by
  obtain ⟨cs, hcs⟩ := ObjectLiteral.scriptChars_eq_cons n o
  rw [hcs, List.cons_append] at h
  rw [readTerm, Term.scanName_scriptChars hn ht hk]
  simp only [Term.tail, hcs, List.cons_append, h]
  rfl

theorem readTerm_raw {inner : Term String} (ht : (Term.raw inner).isWellFormed n = true)
    (h : readTerm n fuel (inner.scriptChars n ++ ')' :: k) = some (inner, ')' :: k)) :
    readTerm n (fuel + 1) ((Term.raw inner).scriptChars n ++ k) = some (.raw inner, k) := by
  rw [readTerm, Term.scanName_scriptChars hn ht hk]
  rw [Term.isWellFormed] at ht
  have hskip := Term.skip_entriesCall hn ht (k := ')' :: k) (endsTerm_cons (by decide))
  simp only [Term.tail, Term.name, List.cons_append, List.append_assoc, List.nil_append, hskip, h,
    if_true]
  rfl

theorem readTerm_attributes {o : ObjectLiteral String}
    (ht : (Term.attributes o).isWellFormed n = true)
    (h : readObject n fuel (o.scriptChars n ++ ((attributeListEnd n).toList ++ k)) =
      some (o, (attributeListEnd n).toList ++ k)) :
    readTerm n (fuel + 1) ((Term.attributes o).scriptChars n ++ k) = some (.attributes o, k) := by
  rw [readTerm, Term.scanName_scriptChars hn ht hk]
  simp only [Term.tail, Term.name, List.cons_append, List.append_assoc, skip_append, h, if_true,
    Option.bind_eq_bind, Option.bind_some]
  rfl

theorem readTerm_call {callee : String} {props : ObjectLiteral String}
    (ht : (Term.call callee props).isWellFormed n = true)
    (h : readObject n fuel (props.scriptChars n ++ ')' :: k) = some (props, ')' :: k)) :
    readTerm n (fuel + 1) ((Term.call callee props).scriptChars n ++ k) =
      some (.call callee props, k) := by
  rw [readTerm, Term.scanName_scriptChars hn ht hk]
  simp only [Term.isWellFormed, Bool.and_eq_true, decide_eq_true_eq] at ht
  have hne : callee.toList ≠ n.rawHtml.toList := fun he => ht.1.2 (String.toList_injective he)
  simp only [Term.tail, Term.name, List.cons_append, List.append_assoc, List.nil_append, h,
    if_neg hne, String.ofList_toList]
  rfl

end

section

variable {t : Term String} {e : Entry String} {cs rest : List Char}

theorem readItems_last (h : readTerm n fuel cs = some (t, ']' :: k)) :
    readItems n (fuel + 1) cs = some ([t], k) := by
  rw [readItems, h]
  rfl

theorem readItems_more {ts : List (Term String)}
    (h : readTerm n fuel cs = some (t, ',' :: ' ' :: rest))
    (hs : readItems n fuel rest = some (ts, k)) :
    readItems n (fuel + 1) cs = some (t :: ts, k) := by
  rw [readItems, h]
  simp only [Option.bind_eq_bind, Option.bind_some, hs]
  rfl

theorem readSegments_last (text : String) :
    readSegments n (fuel + 1) (literalChars text.toList ++ '\x60' :: k) =
      some ([.literal text], k) := by
  rw [readSegments, scanLiteral_literalChars _ (.close k)]
  simp only [String.ofList_toList]

theorem readSegments_more {segments : List (Segment String)} (text : String)
    (h : readTerm n fuel cs = some (t, '\x7d' :: rest))
    (hs : readSegments n fuel rest = some (segments, k)) :
    readSegments n (fuel + 1) (literalChars text.toList ++ '$' :: '\x7b' :: cs) =
      some (.literal text :: .expression t :: segments, k) := by
  have hskip : skip ['\x7d'] ('\x7d' :: rest) = some rest := skip_append ['\x7d'] rest
  rw [readSegments, scanLiteral_literalChars _ (.substitution cs)]
  simp only [Option.bind_eq_bind, Option.bind_some, h, hskip, hs, String.ofList_toList]
  rfl

theorem readObject_cons {es : List (Entry String)}
    (h : readEntries n fuel cs = some (es, k)) :
    readObject n (fuel + 1) ('\x7b' :: ' ' :: cs) = some (⟨es⟩, k) := by
  rw [readObject, h]
  rfl

theorem readEntries_last (h : readEntry n fuel cs = some (e, ' ' :: '\x7d' :: k)) :
    readEntries n (fuel + 1) cs = some ([e], k) := by
  rw [readEntries, h]
  rfl

theorem readEntries_more {es : List (Entry String)}
    (h : readEntry n fuel cs = some (e, ',' :: ' ' :: rest))
    (hs : readEntries n fuel rest = some (es, k)) :
    readEntries n (fuel + 1) cs = some (e :: es, k) := by
  rw [readEntries, h]
  simp only [Option.bind_eq_bind, Option.bind_some, hs]
  rfl

theorem readEntry_field (key : String) (h : readTerm n fuel cs = some (t, k)) :
    readEntry n (fuel + 1) (Json.quoted key ++ ':' :: ' ' :: cs) = some (.field key t, k) := by
  obtain ⟨ds, hds, hs⟩ := Json.readString_quoted key (':' :: ' ' :: cs)
  have hskip : skip [':', ' '] (':' :: ' ' :: cs) = some cs := skip_append [':', ' '] cs
  rw [hds, readEntry]
  simp only [Option.bind_eq_bind, Option.bind_some, hs, hskip, h]
  rfl

theorem readEntry_spread {handle : String} (h : isHandle handle = true) (hk : EndsTerm k) :
    readEntry n (fuel + 1) ('.' :: '.' :: '.' :: (handle.toList ++ k)) =
      some (.spread handle, k) := by
  simp only [isHandle, Bool.and_eq_true] at h
  rw [readEntry, scanName_append (all_isNameChar h.1.1) (endsName_of_endsTerm hk),
    String.ofList_toList]

end

end Script

-- The length of a script is fuel for all its parts: each is shorter by the marks around it.
mutual

theorem readTerm_scriptChars (hn : n.areIdentifiers = true) :
    (t : Term String) → ∀ {fuel : Nat} {k : List Char},
    t.isWellFormed n = true → (t.scriptChars n).length < fuel → EndsTerm k →
    readTerm n fuel (t.scriptChars n ++ k) = some (t, k)
  | t, 0, _, _, hf, _ => absurd hf (Nat.not_lt_zero _)
  | .host handle, fuel + 1, k, ht, _, hk => by
      have hname : handle.toList.all isNameChar = true := Term.all_isNameChar_name hn ht
      rw [Term.scriptChars, readTerm_ofName hname hk, ofName_handle ht]
  | .str text, fuel + 1, k, _, _, _ => readTerm_str text
  | .bool value, fuel + 1, k, ht, _, hk => by
      have hname : (boolChars value).all isNameChar = true := Term.all_isNameChar_name hn ht
      rw [Term.scriptChars, readTerm_ofName hname hk, ofName_boolChars]
  | .template ⟨segments⟩, fuel + 1, k, ht, hf, hk => by
      apply readTerm_template hn hk ht
      apply readSegments_listScript hn segments ht
      simp only [Term.scriptChars, Template.scriptChars, List.length_append, List.length_cons] at hf
      omega
  | .list [], fuel + 1, k, _, _, hk => readTerm_list_nil hn hk
  | .list (t :: ts), fuel + 1, k, ht, hf, hk => by
      apply readTerm_items hn hk ht
      apply readItems_listScripts hn (t :: ts) (List.cons_ne_nil t ts) ht
      simp only [Term.scriptChars, bracketed, List.length_append, List.length_cons] at hf
      omega
  | .object o, fuel + 1, k, ht, hf, hk => by
      apply readTerm_object hn hk ht
      exact readObject_scriptChars hn o ht (Nat.le_of_lt_succ hf)
  | .raw inner, fuel + 1, k, ht, hf, hk => by
      apply readTerm_raw hn hk ht
      apply readTerm_scriptChars hn inner ht ?_ (endsTerm_cons (by decide))
      simp only [Term.scriptChars, applied, List.length_append, List.length_cons] at hf
      omega
  | .attributes o, fuel + 1, k, ht, hf, hk => by
      apply readTerm_attributes hn hk ht
      apply readObject_scriptChars hn o ht
      simp only [Term.scriptChars, attributeList, List.length_append] at hf
      omega
  | .call callee props, fuel + 1, k, ht, hf, hk => by
      apply readTerm_call hn hk ht
      simp only [Term.isWellFormed, Bool.and_eq_true] at ht
      apply readObject_scriptChars hn props ht.2
      simp only [Term.scriptChars, applied, List.length_append, List.length_cons] at hf
      omega

theorem readItems_listScripts (hn : n.areIdentifiers = true) :
    (ts : List (Term String)) → ∀ {fuel : Nat} {k : List Char},
    ts ≠ [] → Term.allWellFormed n ts = true →
    (List.intercalate [',', ' '] (Term.listScripts n ts)).length + 1 < fuel →
    readItems n fuel (List.intercalate [',', ' '] (Term.listScripts n ts) ++ ']' :: k) =
      some (ts, k)
  | [], _, _, hne, _, _ => absurd rfl hne
  | _ :: _, 0, _, _, _, hf => absurd hf (Nat.not_lt_zero _)
  | [t], fuel + 1, k, _, ht, hf => by
      simp only [Term.allWellFormed, Bool.and_true] at ht
      simp only [Term.listScripts, List.intercalate_singleton] at hf ⊢
      apply readItems_last
      exact readTerm_scriptChars hn t ht (by omega) (endsTerm_cons (by decide))
  | t :: u :: us, fuel + 1, k, _, ht, hf => by
      rw [Term.allWellFormed, Bool.and_eq_true] at ht
      rw [Term.listScripts, Term.listScripts, List.intercalate_cons_cons, ← Term.listScripts]
        at hf ⊢
      simp only [List.length_append, List.length_cons] at hf
      simp only [List.append_assoc, List.cons_append, List.nil_append]
      apply readItems_more
      · exact readTerm_scriptChars hn t ht.1 (by omega) (endsTerm_cons (by decide))
      · exact readItems_listScripts hn (u :: us) (List.cons_ne_nil u us) ht.2 (by omega)

theorem readSegments_listScript (hn : n.areIdentifiers = true) :
    (segments : List (Segment String)) → ∀ {fuel : Nat} {k : List Char},
    Template.isWellFormed n ⟨segments⟩ = true → (Segment.listScript n segments).length < fuel →
    readSegments n fuel (Segment.listScript n segments ++ '\x60' :: k) = some (segments, k)
  | _, 0, _, _, hf => absurd hf (Nat.not_lt_zero _)
  | [.literal text], fuel + 1, k, _, _ => by
      rw [Segment.listScript, Segment.listScript, List.append_nil]
      exact readSegments_last text
  | .literal text :: .expression t :: segments, fuel + 1, k, ht, hf => by
      simp only [Template.isWellFormed, Segment.alternates, Segment.allWellFormed,
        Segment.isWellFormed, Bool.and_eq_true, Bool.true_and] at ht
      obtain ⟨ha, ht, hs⟩ := ht
      simp only [Segment.listScript, Segment.scriptChars, List.append_assoc, List.cons_append,
        List.nil_append, List.length_append, List.length_cons] at hf ⊢
      apply readSegments_more
      · exact readTerm_scriptChars hn t ht (by omega) (endsTerm_cons (by decide))
      · apply readSegments_listScript hn segments ?_ (by omega)
        rw [Template.isWellFormed, ha, hs, Bool.and_self]
  | [], _ + 1, _, ht, _ => by cases ht
  | .expression _ :: _, _ + 1, _, ht, _ => by cases ht
  | .literal _ :: .literal _ :: _, _ + 1, _, ht, _ => by cases ht

theorem readObject_scriptChars (hn : n.areIdentifiers = true) :
    (o : ObjectLiteral String) → ∀ {fuel : Nat} {k : List Char},
    o.isWellFormed n = true → (o.scriptChars n).length ≤ fuel →
    readObject n fuel (o.scriptChars n ++ k) = some (o, k)
  | ⟨[]⟩, 0, _, _, hf => absurd hf (Nat.not_succ_le_zero _)
  | ⟨e :: es⟩, 0, _, _, hf => absurd hf (Nat.not_succ_le_zero _)
  | ⟨[]⟩, fuel + 1, k, _, _ => rfl
  | ⟨e :: es⟩, fuel + 1, k, ho, hf => by
      rw [ObjectLiteral.isWellFormed] at ho
      have hb : ObjectLiteral.scriptChars n ⟨e :: es⟩ = '\x7b' :: ' ' ::
          (List.intercalate [',', ' '] (Entry.listScripts n (e :: es)) ++ [' ', '\x7d']) := rfl
      rw [hb] at hf ⊢
      simp only [List.length_append, List.length_cons] at hf
      simp only [List.append_assoc, List.cons_append, List.nil_append]
      apply readObject_cons
      exact readEntries_listScripts hn (e :: es) (List.cons_ne_nil e es) ho (by omega)

theorem readEntries_listScripts (hn : n.areIdentifiers = true) :
    (es : List (Entry String)) → ∀ {fuel : Nat} {k : List Char},
    es ≠ [] → Entry.allWellFormed n es = true →
    (List.intercalate [',', ' '] (Entry.listScripts n es)).length + 1 < fuel →
    readEntries n fuel
        (List.intercalate [',', ' '] (Entry.listScripts n es) ++ ' ' :: '\x7d' :: k) =
      some (es, k)
  | [], _, _, hne, _, _ => absurd rfl hne
  | _ :: _, 0, _, _, _, hf => absurd hf (Nat.not_lt_zero _)
  | [e], fuel + 1, k, _, he, hf => by
      simp only [Entry.allWellFormed, Bool.and_true] at he
      simp only [Entry.listScripts, List.intercalate_singleton] at hf ⊢
      apply readEntries_last
      exact readEntry_scriptChars hn e he (by omega) (endsTerm_cons (by decide))
  | e :: f :: fs, fuel + 1, k, _, he, hf => by
      rw [Entry.allWellFormed, Bool.and_eq_true] at he
      rw [Entry.listScripts, Entry.listScripts, List.intercalate_cons_cons, ← Entry.listScripts]
        at hf ⊢
      simp only [List.length_append, List.length_cons] at hf
      simp only [List.append_assoc, List.cons_append, List.nil_append]
      apply readEntries_more
      · exact readEntry_scriptChars hn e he.1 (by omega) (endsTerm_cons (by decide))
      · exact readEntries_listScripts hn (f :: fs) (List.cons_ne_nil f fs) he.2 (by omega)

theorem readEntry_scriptChars (hn : n.areIdentifiers = true) :
    (e : Entry String) → ∀ {fuel : Nat} {k : List Char},
    e.isWellFormed n = true → (e.scriptChars n).length < fuel → EndsTerm k →
    readEntry n fuel (e.scriptChars n ++ k) = some (e, k)
  | _, 0, _, _, hf, _ => absurd hf (Nat.not_lt_zero _)
  | .field key value, fuel + 1, k, he, hf, hk => by
      rw [Entry.isWellFormed] at he
      simp only [Entry.scriptChars, List.append_assoc, List.cons_append, List.length_append,
        List.length_cons] at hf ⊢
      apply readEntry_field
      exact readTerm_scriptChars hn value he (by omega) hk
  | .spread handle, fuel + 1, k, he, _, hk => readEntry_spread he hk

end

theorem read?_script (hn : n.areIdentifiers = true) {t : Term String}
    (ht : t.isWellFormed n = true) : read? n (t.script n) = some t := by
  have h := readTerm_scriptChars hn t ht (Nat.lt_succ_self _) endsTerm_nil
  rw [List.append_nil] at h
  rw [read?, Term.script, String.length_ofList, String.toList_ofList, h]

theorem script_inj (n : ScriptNames) (hn : n.areIdentifiers = true) :
    (∀ t u : Term String, t.isWellFormed n = true → u.isWellFormed n = true →
      (t.script n = u.script n ↔ t = u)) ∧
    ∀ t u : Template String, t.isWellFormed n = true → u.isWellFormed n = true →
      (t.script n = u.script n ↔ t = u) := by
  have hterm (t u : Term String) (ht : t.isWellFormed n = true) (hu : u.isWellFormed n = true)
      (h : t.script n = u.script n) : t = u := by
    have hr := read?_script hn ht
    rw [h, read?_script hn hu] at hr
    exact (Option.some.inj hr).symm
  have hscript (t : Template String) : (Term.template t).script n = t.script n := by
    rw [Term.script, Template.script, Term.scriptChars]
  refine ⟨fun t u ht hu => ⟨hterm t u ht hu, congrArg _⟩, fun t u ht hu => ⟨?_, congrArg _⟩⟩
  intro h
  rw [← hscript t, ← hscript u] at h
  exact Term.template.inj (hterm (.template t) (.template u) ht hu h)

def objectNames : ScriptNames :=
  ⟨"Object", "Object", "Object"⟩

def substituted : Template String :=
  ⟨[.literal "$", .expression (.host "x"), .literal "\x60"]⟩

def imitated : Template String :=
  ⟨[.literal "$$\x7bx\x7d\x60"]⟩

def objectAttributes : Term String :=
  .attributes ⟨[.field "a\": \x7d" (.template imitated), .spread "Object"]⟩

theorem script_inj_object :
    objectNames.areIdentifiers = true ∧
      substituted.script objectNames ≠ imitated.script objectNames ∧
      (Term.raw (.raw objectAttributes)).script objectNames ≠
        objectAttributes.script objectNames := by
  have hn : objectNames.areIdentifiers = true := by decide
  refine ⟨hn, fun h => ?_, fun h => ?_⟩
  · have he := ((script_inj objectNames hn).2 substituted imitated (by decide) (by decide)).mp h
    simp [substituted, imitated] at he
  · have he := ((script_inj objectNames hn).1 (.raw (.raw objectAttributes)) objectAttributes
      (by decide) (by decide)).mp h
    simp [objectAttributes] at he

end HtmlTemplate
