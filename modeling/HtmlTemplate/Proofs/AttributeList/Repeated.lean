import HtmlTemplate.Proofs.AttributeList.Reader
import HtmlTemplate.Proofs.Merge

namespace HtmlTemplate

variable {H : Type}

abbrev Occurrence := String × Option AttributeForm

def Occurrence.item? (p : Occurrence) : Option AttributeItem :=
  p.2.map fun form => (p.1, form)

structure LastWins (occurrences : List Occurrence) (items : List AttributeItem) : Prop where
  nodup_names : (items.map Prod.fst).Nodup
  mem_iff : ∀ name form,
    (name, form) ∈ items ↔ (Fields.valuesAt name occurrences).getLast? = some (some form)

namespace Attribute

def isOff : Attribute H → Bool
  | .named _ (some (.expression (.bool false))) => true
  | _ => false

section

variable (o : Options) (s : Scope H) (joined : Bool)

def occurrences : Attribute H → Except RenderError (List Occurrence)
  | .named name none => return [(o.hostName name, some .bare)]
  | .named name (some (.text text)) =>
      return [(o.hostName name, some (.quoted (if joined then Text.escape text else text)))]
  | .named name (some (.expression (.bool b))) =>
      return [(o.hostName name, if b then some .bare else none)]
  | .named name (some (.expression e)) => do
      let v ← e.value s
      return [(o.hostName name, if joined then v.form? else some (.quoted v.toHtml))]
  | .spread handle => do
      let v ← s.value handle
      return v.spreadFields.map fun f => (f.1, f.2.form?)

def allOccurrences : List (Attribute H) → Except RenderError (List Occurrence)
  | [] => return []
  | a :: as => do
      let ps ← a.occurrences o s joined
      let qs ← allOccurrences as
      return ps ++ qs

end

end Attribute

namespace Element

section

variable (o : Options) (s : Scope H) (e : Element H)

def isJoined : Bool :=
  e.attributes.any (·.isSpread)

def ordered : List (Attribute H) :=
  e.attributes.filter (·.isPlain o) ++ e.attributes.filter (·.isSpread)

def occurrences : Except RenderError (List Occurrence) :=
  Attribute.allOccurrences o s e.isJoined (e.ordered o)

def carried : Except RenderError (List AttributeItem) := do
  let ps ← Attribute.allOccurrences o s e.isJoined ((e.ordered o).filter (!·.isOff))
  return (if e.isJoined then Fields.ofPairs ps else ps).filterMap Occurrence.item?

def attributeText (items : List AttributeItem) : String :=
  if e.isJoined then " " ++ String.intercalate " " (items.map (·.write))
  else Text.spaced (items.map (·.write))

def keptNames : List String :=
  (((e.ordered o).filter (!·.isOff)).filterMap (·.name?)).map o.hostName

end

end Element

namespace Fields

variable {α β : Type}

theorem mem_iff_get?_eq {fs : Fields α} (h : (fs.map Prod.fst).Nodup) (key : String) (value : α) :
    (key, value) ∈ fs ↔ fs.get? key = some value := by
  induction fs with
  | nil => exact iff_of_false nofun nofun
  | cons f fs ih =>
      obtain ⟨k, v⟩ := f
      obtain ⟨hk, hnodup⟩ := List.nodup_cons.mp h
      rw [List.mem_cons, ih hnodup, get?]
      by_cases hkey : k = key
      · subst hkey
        have hnone : get? fs k = none := get?_eq_none_iff.mpr hk
        simp [hnone, eq_comm]
      · simp [hkey, Ne.symm hkey]

theorem insert_map (f : α → β) (key : String) (value : α) (fs : Fields α) :
    (fs.insert key value).map (Prod.map id f) = insert key (f value) (fs.map (Prod.map id f)) := by
  induction fs with
  | nil => rfl
  | cons p fs ih =>
      obtain ⟨k, v⟩ := p
      by_cases hk : k = key
      · simp [insert, hk]
      · simp [insert, hk, ih]

theorem ofPairs_map (f : α → β) (ps : List (String × α)) :
    ofPairs (ps.map (Prod.map id f)) = (ofPairs ps).map (Prod.map id f) := by
  suffices h : ∀ fs : Fields α,
      (ps.map (Prod.map id f)).foldl (fun fs p => insert p.1 p.2 fs) (fs.map (Prod.map id f)) =
        (ps.foldl (fun fs p => insert p.1 p.2 fs) fs).map (Prod.map id f) from h []
  induction ps with
  | nil => exact fun _ => rfl
  | cons p ps ih =>
      intro fs
      rw [List.map_cons, List.foldl_cons, List.foldl_cons, ← ih, insert_map]
      rfl

theorem valuesAt_cons (key : String) (p : String × α) (ps : List (String × α)) :
    valuesAt key (p :: ps) = if p.1 = key then p.2 :: valuesAt key ps else valuesAt key ps := by
  by_cases h : p.1 = key <;> simp [valuesAt, h]

end Fields

inductive Drops : List Occurrence → List Occurrence → Prop
  | nil : Drops [] []
  | keep (p : Occurrence) {ps qs : List Occurrence} : Drops ps qs → Drops (p :: ps) (p :: qs)
  | drop (name : String) {ps qs : List Occurrence} : Drops ps qs → Drops ((name, none) :: ps) qs

namespace Drops

variable {ps qs : List Occurrence}

theorem append_left (rs : List Occurrence) (h : Drops ps qs) : Drops (rs ++ ps) (rs ++ qs) := by
  induction rs with
  | nil => exact h
  | cons r rs ih => exact .keep r ih

theorem getLast?_valuesAt (h : Drops ps qs) (name : String) :
    ((Fields.valuesAt name ps).getLast? = none → (Fields.valuesAt name qs).getLast? = none) ∧
    ∀ form, (Fields.valuesAt name ps).getLast? = some (some form) →
      (Fields.valuesAt name qs).getLast? = some (some form) := by
  induction h with
  | nil => exact ⟨id, fun _ => id⟩
  | @keep p ps qs _ ih =>
      rw [Fields.valuesAt_cons, Fields.valuesAt_cons]
      by_cases hp : p.1 = name
      · rw [if_pos hp, if_pos hp, List.getLast?_cons, List.getLast?_cons]
        refine ⟨nofun, fun form hform => ?_⟩
        cases hlast : (Fields.valuesAt name ps).getLast? with
        | none =>
            rw [hlast] at hform
            rw [ih.1 hlast]
            exact hform
        | some form? =>
            rw [hlast] at hform
            rw [ih.2 form (hlast.trans hform)]
            rfl
      · rw [if_neg hp, if_neg hp]
        exact ih
  | @drop other ps qs _ ih =>
      rw [Fields.valuesAt_cons]
      by_cases hp : other = name
      · rw [if_pos hp, List.getLast?_cons]
        refine ⟨nofun, fun form hform => ?_⟩
        cases hlast : (Fields.valuesAt name ps).getLast? with
        | none =>
            rw [hlast] at hform
            cases hform
        | some form? =>
            rw [hlast] at hform
            exact ih.2 form (hlast.trans hform)
      · rw [if_neg hp]
        exact ih

end Drops

theorem Occurrence.item?_eq_some_iff {p : Occurrence} {item : AttributeItem} :
    p.item? = some item ↔ p = (item.1, some item.2) := by
  obtain ⟨name, form?⟩ := p
  obtain ⟨name', form⟩ := item
  simp [item?, and_comm]

theorem Occurrence.mem_filterMap_item?_iff {ps : List Occurrence} {name : String}
    {form : AttributeForm} : (name, form) ∈ ps.filterMap item? ↔ (name, some form) ∈ ps := by
  simp only [List.mem_filterMap, item?_eq_some_iff, exists_eq_right]

theorem Occurrence.sublist_names (ps : List Occurrence) :
    ((ps.filterMap item?).map Prod.fst).Sublist (ps.map Prod.fst) := by
  induction ps with
  | nil => exact .slnil
  | cons p ps ih =>
      obtain ⟨name, _ | form⟩ := p
      · exact ih.cons name
      · exact ih.cons_cons name

theorem lastWins_ofPairs (ps : List Occurrence) :
    LastWins ps ((Fields.ofPairs ps).filterMap Occurrence.item?) := by
  have h := Fields.Merges.ofPairs ps
  refine ⟨h.nodup_keys.sublist (Occurrence.sublist_names _), fun name form => ?_⟩
  rw [Occurrence.mem_filterMap_item?_iff, Fields.mem_iff_get?_eq h.nodup_keys, h.get?_eq]

-- What is dropped can only be missed where it comes last.
theorem LastWins.drops_iff {ps qs : List Occurrence} {items : List AttributeItem}
    (h : LastWins qs items) (hdrops : Drops ps qs) :
    LastWins ps items ↔
      ∀ item ∈ items, (Fields.valuesAt item.1 ps).getLast? ≠ some none := by
  constructor
  · rintro hps ⟨name, form⟩ hmem hnone
    rw [(hps.mem_iff name form).mp hmem] at hnone
    cases hnone
  · intro hlast
    refine ⟨h.nodup_names, fun name form => ?_⟩
    obtain ⟨hnone, hsome⟩ := hdrops.getLast?_valuesAt name
    constructor
    · intro hmem
      have hq := (h.mem_iff name form).mp hmem
      cases hp : (Fields.valuesAt name ps).getLast? with
      | none =>
          rw [hnone hp] at hq
          cases hq
      | some form? =>
          cases form? with
          | none => exact absurd hp (hlast (name, form) hmem)
          | some form' => rw [← hq, hsome form' hp]
    · intro hp
      exact (h.mem_iff name form).mpr (hsome form hp)

section Written

variable (o : Options) (s : Scope H)

namespace Attribute

theorem eq_of_isOff {a : Attribute H} (h : a.isOff = true) :
    ∃ name, a = .named name (some (.expression (.bool false))) := by
  rcases a with ⟨name, _ | text | (_ | _) | text | properties | handle⟩ | handle <;> cases h
  exact ⟨name, rfl⟩

theorem occurrences_joined {a : Attribute H} (h : a.isOff = false) :
    a.occurrences o s true = do
      let ps ← a.pairs s o.hostName
      return ps.map (Prod.map id Value.form?) := by
  rcases a with ⟨name, _ | text | (_ | _) | text | properties | handle⟩ | handle <;> cases h
  case named.some.expression.object | named.some.expression.host =>
    simp [occurrences, pairs, Prod.map_def]
  case spread => simp [occurrences, pairs_spread, Prod.map_def]
  all_goals rfl

theorem markup_eq {a : Attribute H} (hs : a.isSpread = false) (h : a.isOff = false) :
    a.markup s o.hostName = do
      let ps ← a.occurrences o s false
      return Text.spaced ((ps.filterMap Occurrence.item?).map (·.write)) := by
  rcases a with ⟨name, _ | text | (_ | _) | text | properties | handle⟩ | handle <;> cases h <;>
    cases hs <;> simp [occurrences, markup, Occurrence.item?, AttributeItem.write, Text.spaced,
      String.append_assoc]

theorem allOccurrences_joined (as : List (Attribute H)) :
    allOccurrences o s true (as.filter (!·.isOff)) = do
      let ps ← allPairs s o.hostName as
      return ps.map (Prod.map id Value.form?) := by
  induction as with
  | nil => rfl
  | cons a as ih =>
      cases h : a.isOff with
      | true =>
          obtain ⟨name, rfl⟩ := eq_of_isOff h
          have hpairs : pairs s o.hostName (.named name (some (.expression (.bool false)))) =
              pure [] := rfl
          rw [List.filter_cons_of_neg (by simp [h]), ih, allPairs, hpairs]
          simp only [pure_bind, List.nil_append, bind_pure]
      | false =>
          rw [List.filter_cons_of_pos (by simp [h]), allOccurrences, ih, occurrences_joined o s h,
            allPairs]
          simp only [bind_assoc, pure_bind, List.map_append]

theorem allMarkup_eq {as : List (Attribute H)} (hs : ∀ a ∈ as, a.isSpread = false) :
    allMarkup s o.hostName as = do
      let ps ← allOccurrences o s false (as.filter (!·.isOff))
      return Text.spaced ((ps.filterMap Occurrence.item?).map (·.write)) := by
  induction as with
  | nil => rfl
  | cons a as ih =>
      rw [List.forall_mem_cons] at hs
      rw [allMarkup, ih hs.2]
      cases h : a.isOff with
      | true =>
          obtain ⟨name, rfl⟩ := eq_of_isOff h
          have hmarkup : markup s o.hostName (.named name (some (.expression (.bool false)))) =
              pure "" := rfl
          rw [List.filter_cons_of_neg (by simp [h]), hmarkup]
          simp only [pure_bind, String.empty_append, bind_pure]
      | false =>
          rw [List.filter_cons_of_pos (by simp [h]), allOccurrences, markup_eq o s hs.1 h]
          simp only [bind_assoc, pure_bind, List.filterMap_append, List.map_append,
            Text.spaced_append]

theorem exists_drops_of_allOccurrences {joined : Bool} {as : List (Attribute H)}
    {qs : List Occurrence} (h : allOccurrences o s joined (as.filter (!·.isOff)) = .ok qs) :
    ∃ ps, allOccurrences o s joined as = .ok ps ∧ Drops ps qs := by
  induction as generalizing qs with
  | nil =>
      cases h
      exact ⟨[], rfl, .nil⟩
  | cons a as ih =>
      cases hoff : a.isOff with
      | true =>
          rw [List.filter_cons_of_neg (by simp [hoff])] at h
          obtain ⟨ps, hps, hdrops⟩ := ih h
          obtain ⟨name, rfl⟩ := eq_of_isOff hoff
          refine ⟨(o.hostName name, none) :: ps, ?_, .drop (o.hostName name) hdrops⟩
          rw [allOccurrences, hps]
          rfl
      | false =>
          rw [List.filter_cons_of_pos (by simp [hoff])] at h
          obtain ⟨rs, hrs, h⟩ := bind_eq_ok_iff.mp h
          obtain ⟨qs', hqs, h⟩ := bind_eq_ok_iff.mp h
          cases h
          obtain ⟨ps, hps, hdrops⟩ := ih hqs
          refine ⟨rs ++ ps, ?_, hdrops.append_left rs⟩
          rw [allOccurrences, hrs, hps]
          rfl

theorem yields_names {a : Attribute H} (hs : a.isSpread = false) (h : a.isOff = false) :
    Yields (a.occurrences o s false) (fun ps =>
      ps.map Prod.fst = a.name?.toList.map o.hostName ∧
        (ps.filterMap Occurrence.item?).map Prod.fst = ps.map Prod.fst) := by
  rcases a with ⟨name, _ | text | (_ | _) | text | properties | handle⟩ | handle <;> cases h <;>
    cases hs
  case named.some.expression.str | named.some.expression.object | named.some.expression.host =>
    exact .of_forall fun _ => ⟨rfl, rfl⟩
  all_goals exact .pure ⟨rfl, rfl⟩

theorem yields_allNames {as : List (Attribute H)}
    (has : ∀ a ∈ as, a.isSpread = false ∧ a.isOff = false) :
    Yields (allOccurrences o s false as) (fun ps =>
      ps.map Prod.fst = (as.filterMap (·.name?)).map o.hostName ∧
        (ps.filterMap Occurrence.item?).map Prod.fst = ps.map Prod.fst) := by
  induction as with
  | nil => exact .pure ⟨rfl, rfl⟩
  | cons a as ih =>
      rw [List.forall_mem_cons] at has
      rw [allOccurrences, filterMap_cons_eq_append]
      refine .bind (yields_names o s has.1.1 has.1.2) fun ps hps => .bind (ih has.2) fun qs hqs =>
        .pure ⟨?_, ?_⟩
      · rw [List.map_append, List.map_append, hps.1, hqs.1]
      · rw [List.filterMap_append, List.map_append, List.map_append, hps.2, hqs.2]

end Attribute

namespace Element

theorem isSpread_of_mem_plain {e : Element H} {a : Attribute H}
    (h : a ∈ e.attributes.filter (·.isPlain o)) : a.isSpread = false := by
  have hplain := (List.mem_filter.mp h).2
  rw [Attribute.isPlain, Bool.and_eq_true, Bool.not_eq_true'] at hplain
  exact hplain.1

theorem ordered_of_not_isJoined {e : Element H} (h : e.isJoined = false) :
    e.ordered o = e.attributes.filter (·.isPlain o) := by
  have hnone : e.attributes.filter (·.isSpread) = [] :=
    List.filter_eq_nil_iff.mpr fun a ha => List.any_eq_false.mp h a ha
  rw [ordered, hnone, List.append_nil]

theorem opening_eq (e : Element H) :
    Attribute.opening o s e.attributes = do
      let items ← e.carried o s
      return e.attributeText items := by
  cases h : e.isJoined with
  | true =>
      have hitems (ps : List (String × Value)) :
          ((ps.map (Prod.map id Value.form?)).filterMap Occurrence.item?) =
            ps.filterMap AttributeItem.ofField := by
        rw [List.filterMap_map]
        rfl
      have hspread : e.attributes.any (·.isSpread) = true := h
      rw [Attribute.opening, if_pos hspread]
      simp only [carried, attributeText, h, if_true, ordered, Attribute.allOccurrences_joined,
        bind_assoc, pure_bind, Fields.ofPairs_map, hitems, Value.joined_eq_joinAttributes,
        Fields.merge_eq_ofPairs, joinAttributes_eq]
  | false =>
      have hspread : ¬ e.attributes.any (·.isSpread) = true := Bool.eq_false_iff.mp h
      have hplain : ∀ a ∈ e.ordered o, a.isSpread = false := by
        rw [ordered_of_not_isJoined o h]
        exact fun a ha => isSpread_of_mem_plain o ha
      rw [Attribute.opening, if_neg hspread, ← ordered_of_not_isJoined o h,
        Attribute.allMarkup_eq o s hplain]
      simp only [carried, attributeText, h, Bool.false_eq_true, if_false, bind_assoc, pure_bind]

theorem exists_opening_of_render {e : Element H} (htag : Tag.kind e.tag = .host) {markup : String}
    (h : (HtmlTemplate.compile o (.element e)).output.render s = .ok markup) :
    ∃ opening rest, Attribute.opening o s e.attributes = .ok opening ∧
      markup = "<" ++ e.tag ++ opening ++ if e.isSelfClosing then " />" else ">" ++ rest := by
  have hinterpret : e.interpret o s = .ok markup := (e.render_compile o s).symm.trans h
  obtain ⟨tag, attributes, children, closed⟩ := e
  simp only [Element.interpret, htag] at hinterpret
  obtain ⟨opening, hopening, hrest⟩ := bind_eq_ok_iff.mp hinterpret
  cases hself : Tag.isVoid tag || !closed with
  | true =>
      rw [hself, if_pos rfl] at hrest
      cases hrest
      refine ⟨opening, "", hopening, ?_⟩
      rw [isSelfClosing, hself, if_pos rfl]
  | false =>
      rw [hself, if_neg Bool.false_ne_true] at hrest
      have hend : ∃ content, markup =
          "<" ++ tag ++ opening ++ ">" ++ content ++ "</" ++ tag ++ ">" := by
        split at hrest <;> obtain ⟨v, -, hv⟩ := bind_eq_ok_iff.mp hrest <;> cases hv
        · exact ⟨_, rfl⟩
        · exact ⟨_, rfl⟩
      obtain ⟨content, rfl⟩ := hend
      refine ⟨opening, content ++ "</" ++ tag ++ ">", hopening, ?_⟩
      rw [isSelfClosing, hself, if_neg Bool.false_ne_true]
      simp only [String.append_assoc]

theorem names_of_not_isJoined {e : Element H} (h : e.isJoined = false) {ps : List Occurrence}
    (hps : Attribute.allOccurrences o s false ((e.ordered o).filter (!·.isOff)) = .ok ps) :
    ps.map Prod.fst = e.keptNames o ∧
      (ps.filterMap Occurrence.item?).map Prod.fst = e.keptNames o := by
  have hall : ∀ a ∈ (e.ordered o).filter (!·.isOff), a.isSpread = false ∧ a.isOff = false := by
    intro a ha
    rw [ordered_of_not_isJoined o h] at ha
    obtain ⟨hmem, hoff⟩ := List.mem_filter.mp ha
    rw [Bool.not_eq_true'] at hoff
    exact ⟨isSpread_of_mem_plain o hmem, hoff⟩
  obtain ⟨hnames, hitems⟩ := Attribute.yields_allNames o s hall ps hps
  exact ⟨hnames, hitems.trans hnames⟩

theorem filter_not_isOff {e : Element H} (h : ∀ a ∈ e.attributes, a.isOff = false) :
    (e.ordered o).filter (!·.isOff) = e.ordered o := by
  refine List.filter_eq_self.mpr fun a ha => ?_
  have hmem : a ∈ e.attributes := by
    rcases List.mem_append.mp ha with ha | ha
    · exact (List.mem_filter.mp ha).1
    · exact (List.mem_filter.mp ha).1
  rw [h a hmem]
  rfl

section

variable {e : Element H} {qs : List Occurrence}
  (hqs : Attribute.allOccurrences o s e.isJoined ((e.ordered o).filter (!·.isOff)) = .ok qs)

include hqs

theorem lastWins_kept (h : e.isJoined = true ∨ (e.keptNames o).Nodup) :
    LastWins qs ((if e.isJoined then Fields.ofPairs qs else qs).filterMap Occurrence.item?) := by
  have hmerged := lastWins_ofPairs qs
  cases hjoined : e.isJoined with
  | true => exact hmerged
  | false =>
      rw [hjoined] at hqs h
      obtain ⟨hnames, -⟩ := names_of_not_isJoined o s hjoined hqs
      have hnodup := h.resolve_left Bool.false_ne_true
      -- A merge of distinct names changes nothing, so it speaks for the unmerged list as well.
      rw [Fields.ofPairs_of_nodup (hnames ▸ hnodup)] at hmerged
      exact hmerged

theorem lastWins_carried_iff {ps : List Occurrence} (hdrops : Drops ps qs) :
    LastWins ps ((if e.isJoined then Fields.ofPairs qs else qs).filterMap Occurrence.item?) ↔
      (e.isJoined = true ∨ (e.keptNames o).Nodup) ∧
        ∀ item ∈ (if e.isJoined then Fields.ofPairs qs else qs).filterMap Occurrence.item?,
          (Fields.valuesAt item.1 ps).getLast? ≠ some none := by
  by_cases h : e.isJoined = true ∨ (e.keptNames o).Nodup
  · rw [(lastWins_kept o s hqs h).drops_iff hdrops]
    exact (and_iff_right h).symm
  · refine iff_of_false (fun hwins => h ?_) (fun hcondition => h hcondition.1)
    cases hjoined : e.isJoined with
    | true => exact .inl rfl
    | false =>
        rw [hjoined] at hqs hwins
        obtain ⟨-, hitems⟩ := names_of_not_isJoined o s hjoined hqs
        exact .inr (hitems ▸ hwins.nodup_names)

end

end Element

end Written

theorem lastWins_iff (o : Options) (s : Scope H) (e : Element H) (htag : Tag.kind e.tag = .host)
    (markup : String) (hmarkup : (compile o (.element e)).output.render s = .ok markup) :
    ∃ occurrences items rest, e.occurrences o s = .ok occurrences ∧ e.carried o s = .ok items ∧
      markup = "<" ++ e.tag ++ e.attributeText items ++
        (if e.isSelfClosing then " />" else ">" ++ rest) ∧
      (LastWins occurrences items ↔ (e.isJoined = true ∨ (e.keptNames o).Nodup) ∧
        ∀ item ∈ items, (Fields.valuesAt item.1 occurrences).getLast? ≠ some none) ∧
      ((∀ a ∈ e.attributes, a.isOff = false) →
        (LastWins occurrences items ↔ e.isJoined = true ∨ (e.keptNames o).Nodup)) := by
  obtain ⟨opening, rest, hopening, hrest⟩ := Element.exists_opening_of_render o s htag hmarkup
  rw [Element.opening_eq, bind_eq_ok_iff] at hopening
  obtain ⟨items, hitems, htext⟩ := hopening
  cases htext
  obtain ⟨qs, hqs, hfilter⟩ := bind_eq_ok_iff.mp hitems
  obtain ⟨ps, hps, hdrops⟩ := Attribute.exists_drops_of_allOccurrences o s hqs
  cases hfilter
  have hiff := Element.lastWins_carried_iff o s hqs hdrops
  refine ⟨ps, _, rest, hps, hitems, hrest, hiff, fun hon => ⟨fun hwins => (hiff.mp hwins).1, ?_⟩⟩
  intro h
  have hkept := Element.lastWins_kept o s hqs h
  rw [Element.filter_not_isOff o hon] at hqs
  cases hqs.symm.trans hps
  exact hkept

def merging : Scope String where
  value _ := .ok (.object [("title", .string "u"), ("hidden", .bool true)])
  component name _ := .error (.unknownComponent name)

def respread : Element String :=
  ⟨"p", [.spread "rest", .text "className" "a", .text "title" "t", .text "class" "b"], [], true⟩

theorem lastWins_iff_respread :
    ∃ occurrences items, respread.occurrences {} merging = .ok occurrences ∧
      respread.carried {} merging = .ok items ∧
      (compile {} (.element respread)).output.render merging =
        .ok "<p class=\"b\" title=\"u\" hidden></p>" ∧
      LastWins occurrences items := by
  obtain ⟨occurrences, items, rest, hoccurrences, hitems, -, -, hiff⟩ :=
    lastWins_iff {} merging respread rfl "<p class=\"b\" title=\"u\" hidden></p>" rfl
  have hon : ∀ a ∈ respread.attributes, a.isOff = false := by decide
  exact ⟨occurrences, items, hoccurrences, hitems, rfl, (hiff hon).mpr (.inl rfl)⟩

def doubled : Element String :=
  ⟨"p", [.text "id" "a", .text "id" "b"], [], true⟩

theorem doubled_not_lastWins :
    ∃ occurrences items, doubled.occurrences {} merging = .ok occurrences ∧
      doubled.carried {} merging = .ok items ∧
      (compile {} (.element doubled)).output.render merging =
        .ok "<p id=\"a\" id=\"b\"></p>" ∧
      ¬ LastWins occurrences items := by
  refine ⟨_, _, rfl, rfl, rfl, fun h => ?_⟩
  have hnodup : ["id", "id"].Nodup := h.nodup_names
  revert hnodup
  decide

end HtmlTemplate
