import HtmlTemplate.Proofs.Nesting.Render
import HtmlTemplate.Proofs.Script.Lexeme

namespace HtmlTemplate

inductive AttributeForm where
  | bare
  | quoted (text : String)
  deriving DecidableEq, Repr

abbrev AttributeItem := String × AttributeForm

def AttributeItem.write : AttributeItem → String
  | (name, .bare) => name
  | (name, .quoted text) => name ++ "=\"" ++ text ++ "\""

def Value.form? : Value → Option AttributeForm
  | .undefined => none
  | .null => none
  | .bool false => none
  | .bool true => some .bare
  | v => some (.quoted v.toHtml)

namespace AttributeItem

def ofField (f : String × Value) : Option AttributeItem :=
  f.2.form?.map fun form => (f.1, form)

def isKeyChar (c : Char) : Bool :=
  c ≠ ' ' && c ≠ '=' && c ≠ '\x22'

def readForm : List Char → Option (AttributeForm × List Char)
  | '=' :: '\x22' :: cs =>
      match cs.dropWhile (· ≠ '\x22') with
      | [] => none
      | _ :: rest => some (.quoted (String.ofList (cs.takeWhile (· ≠ '\x22'))), rest)
  | cs => some (.bare, cs)

def read (cs : List Char) : Option (AttributeItem × List Char) :=
  if cs.takeWhile isKeyChar = [] then none
  else do
    let (form, rest) ← readForm (cs.dropWhile isKeyChar)
    return ((String.ofList (cs.takeWhile isKeyChar), form), rest)

theorem length_of_readForm {cs rest : List Char} {form : AttributeForm}
    (h : readForm cs = some (form, rest)) : rest.length ≤ cs.length := by
  unfold readForm at h
  split at h
  · rename_i ds
    have hlength := (ds.dropWhile_suffix (· ≠ '\x22')).length_le
    split at h
    · cases h
    · rename_i heq
      cases h
      rw [heq] at hlength
      simp only [List.length_cons] at hlength ⊢
      omega
  · cases h
    exact Nat.le_refl _

theorem length_of_read {cs rest : List Char} {item : AttributeItem}
    (h : read cs = some (item, rest)) : rest.length < cs.length := by
  unfold read at h
  split at h
  · cases h
  · rename_i hname
    obtain ⟨⟨form, rest'⟩, hform, h⟩ := Option.bind_eq_some_iff.mp h
    cases h
    have hrest := length_of_readForm hform
    have hpos := List.length_pos_iff.mpr hname
    have hlength := congrArg List.length
      (List.takeWhile_append_dropWhile (p := isKeyChar) (l := cs))
    rw [List.length_append] at hlength
    omega

def readAll (cs : List Char) : Option (List AttributeItem) :=
  match h : read cs with
  | none => none
  | some (item, []) => some [item]
  | some (item, c :: rest) =>
      have : rest.length < cs.length := Nat.lt_of_succ_lt (length_of_read h)
      if c = ' ' then (readAll rest).map (item :: ·) else none
termination_by cs.length

theorem readAll_of_read_nil {cs : List Char} {item : AttributeItem}
    (h : read cs = some (item, [])) : readAll cs = some [item] := by
  rw [readAll]
  split <;> rename_i heq <;> cases heq.symm.trans h
  rfl

theorem readAll_of_read_space {cs rest : List Char} {item : AttributeItem}
    (h : read cs = some (item, ' ' :: rest)) : readAll cs = (readAll rest).map (item :: ·) := by
  rw [readAll]
  split <;> rename_i heq <;> cases heq.symm.trans h
  rfl

def isKey (key : String) : Bool :=
  key ≠ "" && key.toList.all isKeyChar

structure IsReadable (item : AttributeItem) : Prop where
  isKey_name : isKey item.1 = true
  quote_not_mem : ∀ text, item.2 = .quoted text → '\x22' ∉ text.toList

theorem readForm_quoted {text : String} (h : '\x22' ∉ text.toList) (k : List Char) :
    readForm ('=' :: '\x22' :: (text.toList ++ '\x22' :: k)) = some (.quoted text, k) := by
  have htext : ∀ c ∈ text.toList, decide (c ≠ '\x22') = true := by
    rintro c hc
    exact decide_eq_true (ne_of_mem_of_not_mem hc h)
  obtain ⟨htake, hdrop⟩ := takeWhile_dropWhile_append (k := '\x22' :: k) htext (by simp)
  simp only [readForm, htake, hdrop, String.ofList_toList]

theorem readForm_bare {k : List Char} (hk : ∀ c ∈ k.head?, c = ' ') :
    readForm k = some (.bare, k) := by
  unfold readForm
  split
  · cases hk _ rfl
  · rfl

theorem read_name {name : String} (h : isKey name = true) {cs k : List Char} {form : AttributeForm}
    (hcs : ∀ c ∈ cs.head?, isKeyChar c = false) (hform : readForm cs = some (form, k)) :
    read (name.toList ++ cs) = some ((name, form), k) := by
  simp only [isKey, Bool.and_eq_true, decide_eq_true_eq, List.all_eq_true] at h
  obtain ⟨htake, hdrop⟩ := takeWhile_dropWhile_append h.2 hcs
  have hne : name.toList ≠ [] := mt String.toList_eq_nil_iff.mp h.1
  rw [read, htake, hdrop, if_neg hne, hform, String.ofList_toList]
  rfl

theorem read_write {item : AttributeItem} (h : item.IsReadable) {k : List Char}
    (hk : ∀ c ∈ k.head?, c = ' ') : read (item.write.toList ++ k) = some (item, k) := by
  obtain ⟨name, _ | text⟩ := item
  · refine read_name h.isKey_name (fun c hc => ?_) (readForm_bare hk)
    rw [hk c hc]
    rfl
  · have hform := readForm_quoted (h.quote_not_mem text rfl) k
    have hread := read_name h.isKey_name (by simp [isKeyChar]) hform
    simpa [write, List.append_assoc] using hread

theorem readAll_intercalate {items : List AttributeItem} (hne : items ≠ [])
    (h : ∀ item ∈ items, item.IsReadable) :
    readAll (String.intercalate " " (items.map write)).toList = some items := by
  induction items with
  | nil => exact absurd rfl hne
  | cons item items ih =>
      rw [List.forall_mem_cons] at h
      cases items with
      | nil =>
          have hread := read_write h.1 (k := []) (by simp)
          rw [List.append_nil] at hread
          rw [List.map_singleton, String.intercalate_singleton, readAll_of_read_nil hread]
      | cons next items =>
          have hread := read_write h.1
            (k := ' ' :: (String.intercalate " " ((next :: items).map write)).toList) (by simp)
          have hrest := ih (List.cons_ne_nil _ _) h.2
          have htext : (String.intercalate " " ((item :: next :: items).map write)).toList =
              item.write.toList ++
                ' ' :: (String.intercalate " " ((next :: items).map write)).toList := by
            rw [List.map_cons, List.map_cons, String.intercalate_cons_cons]
            simp
          rw [htext, readAll_of_read_space hread, hrest, Option.map_some]

end AttributeItem

def readAttributes (text : String) : Option (List AttributeItem) :=
  if text = "" then some [] else AttributeItem.readAll text.toList

theorem readAttributes_intercalate {items : List AttributeItem}
    (h : ∀ item ∈ items, item.IsReadable) :
    readAttributes (String.intercalate " " (items.map (·.write))) = some items := by
  by_cases hne : items = []
  · rw [hne]
    rfl
  · have hread := AttributeItem.readAll_intercalate hne h
    have hnil : AttributeItem.readAll [] = none := by
      rw [AttributeItem.readAll]
      rfl
    rw [readAttributes, if_neg, hread]
    intro htext
    rw [htext, String.toList_empty, hnil] at hread
    cases hread

namespace Value

theorem attributeText?_eq (name : String) (v : Value) :
    v.attributeText? name = (AttributeItem.ofField (name, v)).map (·.write) := by
  rcases v with _ | _ | (_ | _) | _ | _ | _ | _ | _ <;> rfl

theorem quote_not_mem_toHtml {v : Value} (h : v.isHtmlFree = true) : '\x22' ∉ v.toHtml.toList := by
  intro hmem
  exact (Text.isMark_of_marks (marks_toHtml v h) hmem).2 rfl

theorem toHtml_of_form? {v : Value} {text : String} (h : v.form? = some (.quoted text)) :
    text = v.toHtml := by
  rcases v with _ | _ | (_ | _) | _ | _ | _ | _ | _ <;> cases h <;> rfl

end Value

theorem joinAttributes_eq (fields : Fields Value) :
    joinAttributes fields =
      String.intercalate " " ((fields.filterMap AttributeItem.ofField).map (·.write)) := by
  rw [joinAttributes, List.map_filterMap]
  simp only [Value.attributeText?_eq]

theorem AttributeItem.isReadable_of_ofField {f : String × Value} {item : AttributeItem}
    (hkey : isKey f.1 = true) (hvalue : f.2.isHtmlFree = true) (h : ofField f = some item) :
    item.IsReadable := by
  obtain ⟨form, hform, rfl⟩ := Option.map_eq_some_iff.mp h
  refine ⟨hkey, fun text htext => ?_⟩
  rw [show form = .quoted text from htext] at hform
  rw [Value.toHtml_of_form? hform]
  exact Value.quote_not_mem_toHtml hvalue

theorem readAttributes_joinAttributes (fields : Fields Value)
    (hkeys : ∀ f ∈ fields, AttributeItem.isKey f.1 = true)
    (hvalues : ∀ f ∈ fields, f.2.isHtmlFree = true) :
    readAttributes (joinAttributes fields) = some (fields.filterMap AttributeItem.ofField) := by
  rw [joinAttributes_eq]
  refine readAttributes_intercalate fun item hitem => ?_
  obtain ⟨f, hf, hitem⟩ := List.mem_filterMap.mp hitem
  exact AttributeItem.isReadable_of_ofField (hkeys f hf) (hvalues f hf) hitem

def injecting : Fields Value :=
  [("title", .list [.string "a\" onclick=\"b", .null]), ("hidden", .bool true), ("lang", .null),
    ("data-x", .string ""), ("open", .bool false), ("style", .object [("a", .html "\"")])]

theorem readAttributes_joinAttributes_injecting :
    (∀ f ∈ injecting, AttributeItem.isKey f.1 = true) ∧
    (∀ f ∈ injecting, f.2.isHtmlFree = true) ∧
    readAttributes ("title=\"a&quot; onclick=&quot;b\" hidden data-x=\"\" " ++
        "style=\"[object Object]\"") =
      some [("title", .quoted "a&quot; onclick=&quot;b"), ("hidden", .bare),
        ("data-x", .quoted ""), ("style", .quoted "[object Object]")] := by
  have hkeys : ∀ f ∈ injecting, AttributeItem.isKey f.1 = true := by decide
  have hvalues : ∀ f ∈ injecting, f.2.isHtmlFree = true := by decide
  exact ⟨hkeys, hvalues, readAttributes_joinAttributes injecting hkeys hvalues⟩

end HtmlTemplate
