import HtmlTemplate.Proofs.Fields
import HtmlTemplate.Proofs.Interpretation.Basic

namespace HtmlTemplate

variable {H α : Type}

namespace Fields

section Cons

variable {p : String × α} {ps : List (String × α)} {fs : Fields α}

theorem fst_getLastD_filter : ((ps.filter (·.1 = p.1)).getLastD p).1 = p.1 := by
  rw [List.getLastD_eq_getLast?]
  cases h : (ps.filter (·.1 = p.1)).getLast? with
  | none => rfl
  | some q =>
      have hq := List.mem_of_getLast? h
      simpa using (List.mem_filter.mp hq).2

theorem get?_filter_ne {key other : String} (h : key ≠ other) :
    get? (fs.filter (·.1 ≠ other)) key = fs.get? key := by
  induction fs with
  | nil => rfl
  | cons f fs ih =>
      obtain ⟨k, v⟩ := f
      by_cases hk : k = other
      · have hkey : ¬k = key := fun heq => h (heq.symm.trans hk)
        rw [List.filter_cons_of_neg (by simpa using hk), ih, get?, if_neg hkey]
      · rw [List.filter_cons_of_pos (by simpa using hk), get?, get?, ih]

theorem keys_merge_cons :
    ((ps.filter (·.1 = p.1)).getLastD p :: fs.filter (·.1 ≠ p.1)).map Prod.fst =
      p.1 :: (fs.map Prod.fst).filter (· ≠ p.1) := by
  rw [List.map_cons, fst_getLastD_filter, List.filter_map]
  rfl

theorem getLast?_valuesAt_cons_self :
    (valuesAt p.1 (p :: ps)).getLast? = some ((ps.filter (·.1 = p.1)).getLastD p).2 := by
  rw [valuesAt, List.filter_cons_of_pos (by simp), List.getLast?_map, List.getLast?_cons,
    Option.map_some, List.getLastD_eq_getLast?]

theorem Merges.cons (h : Merges ps fs) :
    Merges (p :: ps) ((ps.filter (·.1 = p.1)).getLastD p :: fs.filter (·.1 ≠ p.1)) where
  nodup_keys := by
    rw [keys_merge_cons, List.nodup_cons]
    exact ⟨by simp, h.nodup_keys.filter _⟩
  mem_keys_iff key := by
    rw [keys_merge_cons, List.map_cons, List.mem_cons, List.mem_cons, List.mem_filter,
      h.mem_keys_iff]
    by_cases hkey : key = p.1 <;> simp [hkey]
  keys_ordered := by
    have hshift {k : String} (hk : k ≠ p.1) :
        ((p :: ps).map Prod.fst).idxOf k = (ps.map Prod.fst).idxOf k + 1 := by
      rw [List.map_cons, List.idxOf_cons_ne _ hk.symm]
    rw [keys_merge_cons, List.pairwise_cons]
    constructor
    · intro k hk
      have hne : k ≠ p.1 := by simpa using (List.mem_filter.mp hk).2
      rw [hshift hne, List.map_cons, List.idxOf_cons_self]
      exact Nat.succ_pos _
    · refine (h.keys_ordered.filter _).imp_of_mem fun {j k} hj hk hjk => ?_
      have hj' : j ≠ p.1 := by simpa using (List.mem_filter.mp hj).2
      have hk' : k ≠ p.1 := by simpa using (List.mem_filter.mp hk).2
      rw [hshift hj', hshift hk']
      omega
  get?_eq key := by
    by_cases hkey : key = p.1
    · subst hkey
      rw [getLast?_valuesAt_cons_self]
      have hfst : ((ps.filter (·.1 = p.1)).getLastD p).1 = p.1 := fst_getLastD_filter
      generalize (ps.filter (·.1 = p.1)).getLastD p = q at hfst
      obtain ⟨k, v⟩ := q
      rw [get?, if_pos hfst]
    · have hhead : ¬((ps.filter (·.1 = p.1)).getLastD p).1 = key := by
        rw [fst_getLastD_filter]
        exact Ne.symm hkey
      have hvalues : valuesAt key (p :: ps) = valuesAt key ps := by
        rw [valuesAt, List.filter_cons_of_neg (by simpa using Ne.symm hkey), valuesAt]
      generalize (ps.filter (·.1 = p.1)).getLastD p = q at hhead
      obtain ⟨k, v⟩ := q
      rw [get?, if_neg hhead, get?_filter_ne hkey, h.get?_eq, hvalues]

end Cons

theorem merges_merge (ps : List (String × α)) : Merges ps (merge ps) := by
  induction ps with
  | nil => exact .nil
  | cons p ps ih => exact ih.cons

theorem merge_eq_ofPairs (ps : List (String × α)) : merge ps = ofPairs ps :=
  (merges_merge ps).unique (.ofPairs ps)

end Fields

theorem filterMap_cons_eq_append {β : Type} (f : α → Option β) (a : α) (as : List α) :
    (a :: as).filterMap f = (f a).toList ++ as.filterMap f := by
  cases h : f a <;> simp [h]

namespace Value

theorem attributeText?_toList (name : String) (v : Value) :
    (v.attributeText? name).toList = v.assigned name := by
  rcases v with _ | _ | (_ | _) | _ | _ | _ | _ | _ <;> rfl

theorem joined_eq_joinAttributes (fields : Fields Value) :
    joined fields = joinAttributes fields := by
  rw [joined, joinAttributes]
  congr 1
  induction fields with
  | nil => rfl
  | cons f fs ih =>
      rw [List.flatMap_cons, ih, ← attributeText?_toList, filterMap_cons_eq_append]

theorem join_map_toHtml (vs : List Value) : String.join (vs.map toHtml) = listHtml vs := by
  induction vs with
  | nil => rfl
  | cons v vs ih => rw [List.map_cons, String.join_cons, ih, listHtml]

theorem marked_eq (o : Options) (vs : List Value) :
    marked o vs =
      if vs.length ≤ 1 then listHtml vs
      else o.fragmentStartMarker ++ listHtml vs ++ o.fragmentEndMarker := by
  rw [← join_map_toHtml, marked]

mutual

theorem rawText_eq_rawForm : (v : Value) → v.rawText = v.rawForm
  | .undefined => rfl
  | .null => rfl
  | .bool true => rfl
  | .bool false => rfl
  | .number _ => rfl
  | .string _ => rfl
  | .html _ => rfl
  | .list items => congrArg (String.intercalate ",") (itemTexts_eq_rawForms items)
  | .object _ => rfl

theorem itemTexts_eq_rawForms : (vs : List Value) → itemTexts vs = rawForms vs
  | [] => rfl
  | v :: vs => by
      rw [itemTexts, rawForms, ← rawText_eq_rawForm v, itemTexts_eq_rawForms vs, rawText]

end

end Value

theorem Attribute.pairs_spread (s : Scope H) (rename : String → String) (handle : H) :
    (Attribute.spread handle).pairs s rename = do
      let v ← s.value handle
      return v.spreadFields := by
  simp only [pairs]
  congr 1
  funext v
  cases v <;> rfl

end HtmlTemplate
