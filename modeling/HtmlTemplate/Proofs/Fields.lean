import HtmlTemplate.Fields
import Mathlib.Data.List.Sort

namespace HtmlTemplate.Fields

variable {α : Type}

theorem insert_of_not_mem {key : String} {fs : Fields α} (value : α)
    (h : key ∉ fs.map Prod.fst) : fs.insert key value = fs ++ [(key, value)] := by
  induction fs with
  | nil => rfl
  | cons f fs ih =>
      obtain ⟨k, v⟩ := f
      rw [List.map_cons, List.mem_cons, not_or] at h
      rw [insert, if_neg (Ne.symm h.1), ih h.2, List.cons_append]

theorem foldl_insert_of_nodup (fs ps : Fields α) (h : ((fs ++ ps).map Prod.fst).Nodup) :
    ps.foldl (fun fs p => fs.insert p.1 p.2) fs = fs ++ ps := by
  induction ps generalizing fs with
  | nil => rw [List.foldl_nil, List.append_nil]
  | cons p ps ih =>
      have hp : p.1 ∉ fs.map Prod.fst := by
        rw [List.map_append, List.map_cons] at h
        intro hmem
        exact (List.nodup_append.mp h).2.2 _ hmem _ List.mem_cons_self rfl
      rw [List.foldl_cons, insert_of_not_mem p.2 hp, ih]
      · rw [List.append_assoc, List.singleton_append]
      · rwa [List.append_assoc, List.singleton_append]

theorem ofPairs_of_nodup {ps : List (String × α)} (h : (ps.map Prod.fst).Nodup) :
    ofPairs ps = ps :=
  foldl_insert_of_nodup [] ps h

theorem keys_insert_of_mem {key : String} {fs : Fields α} (value : α)
    (h : key ∈ fs.map Prod.fst) : (fs.insert key value).map Prod.fst = fs.map Prod.fst := by
  induction fs with
  | nil => cases h
  | cons f fs ih =>
      obtain ⟨k, v⟩ := f
      by_cases hk : k = key
      · rw [insert, if_pos hk, hk, List.map_cons, List.map_cons]
      · have hmem : key ∈ fs.map Prod.fst := (List.mem_cons.mp h).resolve_left (Ne.symm hk)
        rw [insert, if_neg hk, List.map_cons, List.map_cons, ih hmem]

theorem get?_eq_none_iff {key : String} {fs : Fields α} :
    fs.get? key = none ↔ key ∉ fs.map Prod.fst := by
  induction fs with
  | nil => simp [get?]
  | cons f fs ih =>
      obtain ⟨k, v⟩ := f
      by_cases hk : k = key
      · simp [get?, hk]
      · simp [get?, hk, Ne.symm hk, ih]

theorem get?_eq_find? (fs : Fields α) (key : String) :
    fs.get? key = (fs.find? (·.1 = key)).map Prod.snd := by
  induction fs with
  | nil => rfl
  | cons f fs ih =>
      obtain ⟨k, v⟩ := f
      by_cases hk : k = key
      · simp [get?, hk]
      · simp [get?, hk, ih]

theorem ext_of_nodup_keys {fs gs : Fields α} (hkeys : fs.map Prod.fst = gs.map Prod.fst)
    (hnodup : (fs.map Prod.fst).Nodup) (hget : ∀ key, fs.get? key = gs.get? key) : fs = gs := by
  induction fs generalizing gs with
  | nil => exact (List.map_eq_nil_iff.mp hkeys.symm).symm
  | cons f fs ih =>
      obtain ⟨k, v⟩ := f
      cases gs with
      | nil => cases hkeys
      | cons g gs =>
          obtain ⟨k', w⟩ := g
          obtain ⟨rfl, hkeys'⟩ := List.cons.inj hkeys
          obtain ⟨hk, hnodup'⟩ := List.nodup_cons.mp hnodup
          have hvalue : v = w := by simpa [get?] using hget k
          have hrest : fs = gs := by
            refine ih hkeys' hnodup' fun key => ?_
            by_cases h : k = key
            · rw [get?_eq_none_iff.mpr (h ▸ hk), get?_eq_none_iff.mpr (hkeys' ▸ h ▸ hk)]
            · simpa [get?, h] using hget key
          rw [hvalue, hrest]

def valuesAt (key : String) (ps : List (String × α)) : List α :=
  (ps.filter (·.1 = key)).map Prod.snd

structure Merges (ps : List (String × α)) (fs : Fields α) : Prop where
  nodup_keys : (fs.map Prod.fst).Nodup
  mem_keys_iff : ∀ key, key ∈ fs.map Prod.fst ↔ key ∈ ps.map Prod.fst
  keys_ordered : (fs.map Prod.fst).Pairwise fun j k =>
    (ps.map Prod.fst).idxOf j < (ps.map Prod.fst).idxOf k
  get?_eq : ∀ key, fs.get? key = (valuesAt key ps).getLast?

namespace Merges

variable {ps : List (String × α)} {fs : Fields α}

theorem nil : Merges ([] : List (String × α)) [] :=
  ⟨.nil, fun _ => .rfl, .nil, fun _ => rfl⟩

section Insert

variable (h : Merges ps fs)
include h

theorem get?_insert_eq (key : String) (value : α) (k : String) :
    (fs.insert key value).get? k = (valuesAt k (ps ++ [(key, value)])).getLast? := by
  rw [get?_insert, h.get?_eq]
  by_cases hk : key = k <;> simp [valuesAt, hk]

theorem idxOf_append (qs : List (String × α)) {k : String} (hk : k ∈ fs.map Prod.fst) :
    ((ps ++ qs).map Prod.fst).idxOf k = (ps.map Prod.fst).idxOf k := by
  rw [List.map_append]
  exact List.idxOf_append_of_mem ((h.mem_keys_iff k).mp hk)

theorem keys_ordered_append (qs : List (String × α)) :
    (fs.map Prod.fst).Pairwise fun j k =>
      ((ps ++ qs).map Prod.fst).idxOf j < ((ps ++ qs).map Prod.fst).idxOf k := by
  refine h.keys_ordered.imp_of_mem fun {j k} hj hk hjk => ?_
  rwa [h.idxOf_append qs hj, h.idxOf_append qs hk]

theorem overwrite {key : String} (value : α) (hmem : key ∈ fs.map Prod.fst) :
    Merges (ps ++ [(key, value)]) (fs.insert key value) := by
  have hkeys := keys_insert_of_mem value hmem
  refine ⟨?_, fun k => ?_, ?_, h.get?_insert_eq key value⟩
  · rw [hkeys]
    exact h.nodup_keys
  · rw [hkeys, h.mem_keys_iff, List.map_append, List.mem_append]
    refine ⟨.inl, Or.rec id fun hk => ?_⟩
    rw [List.mem_singleton.mp hk]
    exact (h.mem_keys_iff key).mp hmem
  · rw [hkeys]
    exact h.keys_ordered_append _

theorem extend {key : String} (value : α) (hnew : key ∉ fs.map Prod.fst) :
    Merges (ps ++ [(key, value)]) (fs.insert key value) := by
  have hkeys : (fs.insert key value).map Prod.fst = fs.map Prod.fst ++ [key] := by
    rw [insert_of_not_mem value hnew, List.map_append, List.map_cons, List.map_nil]
  have hfirst : key ∉ ps.map Prod.fst := fun hk => hnew ((h.mem_keys_iff key).mpr hk)
  refine ⟨?_, fun k => ?_, ?_, h.get?_insert_eq key value⟩
  · rw [hkeys]
    exact h.nodup_keys.append (List.nodup_singleton key) (List.disjoint_singleton.mpr hnew)
  · rw [hkeys, List.map_append, List.mem_append, List.mem_append, h.mem_keys_iff]
    rfl
  · rw [hkeys, List.pairwise_append]
    refine ⟨h.keys_ordered_append _, List.pairwise_singleton _ _, fun j hj k hk => ?_⟩
    have hlt : (ps.map Prod.fst).idxOf j < (ps.map Prod.fst).length :=
      List.idxOf_lt_length_of_mem ((h.mem_keys_iff j).mp hj)
    rw [h.idxOf_append _ hj, List.mem_singleton.mp hk, List.map_append,
      List.idxOf_append_of_notMem hfirst]
    omega

theorem insert (key : String) (value : α) :
    Merges (ps ++ [(key, value)]) (fs.insert key value) := by
  by_cases hmem : key ∈ fs.map Prod.fst
  · exact h.overwrite value hmem
  · exact h.extend value hmem

end Insert

theorem foldl_insert (h : Merges ps fs) (qs : List (String × α)) :
    Merges (ps ++ qs) (qs.foldl (fun fs q => fs.insert q.1 q.2) fs) := by
  induction qs generalizing ps fs with
  | nil => rwa [List.append_nil]
  | cons q qs ih =>
      have hrest := ih (h.insert q.1 q.2)
      rwa [List.append_assoc] at hrest

theorem ofPairs (ps : List (String × α)) : Merges ps (Fields.ofPairs ps) :=
  foldl_insert nil ps

-- The keys are sorted by their first occurrence, so their order is no choice.
theorem unique {gs : Fields α} (hf : Merges ps fs) (hg : Merges ps gs) : fs = gs := by
  have hperm : (fs.map Prod.fst).Perm (gs.map Prod.fst) := by
    refine (List.perm_ext_iff_of_nodup hf.nodup_keys hg.nodup_keys).mpr fun key => ?_
    rw [hf.mem_keys_iff, hg.mem_keys_iff]
  have hkeys : fs.map Prod.fst = gs.map Prod.fst := by
    refine hperm.eq_of_pairwise ?_ hf.keys_ordered hg.keys_ordered
    intro j k _ _ hjk hkj
    omega
  refine ext_of_nodup_keys hkeys hf.nodup_keys fun key => ?_
  rw [hf.get?_eq, hg.get?_eq]

end Merges

end HtmlTemplate.Fields
