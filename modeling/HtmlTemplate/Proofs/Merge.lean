import HtmlTemplate.Proofs.Spread

namespace HtmlTemplate

variable {H α β : Type}

theorem bind_eq_ok_iff {x : Except RenderError α} {f : α → Except RenderError β} {b : β} :
    x >>= f = .ok b ↔ ∃ a, x = .ok a ∧ f a = .ok b := by
  cases x with
  | error e => exact ⟨nofun, nofun⟩
  | ok a => exact ⟨fun h => ⟨a, rfl, h⟩, fun ⟨_, rfl, h⟩ => h⟩

namespace Entry

def isField : Entry H → Bool
  | .field _ _ => true
  | .spread _ => false

inductive Expands (s : Scope H) : List (Entry H) → List (String × Value) → Prop
  | nil : Expands s [] []
  | field {key term value entries pairs} : Term.evaluate s term = .ok value →
      Expands s entries pairs → Expands s (.field key term :: entries) ((key, value) :: pairs)
  | object {handle fields entries pairs} : s.value handle = .ok (.object fields) →
      Expands s entries pairs → Expands s (.spread handle :: entries) (fields ++ pairs)
  | other {handle value entries pairs} : s.value handle = .ok value →
      (∀ fields, value ≠ .object fields) → Expands s entries pairs →
      Expands s (.spread handle :: entries) pairs

variable {s : Scope H} {entries : List (Entry H)} {pairs : List (String × Value)}

theorem Expands.allPairs_eq (h : Expands s entries pairs) : allPairs s entries = .ok pairs := by
  induction h with
  | nil => rfl
  | field hvalue _ ih =>
      simp only [allPairs, Entry.pairs, hvalue, ih]
      rfl
  | object hvalue _ ih =>
      simp only [allPairs, Entry.pairs, hvalue, ih]
      rfl
  | @other handle value _ _ hvalue hother _ ih =>
      have hnone : value.spreadFields = [] := by
        cases value with
        | object fields => exact absurd rfl (hother fields)
        | _ => rfl
      simp only [allPairs, Entry.pairs, hvalue, ih]
      change Except.ok (value.spreadFields ++ _) = _
      rw [hnone, List.nil_append]

theorem expands_of_allPairs (h : allPairs s entries = .ok pairs) : Expands s entries pairs := by
  induction entries generalizing pairs with
  | nil =>
      cases h
      exact .nil
  | cons entry entries ih =>
      obtain ⟨first, hfirst, h⟩ := bind_eq_ok_iff.mp h
      obtain ⟨rest, hrest, h⟩ := bind_eq_ok_iff.mp h
      cases h
      cases entry with
      | field key term =>
          obtain ⟨value, hvalue, h⟩ := bind_eq_ok_iff.mp hfirst
          cases h
          exact .field hvalue (ih hrest)
      | spread handle =>
          obtain ⟨value, hvalue, h⟩ := bind_eq_ok_iff.mp hfirst
          cases h
          cases value with
          | object fields => exact .object hvalue (ih hrest)
          | _ => exact .other hvalue nofun (ih hrest)

theorem expands_iff : Expands s entries pairs ↔ allPairs s entries = .ok pairs :=
  ⟨Expands.allPairs_eq, expands_of_allPairs⟩

theorem Expands.forall₂_valuesAt (h : Expands s entries pairs)
    (hfields : ∀ entry ∈ entries, entry.isField = true) (key : String) :
    List.Forall₂ (fun term value => Term.evaluate s term = .ok value)
      (entries.filterMap (·.fieldValue? key)) (Fields.valuesAt key pairs) := by
  induction h with
  | nil => exact .nil
  | @field k term value entries pairs hvalue _ ih =>
      have hrest := ih fun entry hentry => hfields entry (List.mem_cons_of_mem _ hentry)
      by_cases hk : k = key
      · simpa [fieldValue?, Fields.valuesAt, hk, hvalue] using hrest
      · simpa [fieldValue?, Fields.valuesAt, hk] using hrest
  | object => exact absurd (hfields _ List.mem_cons_self) Bool.false_ne_true
  | other => exact absurd (hfields _ List.mem_cons_self) Bool.false_ne_true

end Entry

theorem rel_getLast?_of_forall₂ {R : α → β → Prop} {as : List α} {bs : List β}
    (h : List.Forall₂ R as bs) : Option.Rel R as.getLast? bs.getLast? := by
  have hreverse := List.rel_reverse h
  rw [List.getLast?_eq_head?_reverse, List.getLast?_eq_head?_reverse]
  generalize as.reverse = as at hreverse
  generalize bs.reverse = bs at hreverse
  cases hreverse with
  | nil => exact .none
  | cons hab _ => exact .some hab

theorem ObjectLiteral.evaluate_eq_ok_iff {s : Scope H} {object : ObjectLiteral H}
    {fields : Fields Value} : object.evaluate s = .ok fields ↔
      ∃ pairs, Entry.allPairs s object.entries = .ok pairs ∧ Fields.ofPairs pairs = fields := by
  rw [evaluate_eq, bind_eq_ok_iff]
  exact exists_congr fun pairs => and_congr_right fun _ => iff_of_eq (Except.ok.injEq _ _)

theorem ObjectLiteral.evaluate_eq_ok_iff_merges (s : Scope H) (object : ObjectLiteral H)
    (fields : Fields Value) :
    (object.evaluate s = .ok fields ↔
      ∃ pairs, Entry.Expands s object.entries pairs ∧ Fields.Merges pairs fields) ∧
    (object.evaluate s = .ok fields → (∀ entry ∈ object.entries, entry.isField = true) →
      ∀ key, match object.field? key with
        | some term => term.evaluate s = .ok ((Value.object fields).get key)
        | none => (Value.object fields).get key = .undefined) := by
  have hmerges : object.evaluate s = .ok fields ↔
      ∃ pairs, Entry.Expands s object.entries pairs ∧ Fields.Merges pairs fields := by
    rw [evaluate_eq_ok_iff]
    refine exists_congr fun pairs => ?_
    rw [Entry.expands_iff]
    refine and_congr_right fun _ => ⟨?_, fun h => (Fields.Merges.ofPairs pairs).unique h⟩
    rintro rfl
    exact .ofPairs pairs
  refine ⟨hmerges, fun hfields hentries key => ?_⟩
  obtain ⟨pairs, hexpands, hmerged⟩ := hmerges.mp hfields
  have hlast := rel_getLast?_of_forall₂ (hexpands.forall₂_valuesAt hentries key)
  rw [← hmerged.get?_eq key] at hlast
  rw [field?, Value.get]
  generalize (object.entries.filterMap (·.fieldValue? key)).getLast? = term? at hlast
  generalize fields.get? key = value? at hlast
  cases hlast with
  | none => rfl
  | some hvalue => exact hvalue

def overriding : Scope String where
  value handle :=
    .ok (if handle = "rest" then .object [("title", .string "b"), ("id", .null)] else .null)
  component name _ := .error (.unknownComponent name)

def overridden : ObjectLiteral String :=
  ⟨[.field "lang" (.str "en"), .field "title" (.str "a"), .spread "rest", .spread "none",
    .field "id" (.bool true)]⟩

theorem ObjectLiteral.evaluate_eq_ok_iff_merges_overridden :
    ∃ pairs, Entry.Expands overriding overridden.entries pairs ∧
      Fields.Merges pairs
        [("lang", .string "en"), ("title", .string "b"), ("id", .bool true)] :=
  (ObjectLiteral.evaluate_eq_ok_iff_merges overriding overridden _).1.mp rfl

end HtmlTemplate
