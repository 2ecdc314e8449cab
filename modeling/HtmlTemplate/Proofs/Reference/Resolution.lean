import HtmlTemplate.Bindings
import HtmlTemplate.Proofs.Reference.Compile
import HtmlTemplate.Proofs.Render

namespace HtmlTemplate

variable {H α β : Type}

def Settles (failure? : Reference H → Option RenderError) (rs : List (Reference H))
    (x : Except RenderError α) : Prop :=
  match rs.findSome? failure? with
  | none => ∃ a, x = .ok a
  | some error => x = .error error

structure Scope.FailsBy (s : Scope H) (failure? : Reference H → Option RenderError) : Prop where
  value : ∀ handle, Settles failure? [.value handle] (s.value handle)
  component : ∀ name props, Settles failure? [.component name] (s.component name props)

section

variable {failure? : Reference H → Option RenderError}

namespace Settles

theorem pure (a : α) : Settles failure? [] (Pure.pure a : Except RenderError α) :=
  ⟨a, rfl⟩

theorem bind {rs ss : List (Reference H)} {x : Except RenderError α}
    {f : α → Except RenderError β} (hx : Settles failure? rs x)
    (hf : ∀ a, Settles failure? ss (f a)) : Settles failure? (rs ++ ss) (x >>= f) := by
  unfold Settles at hx ⊢
  rw [List.findSome?_append]
  cases hr : rs.findSome? failure? with
  | some error =>
      rw [hr] at hx
      rw [hx, Option.some_or]
      rfl
  | none =>
      rw [hr] at hx
      obtain ⟨a, rfl⟩ := hx
      rw [Option.none_or]
      exact hf a

theorem map {rs : List (Reference H)} {x : Except RenderError α} (f : α → β)
    (hx : Settles failure? rs x) : Settles failure? rs (do let a ← x; return f a) := by
  have h := hx.bind fun a => Settles.pure (f a)
  rwa [List.append_nil] at h

theorem exists_ok_iff {rs : List (Reference H)} {x : Except RenderError α}
    (hx : Settles failure? rs x) : (∃ a, x = .ok a) ↔ ∀ r ∈ rs, failure? r = none := by
  unfold Settles at hx
  cases hf : rs.findSome? failure? with
  | none =>
      rw [hf] at hx
      have hall := List.findSome?_eq_none_iff.mp hf
      exact ⟨fun _ => hall, fun _ => hx⟩
  | some error =>
      rw [hf] at hx
      obtain ⟨r, hr, he⟩ := List.exists_of_findSome?_eq_some hf
      constructor
      · rintro ⟨a, rfl⟩
        cases hx
      · intro hall
        rw [hall r hr] at he
        cases he

theorem eq_error {rs : List (Reference H)} {x : Except RenderError α} {error : RenderError}
    (hx : Settles failure? rs x) (hf : rs.findSome? failure? = some error) : x = .error error := by
  rw [Settles, hf] at hx
  exact hx

end Settles

variable {s : Scope H}

mutual

theorem Term.settles_evaluate (hs : s.FailsBy failure?) : (t : Term H) →
    Settles failure? (t.collect Term.reference) (t.evaluate s)
  | .host handle => hs.value handle
  | .str text => Settles.pure (Value.string text)
  | .bool b => Settles.pure (Value.bool b)
  | .template t => (t.settles_render hs).bind fun markup => Settles.pure (Value.html markup)
  | .list items => (Term.settles_evaluateAll hs items).bind fun vs => Settles.pure (Value.list vs)
  | .object o => (o.settles_evaluate hs).bind fun fields => Settles.pure (Value.object fields)
  | .raw inner => (inner.settles_evaluate hs).bind fun v => Settles.pure (Value.html v.rawText)
  | .attributes o =>
      (o.settles_evaluate hs).bind fun fields => Settles.pure (Value.html (joinAttributes fields))
  | .call callee props => by
      refine Settles.bind (props.settles_evaluate hs) ?_
      intro fields
      exact hs.component callee (.object fields)

theorem Term.settles_evaluateAll (hs : s.FailsBy failure?) : (ts : List (Term H)) →
    Settles failure? (Term.collectAll Term.reference ts) (Term.evaluateAll s ts)
  | [] => Settles.pure []
  | t :: ts => by
      refine Settles.bind (t.settles_evaluate hs) ?_
      intro v
      exact (Term.settles_evaluateAll hs ts).map (v :: ·)

theorem Template.settles_render (hs : s.FailsBy failure?) : (t : Template H) →
    Settles failure? t.references (t.render s)
  | ⟨segments⟩ => Segment.settles_renderAll hs segments

theorem Segment.settles_render (hs : s.FailsBy failure?) : (p : Segment H) →
    Settles failure? (p.collect Term.reference) (p.render s)
  | .literal text => Settles.pure text
  | .expression term => (term.settles_evaluate hs).map Value.toHtml

theorem Segment.settles_renderAll (hs : s.FailsBy failure?) : (ps : List (Segment H)) →
    Settles failure? (Segment.collectAll Term.reference ps) (Segment.renderAll s ps)
  | [] => Settles.pure ""
  | p :: ps => by
      refine Settles.bind (p.settles_render hs) ?_
      intro m
      exact (Segment.settles_renderAll hs ps).map (m ++ ·)

theorem ObjectLiteral.settles_evaluate (hs : s.FailsBy failure?) : (o : ObjectLiteral H) →
    Settles failure? (o.collect Term.reference) (o.evaluate s)
  | ⟨entries⟩ => (Entry.settles_allPairs hs entries).map Fields.ofPairs

theorem Entry.settles_pairs (hs : s.FailsBy failure?) : (e : Entry H) →
    Settles failure? (e.collect Term.reference) (e.pairs s)
  | .field key term => (term.settles_evaluate hs).map fun v => [(key, v)]
  | .spread handle => (hs.value handle).map Value.spreadFields

theorem Entry.settles_allPairs (hs : s.FailsBy failure?) : (es : List (Entry H)) →
    Settles failure? (Entry.collectAll Term.reference es) (Entry.allPairs s es)
  | [] => Settles.pure []
  | e :: es => by
      refine Settles.bind (e.settles_pairs hs) ?_
      intro ps
      exact (Entry.settles_allPairs hs es).map (ps ++ ·)

end

end

def Reference.error : Reference String → RenderError
  | .value handle => .unbound handle
  | .component name => .unknownComponent name

namespace Bindings

def resolves (b : Bindings) : Reference String → Bool
  | .value handle => (b.values.get? handle).isSome
  | .component name => (b.components.get? name).isSome

def failure? (b : Bindings) (r : Reference String) : Option RenderError :=
  if b.resolves r then none else some r.error

def NeverFails (b : Bindings) : Prop :=
  ∀ name run, b.components.get? name = some run → ∀ props, ∃ v, run props = .ok v

theorem neverFails_empty : ({} : Bindings).NeverFails := by
  intro name run h
  cases h

theorem NeverFails.addValue {b : Bindings} (hb : b.NeverFails) (handle : String) (value : Value) :
    (b.addValue handle value).NeverFails :=
  hb

theorem NeverFails.addComponent {b : Bindings} (hb : b.NeverFails) (name : String)
    {run : Value → Except RenderError Value} (hr : ∀ props, ∃ v, run props = .ok v) :
    (b.addComponent name run).NeverFails := by
  intro key found h
  rw [Bindings.addComponent, Fields.get?_insert] at h
  split at h
  · cases h
    exact hr
  · exact hb key found h

theorem failsBy_toScope {b : Bindings} (hb : b.NeverFails) : b.toScope.FailsBy b.failure? where
  value handle := by
    cases h : b.values.get? handle with
    | none => simp [Settles, failure?, resolves, toScope, Reference.error, h]
    | some v => simp [Settles, failure?, resolves, toScope, h]
  component name props := by
    cases h : b.components.get? name with
    | none => simp [Settles, failure?, resolves, toScope, Reference.error, h]
    | some run =>
        obtain ⟨v, hv⟩ := hb name run h props
        simp [Settles, failure?, resolves, toScope, h, hv]

theorem failure?_eq_none_iff (b : Bindings) (r : Reference String) :
    b.failure? r = none ↔ b.resolves r = true := by
  cases h : b.resolves r <;> simp [failure?, h]

theorem findSome?_failure? (b : Bindings) (rs : List (Reference String)) :
    rs.findSome? b.failure? = (rs.find? fun r => !b.resolves r).map (·.error) := by
  induction rs with
  | nil => rfl
  | cons r rs ih => cases h : b.resolves r <;> simp [failure?, h, ih]

end Bindings

theorem render_compile_eq_first_unresolved (b : Bindings) (hb : b.NeverFails) (o : Options)
    (n : Node String) :
    ((∃ markup, (compile o n).output.render b.toScope = .ok markup) ↔
      ∀ r ∈ n.references o, b.resolves r = true) ∧
    ∀ r, (n.references o).find? (fun r => !b.resolves r) = some r →
      (compile o n).output.render b.toScope = .error r.error := by
  have hr : (compile o n).output.references = n.references o := n.references_compile o
  have hs := (compile o n).output.settles_render (Bindings.failsBy_toScope hb)
  rw [hr] at hs
  refine ⟨?_, ?_⟩
  · rw [hs.exists_ok_iff]
    simp only [Bindings.failure?_eq_none_iff]
  · intro r hfirst
    apply hs.eq_error
    rw [Bindings.findSome?_failure?, hfirst, Option.map_some]

def echoing : Bindings :=
  (({} : Bindings).addValue "x" (.string "1")).addComponent "Echo" fun props => .ok props

def listing : Node String :=
  .element ⟨"p", [.spread "rest", .host "id" "x"],
    [.element ⟨"Echo", [.host "a" "x"], [.element ⟨"Gone", [.host "b" "y"], [], true⟩], true⟩,
      .expression "z"], true⟩

theorem render_compile_eq_first_unresolved_listing :
    echoing.NeverFails ∧
    (compile {} listing).output.render echoing.toScope = .error (.unbound "rest") ∧
    (compile {} listing).output.render ((echoing.addValue "rest" .null).addValue "y" .null).toScope =
      .error (.unknownComponent "Gone") ∧
    ∃ markup, (compile {} (.element ⟨"Echo", [.host "a" "x"], [], false⟩)).output.render
      echoing.toScope = .ok markup := by
  have hb : echoing.NeverFails :=
    (Bindings.neverFails_empty.addValue _ _).addComponent _ fun props => ⟨props, rfl⟩
  refine ⟨hb, ?_, ?_, ?_⟩
  · exact (render_compile_eq_first_unresolved echoing hb {} listing).2 (.value "rest") rfl
  · exact (render_compile_eq_first_unresolved _ ((hb.addValue _ _).addValue _ _) {} listing).2
      (.component "Gone") rfl
  · refine (render_compile_eq_first_unresolved echoing hb {} _).1.mpr ?_
    decide

end HtmlTemplate
