import HtmlTemplate.Compile.Node

/-! An action is known by its output and by what it adds to an empty log. -/

namespace HtmlTemplate

variable {H α β : Type}

namespace HelperSet

theorem empty_union (s : HelperSet) : empty.union s = s := by
  ext k
  simp

theorem union_empty (s : HelperSet) : s.union empty = s := by
  ext k
  simp

theorem union_assoc (s t u : HelperSet) : (s.union t).union u = s.union (t.union u) := by
  ext k
  simp [Bool.or_assoc]

theorem union_insert_empty (s : HelperSet) (k : Helper) :
    s.union (empty.insert k) = s.insert k := by
  ext j
  simp [Bool.or_comm]

end HelperSet

namespace Log

@[simp] theorem empty_append (l : Log) : empty.append l = l := by
  simp [append, empty, HelperSet.empty_union]

@[simp] theorem append_empty (l : Log) : l.append empty = l := by
  simp [append, empty, HelperSet.union_empty]

theorem append_assoc (l m n : Log) : (l.append m).append n = l.append (m.append n) := by
  simp [append, HelperSet.union_assoc, List.append_assoc]

end Log

namespace CompileM

def output (a : CompileM α) : α :=
  (a.run .empty).1

def added (a : CompileM α) : Log :=
  (a.run .empty).2

class AddsOnly (a : CompileM α) : Prop where
  run_eq : ∀ l, a.run l = (a.output, l.append a.added)

theorem AddsOnly.of_run {a : CompileM α} {x : α} {m : Log}
    (h : ∀ l, a.run l = (x, l.append m)) : AddsOnly a := by
  have h0 := h .empty
  rw [Log.empty_append] at h0
  refine ⟨fun l => ?_⟩
  simp only [output, added, h0, h l]

theorem AddsOnly.eq_of_output_added {a b : CompileM α} [AddsOnly a] [AddsOnly b]
    (ho : a.output = b.output) (hl : a.added = b.added) : a = b := by
  funext l
  have ha := AddsOnly.run_eq (a := a) l
  have hb := AddsOnly.run_eq (a := b) l
  rw [ho, hl, ← hb] at ha
  exact ha

instance addsOnly_pure (x : α) : AddsOnly (pure x) := by
  refine .of_run (x := x) (m := .empty) fun l => ?_
  rw [Log.append_empty]
  rfl

@[simp] theorem output_pure (x : α) : (pure x : CompileM α).output = x :=
  rfl

@[simp] theorem added_pure (x : α) : (pure x : CompileM α).added = .empty :=
  rfl

instance addsOnly_bind (a : CompileM α) (f : α → CompileM β) [AddsOnly a] [∀ x, AddsOnly (f x)] :
    AddsOnly (a >>= f) := by
  refine .of_run (x := (f a.output).output) (m := a.added.append (f a.output).added) fun l => ?_
  change (f (a.run l).1).run (a.run l).2 = _
  rw [AddsOnly.run_eq, AddsOnly.run_eq, Log.append_assoc]

@[simp] theorem output_bind (a : CompileM α) (f : α → CompileM β) [∀ x, AddsOnly (f x)] :
    (a >>= f).output = (f a.output).output := by
  change ((f a.output).run a.added).1 = _
  rw [AddsOnly.run_eq]

@[simp] theorem added_bind (a : CompileM α) (f : α → CompileM β) [∀ x, AddsOnly (f x)] :
    (a >>= f).added = a.added.append (f a.output).added := by
  change ((f a.output).run a.added).2 = _
  rw [AddsOnly.run_eq]

instance addsOnly_map (a : CompileM α) (f : α → β) [AddsOnly a] : AddsOnly (f <$> a) := by
  rw [map_eq_pure_bind]
  infer_instance

@[simp] theorem output_map (a : CompileM α) (f : α → β) : (f <$> a).output = f a.output :=
  rfl

@[simp] theorem added_map (a : CompileM α) (f : α → β) : (f <$> a).added = a.added :=
  rfl

instance addsOnly_ite (c : Prop) [Decidable c] (a b : CompileM α) [AddsOnly a] [AddsOnly b] :
    AddsOnly (if c then a else b) := by
  split <;> infer_instance

instance addsOnly_need (k : Helper) : AddsOnly (need k) := by
  refine .of_run (x := ()) (m := ⟨.insert .empty k, []⟩) fun l => ?_
  simp only [Log.append, HelperSet.union_insert_empty, List.append_nil]
  rfl

@[simp] theorem added_need (k : Helper) : (need k).added = ⟨.insert .empty k, []⟩ :=
  rfl

instance addsOnly_report (d : Diagnostic) : AddsOnly (report d) := by
  refine .of_run (x := ()) (m := ⟨.empty, [d]⟩) fun l => ?_
  simp only [Log.append, HelperSet.union_empty]
  rfl

@[simp] theorem added_report (d : Diagnostic) : (report d).added = ⟨.empty, [d]⟩ :=
  rfl

instance addsOnly_reportIf (b : Bool) (d : Diagnostic) : AddsOnly (reportIf b d) := by
  unfold reportIf
  infer_instance

@[simp] theorem added_reportIf (b : Bool) (d : Diagnostic) :
    (reportIf b d).added = ⟨.empty, if b then [d] else []⟩ := by
  cases b <;> rfl

instance addsOnly_finish (ps : List (Segment H)) : AddsOnly (finish ps) := by
  unfold finish
  infer_instance

@[simp] theorem output_finish (ps : List (Segment H)) : (finish ps).output = .ofPieces ps :=
  rfl

@[simp] theorem added_finish (ps : List (Segment H)) :
    (finish ps).added = ⟨.insert .empty .html, []⟩ :=
  rfl

end CompileM

open CompileM

namespace Child

def items : Child H → List (Term H)
  | .text s => [.template (.ofPieces [.literal s])]
  | .expression handle => [.host handle]
  | .element t => [.template t]
  | .fragment items => items

instance addsOnly_flatten (c : Child H) : AddsOnly c.flatten := by
  cases c <;> unfold flatten <;> infer_instance

@[simp] theorem output_flatten (c : Child H) : c.flatten.output = c.items := by
  cases c <;> simp [flatten, items]

instance addsOnly_flattenAll (cs : List (Child H)) : AddsOnly (flattenAll cs) := by
  induction cs with
  | nil => exact addsOnly_pure _
  | cons c cs ih =>
      rw [flattenAll]
      infer_instance

@[simp] theorem output_flattenAll (cs : List (Child H)) :
    (flattenAll cs).output = cs.flatMap (·.items) := by
  induction cs with
  | nil => rfl
  | cons c cs ih => simp [flattenAll, ih]

theorem diagnostics_added_flatten (c : Child H) : c.flatten.added.diagnostics = [] := by
  cases c <;> rfl

theorem diagnostics_added_flattenAll (cs : List (Child H)) :
    (flattenAll cs).added.diagnostics = [] := by
  induction cs with
  | nil => rfl
  | cons c cs ih =>
      have hc := c.diagnostics_added_flatten
      simp [flattenAll, Log.append, hc, ih]

end Child

namespace ClassifiedAttributes

instance addsOnly_pieces (c : ClassifiedAttributes H) : AddsOnly c.pieces := by
  unfold pieces
  infer_instance

theorem output_pieces (c : ClassifiedAttributes H) :
    c.pieces.output =
      if c.hasSpread then [.literal " ", .expression (.attributes c.merged)]
      else c.attributes.flatMap (·.pieces) := by
  cases h : c.hasSpread <;> simp [pieces, h]

end ClassifiedAttributes

namespace Element

section

variable (o : Options) (e : Element H) (children : CompileM (List (Child H)))

theorem output_content (p : Option (Expression H)) :
    (content o children p).output =
      match p with
      | some payload => [.expression (.raw (.ofExpression payload))]
      | none => children.output.flatMap (·.pieces o) := by
  cases p <;> simp [content]

theorem output_assembleComponent :
    (e.assembleComponent o children).output =
      .ofPieces [.expression (.call e.tag
        ⟨(classify (.component o) e.attributes).props ++ childrenProp children.output⟩)] := by
  simp [assembleComponent]

theorem assemble_congr {e e' : Element H} (htag : e'.tag = e.tag)
    (hclosed : e'.explicitlyClosed = e.explicitlyClosed)
    (hhost : classify (.host o) e'.attributes = classify (.host o) e.attributes)
    (hcomponent : classify (.component o) e'.attributes = classify (.component o) e.attributes)
    (hcontent : e'.children.any (·.isContent) = e.children.any (·.isContent)) :
    e'.assemble o children = e.assemble o children := by
  have hself : e'.isSelfClosing = e.isSelfClosing := by
    rw [isSelfClosing, isSelfClosing, htag, hclosed]
  simp only [assemble, assembleHost, assembleComponent, assembleUnsupported, htag, hself, hhost,
    hcomponent, hcontent]

variable [AddsOnly children]

instance addsOnly_content (p : Option (Expression H)) : AddsOnly (content o children p) := by
  cases p <;> unfold content <;> infer_instance

theorem output_assembleHost :
    (e.assembleHost o children).output =
      .ofPieces (.literal ("<" ++ e.tag) :: (classify (.host o) e.attributes).pieces.output ++
        if e.isSelfClosing then [.literal " />"]
        else .literal ">" ::
          (content o children (classify (.host o) e.attributes).payload?).output ++
            [.literal ("</" ++ e.tag ++ ">")]) := by
  cases hc : e.isSelfClosing <;> simp [assembleHost, hc]

instance addsOnly_assemble : AddsOnly (e.assemble o children) := by
  unfold assemble assembleHost assembleComponent assembleUnsupported
  split <;> infer_instance

end

end Element

mutual

theorem Element.addsOnly_compile (o : Options) : (e : Element H) → AddsOnly (e.compile o)
  | ⟨tag, attributes, children, closed⟩ => by
      have := addsOnly_compileChildren o children
      rw [Element.compile]
      infer_instance

theorem Node.addsOnly_child? (o : Options) : (n : Node H) → AddsOnly (n.child? o)
  | .element e => by
      have := e.addsOnly_compile o
      rw [Node.child?]
      infer_instance
  | .fragment children => by
      have := addsOnly_compileChildren o children
      rw [Node.child?]
      infer_instance
  | .text _ => addsOnly_pure _
  | .expression _ => addsOnly_pure _
  | .emptyExpression => addsOnly_pure _

theorem addsOnly_compileChildren (o : Options) :
    (ns : List (Node H)) → AddsOnly (compileChildren o ns)
  | [] => addsOnly_pure _
  | n :: ns => by
      have := n.addsOnly_child? o
      have := addsOnly_compileChildren o ns
      rw [compileChildren]
      infer_instance

end

attribute [instance] Element.addsOnly_compile Node.addsOnly_child? addsOnly_compileChildren

section

variable (o : Options)

@[simp] theorem output_compileChildren_nil :
    (compileChildren o ([] : List (Node H))).output = [] :=
  rfl

@[simp] theorem output_compileChildren_cons (n : Node H) (ns : List (Node H)) :
    (compileChildren o (n :: ns)).output =
      (n.child? o).output.toList ++ (compileChildren o ns).output := by
  simp [compileChildren]

@[simp] theorem Node.output_child?_element (e : Element H) :
    (Node.child? o (.element e)).output = some (.element (e.compile o).output) := by
  simp [Node.child?]

@[simp] theorem Node.output_child?_fragment (children : List (Node H)) :
    (Node.child? o (.fragment children)).output =
      some (.fragment ((compileChildren o children).output.flatMap (·.items))) := by
  simp [Node.child?]

@[simp] theorem Node.output_child?_text (raw : String) :
    (Node.child? o (.text raw : Node H)).output = Child.text? raw := by
  rw [Node.child?, output_pure]

@[simp] theorem Node.output_child?_expression (handle : H) :
    (Node.child? o (.expression handle)).output = some (.expression handle) :=
  rfl

@[simp] theorem Node.output_child?_emptyExpression :
    (Node.child? o (.emptyExpression : Node H)).output = none :=
  rfl

@[simp] theorem output_fragmentValue (children : List (Node H)) :
    (fragmentValue o children).output =
      .ofItems ((compileChildren o children).output.flatMap (·.items)) := by
  simp [fragmentValue, flattenFragment]

end

end HtmlTemplate
