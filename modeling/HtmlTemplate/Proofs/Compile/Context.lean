import HtmlTemplate.Proofs.Compile.Output

namespace HtmlTemplate

open CompileM

variable {H α : Type}

def Compiled.append (c d : Compiled (List α)) : Compiled (List α) :=
  ⟨c.output ++ d.output, c.helpers.union d.helpers, c.diagnostics ++ d.diagnostics⟩

namespace CompileM

def Records (a : CompileM α) (c : Compiled α) : Prop :=
  ∀ l : Log, a.run l = (c.output, ⟨l.helpers.union c.helpers, l.diagnostics ++ c.diagnostics⟩)

theorem records_of_addsOnly {a : CompileM α} [AddsOnly a] {c : Compiled α}
    (ho : a.output = c.output) (hl : a.added = ⟨c.helpers, c.diagnostics⟩) : a.Records c := by
  intro l
  rw [AddsOnly.run_eq, ho, hl, Log.append]

end CompileM

theorem HelperSet.union_comm (s t : HelperSet) : s.union t = t.union s := by
  ext k
  simp [Bool.or_comm]

theorem Log.append_comm_of_diagnostics {l m : Log} (h : m.diagnostics = []) :
    l.append m = m.append l := by
  simp [append, h, HelperSet.union_comm l.helpers]

theorem Child.added_flattenAll_append (cs ds : List (Child H)) :
    (flattenAll (cs ++ ds)).added = (flattenAll cs).added.append (flattenAll ds).added := by
  induction cs with
  | nil => simp [flattenAll]
  | cons c cs ih => simp [flattenAll, ih, Log.append_assoc]

section

variable (o : Options)

theorem output_compileChildren_append (xs ys : List (Node H)) :
    (compileChildren o (xs ++ ys)).output =
      (compileChildren o xs).output ++ (compileChildren o ys).output := by
  induction xs with
  | nil => rfl
  | cons x xs ih => simp [ih]

theorem added_compileChildren_append (xs ys : List (Node H)) :
    (compileChildren o (xs ++ ys)).added =
      (compileChildren o xs).added.append (compileChildren o ys).added := by
  induction xs with
  | nil => simp [compileChildren]
  | cons x xs ih => simp [compileChildren, ih, Log.append_assoc]

instance addsOnly_flattenFragment (ns : List (Node H)) : AddsOnly (flattenFragment o ns) := by
  unfold flattenFragment
  infer_instance

@[simp] theorem output_flattenFragment (ns : List (Node H)) :
    (flattenFragment o ns).output = (compileChildren o ns).output.flatMap (·.items) := by
  simp [flattenFragment]

theorem added_flattenFragment (ns : List (Node H)) :
    (flattenFragment o ns).added =
      (compileChildren o ns).added.append
        (Child.flattenAll (compileChildren o ns).output).added := by
  simp [flattenFragment]

-- The children are all compiled before the first text is flattened. Flattening reports nothing, so
-- what it adds may be moved past what the remaining children add.
theorem added_flattenFragment_append (xs ys : List (Node H)) :
    (flattenFragment o (xs ++ ys)).added =
      (flattenFragment o xs).added.append (flattenFragment o ys).added := by
  have hswap : (compileChildren o ys).added.append
        (Child.flattenAll (compileChildren o xs).output).added =
      (Child.flattenAll (compileChildren o xs).output).added.append
        (compileChildren o ys).added :=
    Log.append_comm_of_diagnostics (Child.diagnostics_added_flattenAll _)
  calc (flattenFragment o (xs ++ ys)).added
      = (compileChildren o xs).added.append (((compileChildren o ys).added.append
          (Child.flattenAll (compileChildren o xs).output).added).append
            (Child.flattenAll (compileChildren o ys).output).added) := by
        rw [added_flattenFragment, added_compileChildren_append, output_compileChildren_append,
          Child.added_flattenAll_append]
        simp only [Log.append_assoc]
    _ = (flattenFragment o xs).added.append (flattenFragment o ys).added := by
        rw [hswap, added_flattenFragment, added_flattenFragment]
        simp only [Log.append_assoc]

def Node.alone? : Node H → Option (Child H)
  | .element e => some (.element (HtmlTemplate.compile o (.element e)).output)
  | .fragment children => some (.fragment (flattenFragment o children).compiled.output)
  | .text raw => Child.text? raw
  | .expression handle => some (.expression handle)
  | .emptyExpression => none

theorem Node.output_child?_eq_alone? (n : Node H) : (n.child? o).output = n.alone? o := by
  cases n with
  | element e =>
      rw [Node.output_child?_element]
      rfl
  | fragment children =>
      rw [Node.output_child?_fragment, ← output_flattenFragment]
      rfl
  | text raw => exact Node.output_child?_text o raw
  | expression handle => rfl
  | emptyExpression => rfl

theorem output_compileChildren_eq (ns : List (Node H)) :
    (compileChildren o ns).output = ns.filterMap (·.alone? o) := by
  induction ns with
  | nil => rfl
  | cons n ns ih =>
      rw [output_compileChildren_cons, ih, Node.output_child?_eq_alone?]
      cases h : n.alone? o <;> simp [h]

theorem Element.output_assemble_pure (e : Element H) (children : CompileM (List (Child H)))
    [AddsOnly children] :
    (e.assemble o children).output = (e.assemble o (pure children.output)).output := by
  unfold assemble
  cases Tag.kind e.tag with
  | host => simp only [output_assembleHost, output_content, output_pure]
  | component => simp only [output_assembleComponent, output_pure]
  | unsupported => rfl

theorem Element.output_compile_eq (e : Element H) :
    (e.compile o).output = (e.assemble o (pure (e.children.filterMap (·.alone? o)))).output := by
  obtain ⟨tag, attributes, children, closed⟩ := e
  rw [Element.compile, Element.output_assemble_pure, output_compileChildren_eq]

end

theorem compile_records_alone (o : Options) :
    (∀ e : Element H, (e.compile o).Records (compile o (.element e))) ∧
    (∀ xs ys : List (Node H), (compileChildren o (xs ++ ys)).Records
      ((compileChildren o xs).compiled.append (compileChildren o ys).compiled)) ∧
    (∀ xs ys : List (Node H), (flattenFragment o (xs ++ ys)).Records
      ((flattenFragment o xs).compiled.append (flattenFragment o ys).compiled)) ∧
    (∀ e : Element H, (compile o (.element e)).output =
      (e.assemble o (pure (e.children.filterMap (·.alone? o)))).compiled.output) ∧
    ∀ ns : List (Node H), (flattenFragment o ns).compiled.output =
      (ns.filterMap (·.alone? o)).flatMap (·.items) := by
  refine ⟨?element, ?children, ?fragment, ?parent, ?items⟩
  case element =>
    intro e
    exact records_of_addsOnly rfl rfl
  case children =>
    intro xs ys
    exact records_of_addsOnly (output_compileChildren_append o xs ys)
      (added_compileChildren_append o xs ys)
  case fragment =>
    intro xs ys
    have ho : (flattenFragment o (xs ++ ys)).output =
        (flattenFragment o xs).output ++ (flattenFragment o ys).output := by
      simp [output_compileChildren_append]
    exact records_of_addsOnly ho (added_flattenFragment_append o xs ys)
  case parent =>
    intro e
    exact e.output_compile_eq o
  case items =>
    intro ns
    rw [← output_compileChildren_eq]
    exact output_flattenFragment o ns

end HtmlTemplate
