import HtmlTemplate.Proofs.Compile.Context

namespace HtmlTemplate

open CompileM

variable {H : Type}

mutual

def Node.collapse : Node H → Node H
  | .element e => .element e.collapse
  | .fragment children => .fragment (Node.splice children)
  | .text raw => .text raw
  | .expression handle => .expression handle
  | .emptyExpression => .emptyExpression

def Element.collapse : Element H → Element H
  | ⟨tag, attributes, children, closed⟩ => ⟨tag, attributes, Node.collapseAll children, closed⟩

def Node.collapseAll : List (Node H) → List (Node H)
  | [] => []
  | n :: ns => n.collapse :: Node.collapseAll ns

def Node.splice : List (Node H) → List (Node H)
  | [] => []
  | n :: ns => n.spliced ++ Node.splice ns

def Node.spliced : Node H → List (Node H)
  | .element e => [.element e.collapse]
  | .fragment children => Node.splice children
  | .text raw => [.text raw]
  | .expression handle => [.expression handle]
  | .emptyExpression => [.emptyExpression]

end

def Node.isFragment : Node H → Bool
  | .fragment _ => true
  | _ => false

mutual

def Node.isCollapsed : Node H → Bool
  | .element e => e.isCollapsed
  | .fragment children => children.all (fun n => !n.isFragment) && Node.allCollapsed children
  | .text _ => true
  | .expression _ => true
  | .emptyExpression => true

def Element.isCollapsed : Element H → Bool
  | ⟨_, _, children, _⟩ => Node.allCollapsed children

def Node.allCollapsed : List (Node H) → Bool
  | [] => true
  | n :: ns => n.isCollapsed && Node.allCollapsed ns

end

theorem Node.allCollapsed_append (xs ys : List (Node H)) :
    Node.allCollapsed (xs ++ ys) = (Node.allCollapsed xs && Node.allCollapsed ys) := by
  induction xs with
  | nil => rfl
  | cons x xs ih => rw [List.cons_append, Node.allCollapsed, Node.allCollapsed, ih, Bool.and_assoc]

mutual

theorem Element.isCollapsed_collapse : (e : Element H) → e.collapse.isCollapsed = true
  | ⟨tag, attributes, children, closed⟩ => by
      rw [Element.collapse, Element.isCollapsed, Node.allCollapsed_collapseAll children]

theorem Node.isCollapsed_collapse : (n : Node H) → n.collapse.isCollapsed = true
  | .element e => by rw [Node.collapse, Node.isCollapsed, e.isCollapsed_collapse]
  | .fragment children => by
      obtain ⟨hflat, hall⟩ := Node.flat_splice children
      rw [Node.collapse, Node.isCollapsed, hflat, hall]
      rfl
  | .text _ => rfl
  | .expression _ => rfl
  | .emptyExpression => rfl

theorem Node.allCollapsed_collapseAll : (ns : List (Node H)) →
    Node.allCollapsed (Node.collapseAll ns) = true
  | [] => rfl
  | n :: ns => by
      rw [Node.collapseAll, Node.allCollapsed, n.isCollapsed_collapse,
        Node.allCollapsed_collapseAll ns]
      rfl

theorem Node.flat_splice : (ns : List (Node H)) →
    (Node.splice ns).all (fun n => !n.isFragment) = true ∧ Node.allCollapsed (Node.splice ns) = true
  | [] => ⟨rfl, rfl⟩
  | n :: ns => by
      obtain ⟨hflat, hall⟩ := n.flat_spliced
      obtain ⟨hflats, halls⟩ := Node.flat_splice ns
      rw [Node.splice, List.all_append, Node.allCollapsed_append, hflat, hall, hflats, halls]
      exact ⟨rfl, rfl⟩

theorem Node.flat_spliced : (n : Node H) →
    n.spliced.all (fun m => !m.isFragment) = true ∧ Node.allCollapsed n.spliced = true
  | .element e => by
      have he := e.isCollapsed_collapse
      simp [Node.spliced, Node.isFragment, Node.allCollapsed, Node.isCollapsed, he]
  | .fragment children => by
      rw [Node.spliced]
      exact Node.flat_splice children
  | .text _ => ⟨rfl, rfl⟩
  | .expression _ => ⟨rfl, rfl⟩
  | .emptyExpression => ⟨rfl, rfl⟩

end

theorem Node.any_isContent_collapseAll (ns : List (Node H)) :
    (Node.collapseAll ns).any (·.isContent) = ns.any (·.isContent) := by
  induction ns with
  | nil => rfl
  | cons n ns ih =>
      have hn : n.collapse.isContent = n.isContent := by cases n <;> rfl
      rw [Node.collapseAll, List.any_cons, List.any_cons, hn, ih]

section Flatten

variable {o : Options}

theorem flattenFragment_append_congr {xs xs' ys ys' : List (Node H)}
    (hx : flattenFragment o xs' = flattenFragment o xs)
    (hy : flattenFragment o ys' = flattenFragment o ys) :
    flattenFragment o (xs' ++ ys') = flattenFragment o (xs ++ ys) := by
  have houtput (as bs : List (Node H)) : (flattenFragment o (as ++ bs)).output =
      (flattenFragment o as).output ++ (flattenFragment o bs).output := by
    simp [output_compileChildren_append]
  refine AddsOnly.eq_of_output_added ?_ ?_
  · rw [houtput, houtput, hx, hy]
  · rw [added_flattenFragment_append, added_flattenFragment_append, hx, hy]

theorem flattenFragment_singleton_fragment (children : List (Node H)) :
    flattenFragment o [.fragment children] = flattenFragment o children := by
  refine AddsOnly.eq_of_output_added ?_ ?_
  · simp [Child.items]
  · simp [added_flattenFragment, compileChildren, Node.child?, Child.flattenAll, Child.flatten]

theorem flattenFragment_singleton_congr {n n' : Node H} (h : n'.child? o = n.child? o) :
    flattenFragment o [n'] = flattenFragment o [n] := by
  simp only [flattenFragment, compileChildren, h]

theorem Node.child?_fragment_congr {xs ys : List (Node H)}
    (h : flattenFragment o xs = flattenFragment o ys) :
    Node.child? o (.fragment xs) = Node.child? o (.fragment ys) := by
  have hchild (ns : List (Node H)) : Node.child? o (.fragment ns) = do
      let items ← flattenFragment o ns
      return some (.fragment items) := by
    simp only [Node.child?, flattenFragment, bind_assoc]
  rw [hchild, hchild, h]

end Flatten

mutual

theorem Element.compile_collapse (o : Options) : (e : Element H) →
    e.collapse.compile o = e.compile o
  | ⟨tag, attributes, children, closed⟩ => by
      rw [Element.collapse, Element.compile, Element.compile,
        compileChildren_collapseAll o children]
      exact Element.assemble_congr o _ rfl rfl rfl rfl (Node.any_isContent_collapseAll children)

theorem Node.child?_collapse (o : Options) : (n : Node H) → n.collapse.child? o = n.child? o
  | .element e => by rw [Node.collapse, Node.child?, Node.child?, e.compile_collapse o]
  | .fragment children => by
      rw [Node.collapse]
      exact Node.child?_fragment_congr (flattenFragment_splice o children)
  | .text _ => rfl
  | .expression _ => rfl
  | .emptyExpression => rfl

theorem compileChildren_collapseAll (o : Options) : (ns : List (Node H)) →
    compileChildren o (Node.collapseAll ns) = compileChildren o ns
  | [] => rfl
  | n :: ns => by
      rw [Node.collapseAll, compileChildren, compileChildren, n.child?_collapse o,
        compileChildren_collapseAll o ns]

theorem flattenFragment_splice (o : Options) : (ns : List (Node H)) →
    flattenFragment o (Node.splice ns) = flattenFragment o ns
  | [] => rfl
  | n :: ns => by
      rw [Node.splice, ← List.singleton_append]
      exact flattenFragment_append_congr (n.flattenFragment_spliced o) (flattenFragment_splice o ns)

theorem Node.flattenFragment_spliced (o : Options) : (n : Node H) →
    flattenFragment o n.spliced = flattenFragment o [n]
  | .element e => by
      refine flattenFragment_singleton_congr ?_
      rw [Node.child?, Node.child?, e.compile_collapse o]
  | .fragment children => by
      rw [Node.spliced, flattenFragment_singleton_fragment, flattenFragment_splice o children]
  | .text _ => rfl
  | .expression _ => rfl
  | .emptyExpression => rfl

end

theorem Node.compile_collapse (o : Options) (n : Node H) : n.collapse.compile o = n.compile o := by
  cases n with
  | element e => exact e.compile_collapse o
  | fragment children =>
      rw [Node.collapse, Node.compile, Node.compile, fragmentValue, fragmentValue,
        flattenFragment_splice]
  | text raw => rfl
  | expression handle => rfl
  | emptyExpression => rfl

theorem compileFragmentNode_collapse (o : Options) (n : Node H) :
    compileFragmentNode o n.collapse = compileFragmentNode o n := by
  cases n with
  | fragment children =>
      rw [Node.collapse, compileFragmentNode, compileFragmentNode, compileFragment, compileFragment,
        fragmentValue, fragmentValue, flattenFragment_splice]
  | element e => rfl
  | text raw => rfl
  | expression handle => rfl
  | emptyExpression => rfl

theorem compile_collapse_eq (o : Options) (n : Node H) :
    compile o n.collapse = compile o n ∧
      compileFragmentNode o n.collapse = compileFragmentNode o n ∧
      n.collapse.isCollapsed = true := by
  have h := n.compile_collapse o
  refine ⟨?_, compileFragmentNode_collapse o n, n.isCollapsed_collapse⟩
  rw [compile, compile, h]

end HtmlTemplate
