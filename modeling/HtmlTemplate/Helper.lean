namespace HtmlTemplate

inductive Helper where
  | html
  | rawHtml
  | joinHtml
  deriving DecidableEq, Repr

namespace Helper

def name : Helper → String
  | .html => "html"
  | .rawHtml => "unsafeHtml"
  | .joinHtml => "joinHtml"

def all : List Helper :=
  [.html, .rawHtml, .joinHtml]

end Helper

structure HelperSet where
  html : Bool := false
  rawHtml : Bool := false
  joinHtml : Bool := false
  deriving DecidableEq, Repr

namespace HelperSet

def empty : HelperSet :=
  {}

def contains (s : HelperSet) : Helper → Bool
  | .html => s.html
  | .rawHtml => s.rawHtml
  | .joinHtml => s.joinHtml

def insert (s : HelperSet) : Helper → HelperSet
  | .html => { s with html := true }
  | .rawHtml => { s with rawHtml := true }
  | .joinHtml => { s with joinHtml := true }

def union (s t : HelperSet) : HelperSet :=
  ⟨s.html || t.html, s.rawHtml || t.rawHtml, s.joinHtml || t.joinHtml⟩

def isEmpty (s : HelperSet) : Bool :=
  !s.html && !s.rawHtml && !s.joinHtml

def toList (s : HelperSet) : List Helper :=
  Helper.all.filter s.contains

@[ext] theorem ext_contains {s t : HelperSet} (h : ∀ k, s.contains k = t.contains k) : s = t := by
  cases s
  cases t
  have h1 := h .html
  have h2 := h .rawHtml
  have h3 := h .joinHtml
  simp_all [contains]

@[simp] theorem contains_empty (k : Helper) : empty.contains k = false := by
  cases k <;> rfl

@[simp] theorem contains_insert (s : HelperSet) (j k : Helper) :
    (s.insert j).contains k = (decide (j = k) || s.contains k) := by
  cases j <;> cases k <;> simp [insert, contains]

@[simp] theorem contains_union (s t : HelperSet) (k : Helper) :
    (s.union t).contains k = (s.contains k || t.contains k) := by
  cases k <;> rfl

@[simp] theorem mem_toList (s : HelperSet) (k : Helper) :
    k ∈ s.toList ↔ s.contains k = true := by
  cases k <;> simp [toList, Helper.all]

end HelperSet

end HtmlTemplate
