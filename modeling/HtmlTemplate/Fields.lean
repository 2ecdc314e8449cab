namespace HtmlTemplate

abbrev Fields (α : Type) := List (String × α)

namespace Fields

variable {α : Type}

def insert (key : String) (value : α) : Fields α → Fields α
  | [] => [(key, value)]
  | (k, v) :: fs => if k = key then (key, value) :: fs else (k, v) :: insert key value fs

def get? : Fields α → String → Option α
  | [], _ => none
  | (k, v) :: fs, key => if k = key then some v else get? fs key

def ofPairs (ps : List (String × α)) : Fields α :=
  ps.foldl (fun fs p => fs.insert p.1 p.2) []

theorem get?_insert (key k : String) (value : α) (fs : Fields α) :
    (fs.insert key value).get? k = if key = k then some value else fs.get? k := by
  induction fs with
  | nil => simp [insert, get?]
  | cons f fs ih =>
      obtain ⟨k', v⟩ := f
      by_cases h : k' = key <;> by_cases h' : k' = k <;> grind [insert, get?]

end Fields

end HtmlTemplate
