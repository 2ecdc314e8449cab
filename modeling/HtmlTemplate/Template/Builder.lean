import HtmlTemplate.Template.Basic

namespace HtmlTemplate

variable {H : Type}

structure Builder (H : Type) where
  segments : List (Segment H)
  pending : String

namespace Builder

def empty : Builder H :=
  ⟨[], ""⟩

def push (b : Builder H) : Segment H → Builder H
  | .literal text => ⟨b.segments, b.pending ++ text⟩
  | .expression term => ⟨b.segments ++ [.literal b.pending, .expression term], ""⟩

def finish (b : Builder H) : Template H :=
  ⟨b.segments ++ [.literal b.pending]⟩

def pushAll (b : Builder H) (pieces : List (Segment H)) : Builder H :=
  pieces.foldl push b

end Builder

def Template.ofPieces (pieces : List (Segment H)) : Template H :=
  (Builder.empty.pushAll pieces).finish

def Segment.alternate (pending : String) : List (Segment H) → List (Segment H)
  | [] => [.literal pending]
  | .literal text :: pieces => alternate (pending ++ text) pieces
  | .expression term :: pieces => .literal pending :: .expression term :: alternate "" pieces

def Segment.alternates : List (Segment H) → Bool
  | [.literal _] => true
  | .literal _ :: .expression _ :: segments => alternates segments
  | _ => false

theorem Builder.segments_finish_pushAll (b : Builder H) (pieces : List (Segment H)) :
    (b.pushAll pieces).finish.segments = b.segments ++ Segment.alternate b.pending pieces := by
  induction pieces generalizing b with
  | nil => rfl
  | cons p ps ih =>
      rw [show b.pushAll (p :: ps) = (b.push p).pushAll ps from rfl, ih]
      cases p <;> simp [push, Segment.alternate]

theorem Template.segments_ofPieces (pieces : List (Segment H)) :
    (Template.ofPieces pieces).segments = Segment.alternate "" pieces := by
  simp [Template.ofPieces, Builder.segments_finish_pushAll, Builder.empty]

end HtmlTemplate
