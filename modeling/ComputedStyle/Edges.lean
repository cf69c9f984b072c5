import ComputedStyle.Length

namespace ComputedStyle

inductive Side where
  | top
  | right
  | bottom
  | left
deriving DecidableEq, Repr

namespace Side

def all : List Side := [top, right, bottom, left]

def name : Side → String
  | top => "top"
  | right => "right"
  | bottom => "bottom"
  | left => "left"

end Side

structure Edges (α : Type) where
  top : α
  right : α
  bottom : α
  left : α
deriving DecidableEq, Repr

namespace Edges

def all (value : α) : Edges α := ⟨value, value, value, value⟩

/-- One value stands for all sides; of two the first is vertical; of three the second is
horizontal; four go clockwise from the top. Further values are ignored. -/
def ofFanout? : List α → Option (Edges α)
  | [] => none
  | [a] => some ⟨a, a, a, a⟩
  | [a, b] => some ⟨a, b, a, b⟩
  | [a, b, c] => some ⟨a, b, c, b⟩
  | a :: b :: c :: d :: _ => some ⟨a, b, c, d⟩

def ofSides (f : Side → α) : Edges α :=
  ⟨f .top, f .right, f .bottom, f .left⟩

/-- The sides clockwise from the top, each of which may fail. -/
def ofSidesM [Monad m] (f : Side → m α) : m (Edges α) :=
  return ⟨← f .top, ← f .right, ← f .bottom, ← f .left⟩

def get (edges : Edges α) : Side → α
  | .top => edges.top
  | .right => edges.right
  | .bottom => edges.bottom
  | .left => edges.left

def toList (edges : Edges α) : List α :=
  [edges.top, edges.right, edges.bottom, edges.left]

def map (f : α → β) (edges : Edges α) : Edges β :=
  ⟨f edges.top, f edges.right, f edges.bottom, f edges.left⟩

def horizontal (edges : Edges Length) : Length :=
  edges.left + edges.right

def vertical (edges : Edges Length) : Length :=
  edges.top + edges.bottom

end Edges

end ComputedStyle
