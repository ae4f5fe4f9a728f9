/-! The stepping rule of line rasterization, in the frame where the line runs to the
right and is at most as high as it is wide. The rule never divides: the error says how
far the line still is from its next change of height. It is stated over any kind of
number, to run on words and to be reasoned about over the integers. -/
namespace LinesAndLists

/-- How a line runs: its width, its height, and the sign of its change of height. -/
structure Slope (α : Type) where
  dx : α
  dy : α
  ystep : α
  deriving DecidableEq, Repr

structure Cursor (α : Type) where
  x : α
  y : α
  error : α
  deriving DecidableEq, Repr

namespace Cursor

variable {α : Type} [Add α] [Sub α] [OfNat α 0] [OfNat α 1]

@[inline] def advance [LT α] [DecidableLT α] (s : Slope α) (c : Cursor α) : Cursor α :=
  let error := c.error - s.dy
  if error < 0 then ⟨c.x + 1, c.y + s.ystep, error + s.dx⟩ else ⟨c.x + 1, c.y, error⟩

/-- One column to the left. This undoes `advance` as long as the error is at least 0
and below the width, and the line is at most as high as it is wide. -/
@[inline] def retreat [LE α] [DecidableLE α] (s : Slope α) (c : Cursor α) : Cursor α :=
  let error := c.error + s.dy
  if s.dx ≤ error then ⟨c.x - 1, c.y - s.ystep, error - s.dx⟩ else ⟨c.x - 1, c.y, error⟩

end Cursor
end LinesAndLists
