import LinesAndLists.Grid.Cursor
import LinesAndLists.Grid.Point
import LinesAndLists.Log

/-! The grid points of a segment, handed out one at a time from either end. A line
keeps a cursor at each end of what is left, and steps the one whose point was taken.
Walking the whole width brings the error back to where it began, so both cursors
begin with the same error, half the width. -/
namespace LinesAndLists

/-- A segment turned so that its wider axis comes first and grows: `steep` says that
the axes were exchanged, `reversed` that the ends were. -/
structure Frame where
  steep : Bool
  reversed : Bool
  x1 : Int64
  y1 : Int64
  x2 : Int64
  y2 : Int64
  deriving DecidableEq, Repr

/-- Both axes may span the same distance; the segment is steep only if y spans more. -/
def Frame.isSteep (start finish : Point) : Bool :=
  Point.axisDistance finish.y start.y > Point.axisDistance finish.x start.x

def Frame.between (start finish : Point) : Frame :=
  let steep := isSteep start finish
  let a := if steep then start.transpose else start
  let b := if steep then finish.transpose else finish
  if a.x.toInt64 > b.x.toInt64 then
    ⟨steep, true, b.x.toInt64, b.y.toInt64, a.x.toInt64, a.y.toInt64⟩
  else
    ⟨steep, false, a.x.toInt64, a.y.toInt64, b.x.toInt64, b.y.toInt64⟩

def Frame.slope (f : Frame) : Slope Int64 :=
  let rise := f.y2 - f.y1
  { dx := f.x2 - f.x1
    dy := if rise < 0 then -rise else rise
    ystep := if f.y1 < f.y2 then 1 else -1 }

/-- `left` and `right` are in the frame, so the first point of the segment is at the
right if the line is reversed. -/
structure Line where
  steep : Bool
  reversed : Bool
  slope : Slope Int64
  left : Cursor Int64
  right : Cursor Int64
  remaining : UInt64
  deriving DecidableEq, Repr

/-- The end of a line at which a point is taken: the front is where the segment starts. -/
inductive End where
  | front
  | back
  deriving DecidableEq, Repr

def Cursor.labelled (c : Cursor Int64) : String :=
  Text.labelled "Cursor"
    [("x", Numeral.text c.x.toInt), ("y", Numeral.text c.y.toInt),
     ("error", Numeral.text c.error.toInt)]

namespace Line

def between (start finish : Point) : Line :=
  let f := Frame.between start finish
  let slope := f.slope
  let error := slope.dx / 2
  { steep := f.steep
    reversed := f.reversed
    slope
    left := ⟨f.x1, f.y1, error⟩
    right := ⟨f.x2, f.y2, error⟩
    remaining := slope.dx.toUInt64 + 1 }

/-- Cursors stay between the two ends of the segment, so no coordinate is cut off. -/
def pointAt (l : Line) (c : Cursor Int64) : Point :=
  if l.steep then ⟨c.y.toInt32, c.x.toInt32⟩ else ⟨c.x.toInt32, c.y.toInt32⟩

/-- The cursor stays on the last point when nothing is left to step to. -/
def popLeft (l : Line) : Option (Point × Line) :=
  if l.remaining = 0 then none
  else
    let remaining := l.remaining - 1
    let left := if remaining = 0 then l.left else l.left.advance l.slope
    some (l.pointAt l.left, { l with left, remaining })

def popRight (l : Line) : Option (Point × Line) :=
  if l.remaining = 0 then none
  else
    let remaining := l.remaining - 1
    let right := if remaining = 0 then l.right else l.right.retreat l.slope
    some (l.pointAt l.right, { l with right, remaining })

def pop (l : Line) : End → Option (Point × Line)
  | .front => if l.reversed then l.popRight else l.popLeft
  | .back => if l.reversed then l.popLeft else l.popRight

/-- Sizes are counted in words of 64 bits, so every number of points left is a size. -/
def size (l : Line) : Nat := l.remaining.toNat

/-- The whole state, the left cursor under the label `front`. -/
def labelled (l : Line) : String :=
  Text.labelled "Line"
    [("steep", Text.truth l.steep), ("reversed", Text.truth l.reversed),
     ("dx", Numeral.text l.slope.dx.toInt), ("dy", Numeral.text l.slope.dy.toInt),
     ("ystep", Numeral.text l.slope.ystep.toInt), ("front", l.left.labelled),
     ("back", l.right.labelled), ("remaining", Numeral.text l.size)]

def creation (start finish : Point) : Record :=
  let l := between start finish
  ⟨.trace, "line " ++ start.labelled ++ " -> " ++ finish.labelled ++
    ": steep=" ++ Text.truth l.steep ++ " reversed=" ++ Text.truth l.reversed ++
    " dx=" ++ Numeral.text l.slope.dx.toInt ++ " dy=" ++ Numeral.text l.slope.dy.toInt⟩

theorem remaining_eq_zero_iff {l : Line} : l.remaining = 0 ↔ l.size = 0 := by
  rw [size, ← UInt64.toNat_inj]
  rfl

theorem pop_eq_none_iff {l : Line} {e : End} : l.pop e = none ↔ l.size = 0 := by
  cases e <;> simp only [pop] <;> split <;> simp [popLeft, popRight, remaining_eq_zero_iff]

theorem toNat_remaining_sub_one {l : Line} (h : l.remaining ≠ 0) :
    l.size = (l.remaining - 1).toNat + 1 := by
  have positive : l.size ≠ 0 := fun zero => h (remaining_eq_zero_iff.2 zero)
  rw [size] at positive ⊢
  have bound : (1 : UInt64) ≤ l.remaining := by
    rw [UInt64.le_iff_toNat_le]
    simp
    omega
  rw [UInt64.toNat_sub_of_le _ _ bound]
  simp
  omega

theorem size_of_popLeft {l rest : Line} {p : Point} (h : l.popLeft = some (p, rest)) :
    l.size = rest.size + 1 := by
  simp only [popLeft] at h
  split at h
  · simp at h
  · rename_i left
    simp only [Option.some.injEq, Prod.mk.injEq] at h
    rw [toNat_remaining_sub_one left, ← h.2, size]

theorem size_of_popRight {l rest : Line} {p : Point} (h : l.popRight = some (p, rest)) :
    l.size = rest.size + 1 := by
  simp only [popRight] at h
  split at h
  · simp at h
  · rename_i left
    simp only [Option.some.injEq, Prod.mk.injEq] at h
    rw [toNat_remaining_sub_one left, ← h.2, size]

theorem size_of_pop {l rest : Line} {e : End} {p : Point} (h : l.pop e = some (p, rest)) :
    l.size = rest.size + 1 := by
  cases e with
  | front =>
    simp only [pop] at h
    split at h
    · exact size_of_popRight h
    · exact size_of_popLeft h
  | back =>
    simp only [pop] at h
    split at h
    · exact size_of_popLeft h
    · exact size_of_popRight h

end Line
end LinesAndLists
