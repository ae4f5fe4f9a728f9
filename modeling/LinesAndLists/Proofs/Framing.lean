import LinesAndLists.Proofs.Words

/-! The frame of a segment over the integers: how its ends come from the points asked
for, and the track of cursors that runs from its left end to its right end. -/
namespace LinesAndLists

namespace Point

def coordinates (p : Point) : Int × Int := (p.x.toInt, p.y.toInt)

theorem coordinates_injective {p q : Point} (same : p.coordinates = q.coordinates) : p = q := by
  cases p
  cases q
  simpa [coordinates, Int32.toInt_inj] using same

end Point

def Frame.line (f : Frame) : Line :=
  { steep := f.steep
    reversed := f.reversed
    slope := f.slope
    left := ⟨f.x1, f.y1, f.slope.dx / 2⟩
    right := ⟨f.x2, f.y2, f.slope.dx / 2⟩
    remaining := f.slope.dx.toUInt64 + 1 }

theorem Line.between_eq_line (start finish : Point) :
    Line.between start finish = (Frame.between start finish).line := rfl

namespace Frame

def place (f : Frame) (x y : Int) : Int × Int := if f.steep then (y, x) else (x, y)

/-- A frame as it is made from two points: to the right, and at most as high as wide. -/
structure Upright (f : Frame) : Prop where
  x1 : Short f.x1.toInt
  y1 : Short f.y1.toInt
  x2 : Short f.x2.toInt
  y2 : Short f.y2.toInt
  forward : f.x1.toInt ≤ f.x2.toInt
  flat : (f.y2.toInt - f.y1.toInt).natAbs ≤ f.x2.toInt - f.x1.toInt

theorem isSteep_iff {a b : Point} :
    isSteep a b = true ↔ Point.axisDistance b.x a.x < Point.axisDistance b.y a.y := by
  simp [isSteep]

/-- The frame between two points whose axes are exchanged already. -/
def ordered (steep : Bool) (p q : Point) : Frame :=
  if p.x.toInt64 > q.x.toInt64 then
    ⟨steep, true, q.x.toInt64, q.y.toInt64, p.x.toInt64, p.y.toInt64⟩
  else
    ⟨steep, false, p.x.toInt64, p.y.toInt64, q.x.toInt64, q.y.toInt64⟩

def turned (steep : Bool) (p : Point) : Point := if steep then p.transpose else p

theorem between_eq_ordered (a b : Point) :
    between a b = ordered (isSteep a b) (turned (isSteep a b) a) (turned (isSteep a b) b) := rfl

variable {steep : Bool} {p q : Point}

theorem ordered_of_lt (back : q.x.toInt < p.x.toInt) : ordered steep p q =
    ⟨steep, true, q.x.toInt64, q.y.toInt64, p.x.toInt64, p.y.toInt64⟩ :=
  if_pos (by simpa [Int64.lt_iff_toInt_lt] using back)

theorem ordered_of_le (forth : p.x.toInt ≤ q.x.toInt) : ordered steep p q =
    ⟨steep, false, p.x.toInt64, p.y.toInt64, q.x.toInt64, q.y.toInt64⟩ :=
  if_neg (by simpa [Int64.lt_iff_toInt_lt] using forth)

@[simp] theorem ordered_steep : (ordered steep p q).steep = steep := by
  unfold ordered
  split <;> rfl

@[simp] theorem between_steep (a b : Point) : (between a b).steep = isSteep a b := by
  rw [between_eq_ordered, ordered_steep]

theorem spans_ordered :
    (ordered steep p q).x2.toInt - (ordered steep p q).x1.toInt = Point.axisDistance q.x p.x ∧
      ((ordered steep p q).y2.toInt - (ordered steep p q).y1.toInt).natAbs =
        Point.axisDistance q.y p.y := by
  simp only [Point.axisDistance]
  by_cases back : q.x.toInt < p.x.toInt
  · simp only [ordered_of_lt back, Int32.toInt_toInt64]
    omega
  · simp only [ordered_of_le (Int.not_lt.1 back), Int32.toInt_toInt64, and_true]
    omega

theorem upright_ordered (flat : Point.axisDistance q.y p.y ≤ Point.axisDistance q.x p.x) :
    (ordered steep p q).Upright := by
  simp only [Point.axisDistance] at flat
  by_cases back : q.x.toInt < p.x.toInt
  · rw [ordered_of_lt back]
    constructor <;> simp only [Int32.toInt_toInt64]
    any_goals exact short_toInt _
    · omega
    · omega
  · rw [ordered_of_le (Int.not_lt.1 back)]
    constructor <;> simp only [Int32.toInt_toInt64]
    any_goals exact short_toInt _
    · omega
    · omega

theorem flat_turned (a b : Point) :
    Point.axisDistance (turned (isSteep a b) b).y (turned (isSteep a b) a).y ≤
      Point.axisDistance (turned (isSteep a b) b).x (turned (isSteep a b) a).x := by
  by_cases steep : isSteep a b = true
  · have := isSteep_iff.1 steep
    simp only [turned, steep, if_true, Point.transpose]
    omega
  · have := mt isSteep_iff.2 steep
    simp only [turned, steep, Bool.false_eq_true, if_false]
    omega

theorem upright_between (a b : Point) : (between a b).Upright := by
  rw [between_eq_ordered]
  exact upright_ordered (flat_turned a b)

/-- The frame is as wide as the larger of the two spans, and as high as the smaller. -/
theorem spans_between (a b : Point) :
    (between a b).x2.toInt - (between a b).x1.toInt =
        (max (Point.axisDistance b.x a.x) (Point.axisDistance b.y a.y) : Nat) ∧
      ((between a b).y2.toInt - (between a b).y1.toInt).natAbs =
        min (Point.axisDistance b.x a.x) (Point.axisDistance b.y a.y) := by
  obtain ⟨along, across⟩ := @spans_ordered (isSteep a b) (turned (isSteep a b) a)
    (turned (isSteep a b) b)
  rw [between_eq_ordered, along, across]
  by_cases steep : isSteep a b = true
  · have := isSteep_iff.1 steep
    simp only [turned, steep, if_true, Point.transpose]
    omega
  · have := mt isSteep_iff.2 steep
    simp only [turned, steep, Bool.false_eq_true, if_false]
    omega

/-- Every value computed for a slope, and from it for the cursors and for the number of
points, is the one over the integers. -/
structure SlopeExact (f : Frame) : Prop where
  run : (f.x2 - f.x1).toInt = f.x2.toInt - f.x1.toInt
  rise : (f.y2 - f.y1).toInt = f.y2.toInt - f.y1.toInt
  fall : (-(f.y2 - f.y1)).toInt = -(f.y2.toInt - f.y1.toInt)
  height : f.slope.dy.toInt = (f.y2.toInt - f.y1.toInt).natAbs
  half : (f.slope.dx / 2).toInt = (f.x2.toInt - f.x1.toInt) / 2
  word : (f.slope.dx.toUInt64.toNat : Int) = f.x2.toInt - f.x1.toInt
  count : (f.slope.dx.toUInt64 + 1).toNat = f.slope.dx.toUInt64.toNat + 1

variable {f : Frame}

theorem Upright.run_lt (upright : f.Upright) : f.x2.toInt - f.x1.toInt < 2 ^ 32 := by
  obtain ⟨low, _⟩ := upright.x1
  obtain ⟨_, high⟩ := upright.x2
  omega

theorem slope_dy_of_exact (rise : (f.y2 - f.y1).toInt = f.y2.toInt - f.y1.toInt)
    (fall : (-(f.y2 - f.y1)).toInt = -(f.y2.toInt - f.y1.toInt)) :
    f.slope.dy.toInt = (f.y2.toInt - f.y1.toInt).natAbs := by
  simp only [slope]
  split
  · rename_i descent
    rw [Int64.lt_iff_toInt_lt, rise, Int64.toInt_zero] at descent
    rw [fall]
    omega
  · rename_i ascent
    rw [Int64.lt_iff_toInt_lt, rise, Int64.toInt_zero] at ascent
    rw [rise]
    omega

theorem Upright.slopeExact (upright : f.Upright) : f.SlopeExact := by
  have narrow := upright.run_lt
  have forward := upright.forward
  have flat := upright.flat
  -- Coordinates have 32 bits, so their differences are far from the bounds of a word.
  have run : (f.x2 - f.x1).toInt = f.x2.toInt - f.x1.toInt :=
    toInt_sub_of_fits ⟨by omega, by omega⟩
  have rise : (f.y2 - f.y1).toInt = f.y2.toInt - f.y1.toInt :=
    toInt_sub_of_fits ⟨by omega, by omega⟩
  have fall : (-(f.y2 - f.y1)).toInt = -(f.y2.toInt - f.y1.toInt) := by
    rw [toInt_neg_of_fits ⟨by omega, by omega⟩, rise]
  have dx : f.slope.dx.toInt = f.x2.toInt - f.x1.toInt := run
  have nonneg : 0 ≤ f.slope.dx.toInt := by omega
  have word := toNat_toUInt64 nonneg
  refine ⟨run, rise, fall, slope_dy_of_exact rise fall, ?_, by omega, ?_⟩
  · rw [toInt_half nonneg, dx]
  · rw [UInt64.toNat_add, show (1 : UInt64).toNat = 1 from rfl, word]
    omega

theorem Upright.slope_dx (upright : f.Upright) :
    f.slope.dx.toInt = f.x2.toInt - f.x1.toInt := upright.slopeExact.run

theorem Upright.slope_dy (upright : f.Upright) :
    f.slope.dy.toInt = (f.y2.toInt - f.y1.toInt).natAbs := upright.slopeExact.height

theorem slope_ystep : f.slope.ystep.toInt = if f.y1.toInt < f.y2.toInt then 1 else -1 := by
  simp only [slope, Int64.lt_iff_toInt_lt]
  split <;> rfl

theorem Upright.slope_value (upright : f.Upright) : f.slope.value =
    ⟨f.x2.toInt - f.x1.toInt, (f.y2.toInt - f.y1.toInt).natAbs,
      if f.y1.toInt < f.y2.toInt then 1 else -1⟩ := by
  rw [Slope.value, upright.slope_dx, upright.slope_dy, slope_ystep]

theorem Upright.flat_slope (upright : f.Upright) : f.slope.value.Flat := by
  rw [upright.slope_value]
  refine ⟨Int.natCast_nonneg _, upright.flat, ?_⟩
  dsimp only
  split
  · exact .inl rfl
  · exact .inr rfl

theorem Upright.climb (upright : f.Upright) :
    f.y1.toInt + f.slope.value.ystep * f.slope.value.dy = f.y2.toInt := by
  rw [upright.slope_value]
  dsimp only
  split <;> omega

theorem Upright.settled (upright : f.Upright) :
    f.slope.value.Settled (f.slope.dx / 2).toInt := by
  have exact := upright.slopeExact
  have forward := upright.forward
  rw [upright.slope_value, exact.half]
  refine ⟨by omega, ?_⟩
  dsimp only
  omega

/-- The cursor over the column `k` of a frame, counted from its left end. -/
def track (f : Frame) (k : Int) : Cursor Int := f.line.left.value.along f.slope.value k

def width (f : Frame) : Nat := f.slope.dx.toUInt64.toNat

theorem Upright.width_eq (upright : f.Upright) : (f.width : Int) = f.slope.value.dx := by
  rw [width, upright.slopeExact.word, upright.slope_value]

theorem Upright.track_zero (upright : f.Upright) : f.track 0 = f.line.left.value :=
  Cursor.along_zero upright.settled

/-- The track ends at the right end of the line, with the error it began with. -/
theorem Upright.track_width (upright : f.Upright) : f.track f.width = f.line.right.value := by
  -- Over the whole width all `dy` changes of height have happened.
  rw [track, upright.width_eq, Cursor.along_width upright.flat_slope upright.settled]
  simp only [line, Cursor.value, upright.climb, Cursor.mk.injEq, and_true]
  rw [upright.slope_value]
  dsimp only
  omega

variable {k : Int}

theorem Upright.track_x (upright : f.Upright) (right : 0 ≤ k) (within : k ≤ f.width) :
    f.x1.toInt ≤ (f.track k).x ∧ (f.track k).x ≤ f.x2.toInt := by
  have column : (f.track k).x = f.x1.toInt + k := rfl
  rw [upright.width_eq, upright.slope_value] at within
  dsimp only at within
  omega

theorem Upright.track_y (upright : f.Upright) (right : 0 ≤ k) (within : k ≤ f.width) :
    min f.y1.toInt f.y2.toInt ≤ (f.track k).y ∧ (f.track k).y ≤ max f.y1.toInt f.y2.toInt := by
  rw [upright.width_eq] at within
  have rises := Slope.rise_nonneg upright.flat_slope upright.settled right
  have all := Slope.rise_le upright.flat_slope upright.settled within
  have climb := upright.climb
  have height : (f.track k).y =
      f.y1.toInt + f.slope.value.ystep * f.slope.value.rise (f.slope.dx / 2).toInt k := rfl
  -- All changes of height go the same way, and `dy` of them lead to the right end.
  rcases upright.flat_slope.unit with up | down
  · rw [up] at climb height
    omega
  · rw [down] at climb height
    omega

theorem Upright.track_settled (upright : f.Upright) (right : 0 ≤ k) (within : k ≤ f.width) :
    f.slope.value.Settled (f.track k).error := by
  rw [upright.width_eq] at within
  exact Cursor.along_settled upright.settled right within

theorem Upright.near (upright : f.Upright) (right : 0 ≤ k) (within : k ≤ f.width)
    {c : Cursor Int64} (on : c.value = f.track k) : c.Near f.slope := by
  have across := upright.track_x right within
  have up := upright.track_y right within
  have settled := upright.track_settled right within
  have narrow := upright.run_lt
  have dx := congrArg Slope.dx upright.slope_value
  rw [← on] at across up settled
  simp only [Cursor.value] at across up settled
  simp only [Slope.value] at dx
  obtain ⟨low1, _⟩ := upright.x1
  obtain ⟨_, high2⟩ := upright.x2
  obtain ⟨low3, high3⟩ := upright.y1
  obtain ⟨low4, high4⟩ := upright.y2
  exact ⟨upright.flat_slope, by omega, settled, ⟨by omega, by omega⟩, ⟨by omega, by omega⟩⟩

theorem Upright.value_advance (upright : f.Upright) (right : 0 ≤ k) (within : k < f.width)
    {c : Cursor Int64} (on : c.value = f.track k) :
    (c.advance f.slope).value = f.track (k + 1) := by
  rw [Cursor.value_advance (upright.near right within.le on).advanceExact, on]
  rw [upright.width_eq] at within
  exact Cursor.advance_along upright.flat_slope (by omega)

theorem Upright.value_retreat (upright : f.Upright) (right : 0 ≤ k) (within : k < f.width)
    {c : Cursor Int64} (on : c.value = f.track (k + 1)) :
    (c.retreat f.slope).value = f.track k := by
  rw [Cursor.value_retreat (upright.near (by omega) (by omega) on).retreatExact, on]
  rw [upright.width_eq] at within
  exact Cursor.retreat_along upright.flat_slope (by omega)

def pointOver (f : Frame) (k : Int) : Point :=
  let c := f.track k
  if f.steep then ⟨.ofInt c.y, .ofInt c.x⟩ else ⟨.ofInt c.x, .ofInt c.y⟩

theorem coordinates_pointOver (upright : f.Upright) (right : 0 ≤ k) (within : k ≤ f.width) :
    (f.pointOver k).coordinates = f.place (f.track k).x (f.track k).y := by
  have across := upright.track_x right within
  have up := upright.track_y right within
  obtain ⟨low1, _⟩ := upright.x1
  obtain ⟨_, high2⟩ := upright.x2
  obtain ⟨low3, high3⟩ := upright.y1
  obtain ⟨low4, high4⟩ := upright.y2
  have x : (Int32.ofInt (f.track k).x).toInt = (f.track k).x :=
    Int32.toInt_ofInt_of_le (by omega) (by omega)
  have y : (Int32.ofInt (f.track k).y).toInt = (f.track k).y :=
    Int32.toInt_ofInt_of_le (by omega) (by omega)
  simp only [pointOver, place, Point.coordinates]
  split <;> simp only [x, y]

theorem pointAt_eq_pointOver {l : Line} {c : Cursor Int64} (steep : l.steep = f.steep)
    (on : c.value = f.track k) : l.pointAt c = f.pointOver k := by
  simp only [Line.pointAt, pointOver, steep, ← on, Cursor.value, Int32.ofInt_int64ToInt]

end Frame
end LinesAndLists
