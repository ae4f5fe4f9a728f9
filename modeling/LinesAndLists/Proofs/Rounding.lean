import LinesAndLists.Proofs.Queueing

/-! The points of a line without a loop. In each column the height is the nearest to the
segment, and the nearer to the left end where two heights are as near; the stepping rule
rounds so without ever dividing. -/
namespace LinesAndLists

/-- The height over the column `k` of a segment `m` high and `D` wide. -/
def nearest (D m k : Nat) : Nat := (k * m + (D - 1) / 2) / D

/-- The best places on the grid for a segment, in the order from `a` to `b`. -/
def ideal (a b : Int × Int) : List (Int × Int) :=
  let tall := (b.2 - a.2).natAbs > (b.1 - a.1).natAbs
  let turn := fun p : Int × Int => if tall then p.swap else p
  let backward := (turn b).1 < (turn a).1
  let l := if backward then turn b else turn a
  let r := if backward then turn a else turn b
  let D := max (b.1 - a.1).natAbs (b.2 - a.2).natAbs
  let m := min (b.1 - a.1).natAbs (b.2 - a.2).natAbs
  let s := if l.2 < r.2 then 1 else -1
  let places := (List.range (D + 1)).map fun k : Nat => turn (l.1 + k, l.2 + s * nearest D m k)
  if backward then places.reverse else places

variable {D m k : Nat}

theorem nearest_isLeast (wide : 0 < D) :
    IsLeast {j : Int | 2 * |(D : Int) * j - k * m| ≤ D} (nearest D m k) := by
  have below : (D : Int) * nearest D m k ≤ k * m + ((D - 1) / 2 : Nat) := by
    exact_mod_cast Nat.mul_div_le (k * m + (D - 1) / 2) D
  have above : k * m + ((D - 1) / 2 : Nat) < (D : Int) * (nearest D m k + 1) := by
    exact_mod_cast Nat.lt_mul_div_succ (k * m + (D - 1) / 2) wide
  rw [Int.mul_add, Int.mul_one] at above
  constructor
  · have off : |(D : Int) * nearest D m k - k * m| ≤ (D / 2 : Nat) :=
      abs_le.2 ⟨by omega, by omega⟩
    rw [Set.mem_ofPred_eq]
    omega
  · intro j near
    rw [Set.mem_ofPred_eq] at near
    have off := abs_le.1 (show |(D : Int) * j - k * m| ≤ (D / 2 : Nat) by omega)
    -- The quotient of a lower height would leave a remainder of `D` or more.
    by_contra lower
    have step : (D : Int) * (j + 1) ≤ D * nearest D m k :=
      Int.mul_le_mul_of_nonneg_left (by omega) (by omega)
    rw [Int.mul_add, Int.mul_one] at step
    omega

/-- The nearest height is off by half a unit at most, and by less than that if it is above
the segment. -/
theorem eq_nearest_iff (wide : 0 < D) {j : Int} : j = nearest D m k ↔
    -D ≤ 2 * ((D : Int) * j - k * m) ∧ 2 * ((D : Int) * j - k * m) < D := by
  have quotient : (nearest D m k : Int) = (k * m + ((D - 1) / 2 : Nat)) / D := by
    rw [nearest]
    push_cast
    rfl
  rw [eq_comm, quotient, Int.ediv_eq_iff_of_pos (by omega), Int.mul_comm j]
  constructor <;> rintro ⟨low, high⟩ <;> constructor <;> omega

/-- The stepping rule begins with the error that makes it round to the nearest height. -/
theorem Slope.rise_half {s : Slope Int} (dx : s.dx = D) (dy : s.dy = m) (k : Nat) :
    s.rise (s.dx / 2) k = nearest D m k := by
  rcases Nat.eq_zero_or_pos D with narrow | wide
  · rw [Slope.rise_of_dx_eq_zero (by omega), nearest, narrow, Nat.div_zero]
    rfl
  · have half : (D : Int) - 1 - D / 2 = ((D - 1) / 2 : Nat) := by omega
    rw [Slope.rise, dx, dy, half, nearest]
    push_cast
    rfl

namespace Frame

variable {f : Frame}

def height (f : Frame) : Nat := (f.y2.toInt - f.y1.toInt).natAbs

theorem Upright.track_nearest (upright : f.Upright) (k : Nat) :
    f.place (f.track k).x (f.track k).y = f.place (f.x1.toInt + k)
      (f.y1.toInt + (if f.y1.toInt < f.y2.toInt then 1 else -1) * nearest f.width f.height k) := by
  have risen := Slope.rise_half upright.width_eq.symm (congrArg Slope.dy upright.slope_value) k
  have half : (f.slope.dx / 2).toInt = f.slope.value.dx / 2 := by
    rw [upright.slopeExact.half, upright.slope_value]
  have unit := congrArg Slope.ystep upright.slope_value
  have column : (f.track k).x = f.x1.toInt + k := rfl
  have climbed : (f.track k).y =
      f.y1.toInt + f.slope.value.ystep * f.slope.value.rise (f.slope.dx / 2).toInt k := rfl
  rw [column, climbed, unit, half, risen]
  rfl

theorem width_between (a b : Point) : (between a b).width =
    max (Point.axisDistance b.x a.x) (Point.axisDistance b.y a.y) := by
  have upright := upright_between a b
  have width := upright.width_eq
  rw [upright.slope_value] at width
  dsimp only at width
  have along := (spans_between a b).1
  omega

theorem height_between (a b : Point) : (between a b).height =
    min (Point.axisDistance b.x a.x) (Point.axisDistance b.y a.y) := (spans_between a b).2

theorem ends_between (a b : Point) :
    let f := between a b
    f.place f.x1.toInt f.y1.toInt = (if f.reversed then b else a).coordinates ∧
      f.place f.x2.toInt f.y2.toInt = (if f.reversed then a else b).coordinates := by
  dsimp only
  rw [between_eq_ordered]
  by_cases back : (turned (isSteep a b) b).x.toInt < (turned (isSteep a b) a).x.toInt
  · simp only [ordered_of_lt back, place, Int32.toInt_toInt64, if_true]
    cases isSteep a b <;> exact ⟨rfl, rfl⟩
  · simp only [ordered_of_le (Int.not_lt.1 back), place, Int32.toInt_toInt64, Bool.false_eq_true,
      if_false]
    cases isSteep a b <;> exact ⟨rfl, rfl⟩

theorem Upright.coordinates_left (upright : f.Upright) :
    (f.pointOver 0).coordinates = f.place f.x1.toInt f.y1.toInt := by
  rw [coordinates_pointOver upright le_rfl (Int.natCast_nonneg _), upright.track_zero]
  rfl

theorem Upright.coordinates_right (upright : f.Upright) :
    (f.pointOver f.width).coordinates = f.place f.x2.toInt f.y2.toInt := by
  rw [coordinates_pointOver upright (Int.natCast_nonneg _) le_rfl, upright.track_width]
  rfl

theorem pointOver_left (a b : Point) :
    (between a b).pointOver 0 = if (between a b).reversed then b else a := by
  apply Point.coordinates_injective
  rw [(upright_between a b).coordinates_left]
  exact (ends_between a b).1

theorem pointOver_right (a b : Point) : (between a b).pointOver (between a b).width =
    if (between a b).reversed then a else b := by
  apply Point.coordinates_injective
  rw [(upright_between a b).coordinates_right]
  exact (ends_between a b).2

theorem head_window (f : Frame) : (f.window 0 0).head? = some (f.pointOver 0) := by
  rw [window_left (by omega)]
  rfl

theorem getLast_window (f : Frame) :
    (f.window 0 0).getLast? = some (f.pointOver f.width) := by
  rw [window_right (by omega), List.getLast?_concat, Nat.sub_zero]

theorem head_listed (a b : Point) : (between a b).listed.head? = some a := by
  have left := pointOver_left a b
  have right := pointOver_right a b
  cases reversed : (between a b).reversed with
  | false => simpa [listed, reversed, head_window] using left
  | true => simpa [listed, reversed, getLast_window] using right

theorem getLast_listed (a b : Point) : (between a b).listed.getLast? = some b := by
  have left := pointOver_left a b
  have right := pointOver_right a b
  cases reversed : (between a b).reversed with
  | false => simpa [listed, reversed, getLast_window] using right
  | true => simpa [listed, reversed, head_window] using left

theorem ideal_coordinates (a b : Point) : ideal a.coordinates b.coordinates =
    let f := between a b
    let s := if f.y1.toInt < f.y2.toInt then 1 else -1
    let places := (List.range (f.width + 1)).map fun k : Nat =>
      f.place (f.x1.toInt + k) (f.y1.toInt + s * nearest f.width f.height k)
    if f.reversed then places.reverse else places := by
  dsimp only
  rw [width_between, height_between, between_eq_ordered]
  by_cases steep : isSteep a b = true
  · have tall := isSteep_iff.1 steep
    simp only [steep, turned, if_true]
    by_cases back : a.transpose.x.toInt > b.transpose.x.toInt
    · rw [ordered_of_lt back]
      simp only [Point.axisDistance, Point.transpose] at tall back ⊢
      simp [ideal, Point.coordinates, place, tall, back]
    · rw [ordered_of_le (Int.not_lt.1 back)]
      simp only [Point.axisDistance, Point.transpose] at tall back ⊢
      simp [ideal, Point.coordinates, place, tall, back]
  · have flat := mt isSteep_iff.2 steep
    simp only [steep, turned, Bool.false_eq_true, if_false]
    by_cases back : a.x.toInt > b.x.toInt
    · rw [ordered_of_lt back]
      simp only [Point.axisDistance] at flat ⊢
      simp [ideal, Point.coordinates, place, flat, back]
    · rw [ordered_of_le (Int.not_lt.1 back)]
      simp only [Point.axisDistance] at flat ⊢
      simp [ideal, Point.coordinates, place, flat, back]

theorem listed_ideal (a b : Point) :
    (between a b).listed.map Point.coordinates = ideal a.coordinates b.coordinates := by
  have upright := upright_between a b
  have columns := upright.coordinates_window
  rw [← List.range_eq_range'] at columns
  rw [List.map_congr_left fun k _ => upright.track_nearest k] at columns
  rw [ideal_coordinates, listed]
  dsimp only
  rw [← columns]
  split
  · rw [List.map_reverse]
  · rfl

theorem length_listed (f : Frame) : f.listed.length = f.width + 1 := by
  rw [listed]
  split <;> simp [window]

theorem Holds.drained {line : Line} {q : List Point} (upright : f.Upright)
    (holds : f.Holds line q) (n : Nat) :
    (line.run (List.replicate n .front)).1 = (List.range n).map (q[·]?) := by
  induction n generalizing line q with
  | zero => rfl
  | succ n ih =>
    obtain ⟨came, later⟩ := Reads.popOr upright holds
    rw [List.replicate_succ, Line.run_cons, List.range_succ_eq_map, List.map_cons, List.map_map,
      came, ih later, List.head?_eq_getElem?]
    refine congrArg _ (List.map_congr_left fun i _ => ?_)
    rw [List.getElem?_drop, Nat.add_comm]
    rfl

end Frame

/-- The points of a segment are those nearest to it, one in each column, from the start to
the finish; popped at the front they come in this order, and then nothing comes. -/
theorem points_nearest (a b : Point) :
    let D := max (Point.axisDistance b.x a.x) (Point.axisDistance b.y a.y)
    let m := min (Point.axisDistance b.x a.x) (Point.axisDistance b.y a.y)
    (∀ n, ((Line.between a b).run (List.replicate n .front)).1 =
        (List.range n).map ((Line.points a b)[·]?)) ∧
      (Line.points a b).map Point.coordinates = ideal a.coordinates b.coordinates ∧
      (Line.points a b).length = D + 1 ∧
      (D = 0 → Line.points a b = [a]) ∧
      (0 < D → ∀ k : Nat, IsLeast {j : Int | 2 * |(D : Int) * j - k * m| ≤ D} (nearest D m k)) ∧
      (Line.points a b).head? = some a ∧
      (Line.points a b).getLast? = some b := by
  intro D m
  have upright := Frame.upright_between a b
  have holds := upright.holds_line
  have listed : Line.points a b = (Frame.between a b).listed := holds.contents upright
  have length := Frame.length_listed (Frame.between a b)
  rw [Frame.width_between] at length
  have head := Frame.head_listed a b
  rw [listed]
  refine ⟨holds.drained upright, Frame.listed_ideal a b, length, ?_, ?_, head,
    Frame.getLast_listed a b⟩
  · intro point
    obtain ⟨p, single⟩ := List.length_eq_one_iff.1 (length.trans (congrArg (· + 1) point))
    rw [single] at head ⊢
    rw [Option.some.inj head]
  · intro wide k
    exact nearest_isLeast wide

/-- On exact halves the height stays with the left end, wherever the segment starts. -/
theorem points_half_way :
    (Line.points ⟨0, 0⟩ ⟨2, 1⟩).map Point.coordinates = [(0, 0), (1, 0), (2, 1)] ∧
      (Line.points ⟨2, 1⟩ ⟨0, 0⟩).map Point.coordinates = [(2, 1), (1, 0), (0, 0)] ∧
      IsLeast {j : Int | 2 * |((2 : Nat) : Int) * j - (1 : Nat) * (1 : Nat)| ≤ (2 : Nat)} 0 :=
  ⟨(points_nearest ⟨0, 0⟩ ⟨2, 1⟩).2.1.trans (by decide),
    (points_nearest ⟨2, 1⟩ ⟨0, 0⟩).2.1.trans (by decide),
    (points_nearest ⟨0, 0⟩ ⟨2, 1⟩).2.2.2.2.1 (by decide) 1⟩

end LinesAndLists
