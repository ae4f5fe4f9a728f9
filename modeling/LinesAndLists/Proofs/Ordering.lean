import LinesAndLists.Proofs.Symmetry

/-! Two lines over the same columns. If one segment is nowhere above the other, its line is
nowhere above the line of the other. Rounding keeps the order of heights, and that would be
all if halves were always rounded the same way; but they are rounded up where a line falls and
down where it rises, so a falling line below a rising one has to be kept apart from it. -/
namespace LinesAndLists

/-- How far a line has come up over the column `k` if it comes up by `w` in all, or down for
a negative `w`. -/
def climb (D : Nat) (w : Int) (k : Nat) : Int := w.sign * nearest D w.natAbs k

section Climb

variable {D k : Nat} {w w' t : Int}

theorem climb_nonneg (up : 0 ≤ w) : 0 ≤ climb D w k :=
  Int.mul_nonneg (Int.sign_nonneg_iff.2 up) (Int.natCast_nonneg _)

theorem climb_nonpos (down : w ≤ 0) : climb D w k ≤ 0 :=
  Int.mul_nonpos_of_nonpos_of_nonneg (Int.sign_nonpos_iff.2 down) (Int.natCast_nonneg _)

theorem climb_of_pos (wide : 0 < D) (up : 0 < w) :
    -D ≤ 2 * (D * climb D w k - k * w) ∧ 2 * (D * climb D w k - k * w) < D := by
  have nearest := (@eq_nearest_iff D w.natAbs k wide _).1 rfl
  rw [climb, Int.sign_eq_one_of_pos up, Int.one_mul]
  rwa [Int.natAbs_of_nonneg up.le] at nearest

theorem climb_of_nonpos (wide : 0 < D) (down : w ≤ 0) :
    -D < 2 * (D * climb D w k - k * w) ∧ 2 * (D * climb D w k - k * w) ≤ D := by
  rcases down.eq_or_lt with rfl | down
  · simp only [climb, Int.sign_zero, Int.zero_mul, Int.mul_zero]
    omega
  · have nearest := (@eq_nearest_iff D w.natAbs k wide _).1 rfl
    rw [Int.ofNat_natAbs_of_nonpos down.le] at nearest
    rw [climb, Int.sign_eq_neg_one_of_neg down, Int.neg_one_mul]
    constructor <;> linarith

theorem climb_near (wide : 0 < D) :
    -D ≤ 2 * (D * climb D w k - k * w) ∧ 2 * (D * climb D w k - k * w) ≤ D := by
  rcases Int.lt_or_le 0 w with up | down
  · have off := @climb_of_pos D k w wide up
    exact ⟨off.1, off.2.le⟩
  · have off := @climb_of_nonpos D k w wide down
    exact ⟨off.1.le, off.2⟩

/-- Heights that are in order at both ends are in order over every column. -/
theorem climb_le_climb (within : k ≤ D) (left : 0 ≤ t) (right : w ≤ t + w') :
    climb D w k ≤ t + climb D w' k := by
  rcases Nat.eq_zero_or_pos D with rfl | wide
  · simpa [climb, nearest] using left
  by_cases parting : w ≤ 0 ∧ 0 < w'
  -- One line falls and the other rises from no lower start: no rounding brings them together.
  · have low := @climb_nonpos D k w parting.1
    have high := @climb_nonneg D k w' parting.2.le
    omega
  · have along : (k : Int) * w ≤ k * (t + w') :=
      Int.mul_le_mul_of_nonneg_left right (Int.natCast_nonneg k)
    have rest : (k : Int) * t ≤ D * t :=
      Int.mul_le_mul_of_nonneg_right (by exact_mod_cast within) left
    have low := @climb_near D k w wide
    have high := @climb_near D k w' wide
    by_contra above
    have step : (D : Int) * (t + climb D w' k + 1) ≤ D * climb D w k :=
      Int.mul_le_mul_of_nonneg_left (by omega) (Int.natCast_nonneg D)
    -- The lines would be off by half a unit each, but one of them is off by less on its side.
    rcases Int.lt_or_le 0 w with up | down
    · have less := (@climb_of_pos D k w wide up).2
      linarith
    · have less := (@climb_of_nonpos D k w' wide (by omega)).1
      linarith

end Climb

theorem filter_eq_singleton {α : Type} {passes : α → Bool} {us : List α} {k : Nat} {u : α}
    (at_k : us[k]? = some u) (here : passes u = true)
    (only : ∀ {i : Nat} {v : α}, us[i]? = some v → passes v = true → i = k) :
    us.filter passes = [u] := by
  induction us generalizing k with
  | nil => simp at at_k
  | cons v us ih =>
    cases k with
    | zero =>
      have rest : us.filter passes = [] := by
        refine List.filter_eq_nil_iff.2 fun w member good => ?_
        obtain ⟨i, at_i⟩ := List.mem_iff_getElem?.1 member
        exact Nat.succ_ne_zero i (only (i := i + 1) at_i good)
      obtain rfl : v = u := by simpa using at_k
      rw [List.filter_cons_of_pos here, rest]
    | succ k =>
      have bad : ¬ passes v = true := fun good =>
        Nat.succ_ne_zero k (only (i := 0) rfl good).symm
      rw [List.filter_cons_of_neg bad]
      exact ih at_k fun at_i good => Nat.succ.inj (only (i := _ + 1) at_i good)

namespace Frame

variable {a b p : Point} {ps : List Point} {i : Nat}

/-- A segment that is not tall and leads to the right is drawn from its left end. -/
theorem Course.place_flat (course : (between a b).Course a b ps)
    (flat : Point.axisDistance b.y a.y ≤ Point.axisDistance b.x a.x)
    (forth : a.x.toInt ≤ b.x.toInt) (at_i : ps[i]? = some p) :
    p.x.toInt = a.x.toInt + i ∧
      p.y.toInt = a.y.toInt + climb (Point.axisDistance b.x a.x) (b.y.toInt - a.y.toInt) i := by
  have low : isSteep a b = false := Bool.eq_false_iff.2 (mt isSteep_iff.1 (Nat.not_lt.2 flat))
  have width : (between a b).width = Point.axisDistance b.x a.x := by
    rw [width_between, Nat.max_eq_left flat]
  have height : (between a b).height = (b.y.toInt - a.y.toInt).natAbs := by
    rw [height_between, Nat.min_eq_right flat, Point.axisDistance]
  have unturned : (between a b).reversed = false := by
    rw [Bool.eq_false_iff, Ne, reversed_between, low]
    exact Int.not_lt.2 forth
  have within := course.within at_i
  obtain ⟨x, y⟩ := course.place_between at_i
  rw [width] at within
  simp only [low, Point.major, Point.minor, Bool.false_eq_true, if_false, crossed, unturned,
    width, height] at x y
  have onward : (b.x.toInt - a.x.toInt).sign * i = 1 * i :=
    sign_way (.inl rfl) (by rw [Point.axisDistance]; omega) within
  rw [x, onward, Int.one_mul]
  exact ⟨rfl, y⟩

end Frame

namespace Line

variable {a b : Point} {x : Int}

theorem points_over (flat : Point.axisDistance b.y a.y ≤ Point.axisDistance b.x a.x)
    (left : a.x.toInt ≤ x) (right : x ≤ b.x.toInt) :
    ∃ p, (points a b).filter (fun q => q.x.toInt = x) = [p] ∧
      p.y.toInt = a.y.toInt + climb (Point.axisDistance b.x a.x) (b.y.toInt - a.y.toInt)
        (x - a.x.toInt).toNat := by
  have course := Frame.course_points a b
  have place {i : Nat} {p : Point} (at_i : (points a b)[i]? = some p) :=
    course.place_flat flat (left.trans right) at_i
  -- There is a point over the column, and none elsewhere: the columns of a line all differ.
  have within : (x - a.x.toInt).toNat < (points a b).length := by
    rw [course.length, Frame.width_between, Point.axisDistance]
    omega
  have at_k := List.getElem?_eq_getElem within
  obtain ⟨column, height⟩ := place at_k
  refine ⟨_, filter_eq_singleton at_k (decide_eq_true (by omega)) fun at_i same => ?_, height⟩
  have column' := (place at_i).1
  have same := of_decide_eq_true same
  omega

theorem points_over_of_mem {ps : List Point} (either : ps ∈ [points a b, points b a])
    {p : Point} (only : (points a b).filter (fun q => q.x.toInt = x) = [p]) :
    ps.filter (fun q => q.x.toInt = x) = [p] := by
  rcases List.mem_pair.1 either with same | turned
  · rw [same, only]
  · rw [turned, points_comm, List.filter_reverse, only, List.reverse_singleton]

end Line

/-- Of two segments over the same columns, neither of them tall, one starts and ends nowhere
above the other. Then each of their lines has one point in every column, and that of the lower
segment is nowhere above that of the upper, from whichever ends the lines are drawn. -/
theorem points_ordered {x₁ x₂ y₁ y₂ z₁ z₂ : Int32} (forth : x₁.toInt ≤ x₂.toInt)
    (flat : |y₂.toInt - y₁.toInt| ≤ x₂.toInt - x₁.toInt)
    (flat' : |z₂.toInt - z₁.toInt| ≤ x₂.toInt - x₁.toInt)
    (start : y₁.toInt ≤ z₁.toInt) (finish : y₂.toInt ≤ z₂.toInt) :
    ∀ x : Int, x₁.toInt ≤ x → x ≤ x₂.toInt →
      ∀ lower ∈ [Line.points ⟨x₁, y₁⟩ ⟨x₂, y₂⟩, Line.points ⟨x₂, y₂⟩ ⟨x₁, y₁⟩],
      ∀ upper ∈ [Line.points ⟨x₁, z₁⟩ ⟨x₂, z₂⟩, Line.points ⟨x₂, z₂⟩ ⟨x₁, z₁⟩],
        ∃ p q, lower.filter (fun r => r.x.toInt = x) = [p] ∧
          upper.filter (fun r => r.x.toInt = x) = [q] ∧ p.y.toInt ≤ q.y.toInt := by
  intro x left right lower one upper other
  have low : Point.axisDistance y₂ y₁ ≤ Point.axisDistance x₂ x₁ := by
    rw [Int.abs_eq_natAbs] at flat
    simp only [Point.axisDistance]
    omega
  have low' : Point.axisDistance z₂ z₁ ≤ Point.axisDistance x₂ x₁ := by
    rw [Int.abs_eq_natAbs] at flat'
    simp only [Point.axisDistance]
    omega
  obtain ⟨p, only, height⟩ := @Line.points_over ⟨x₁, y₁⟩ ⟨x₂, y₂⟩ x low left right
  obtain ⟨q, only', height'⟩ := @Line.points_over ⟨x₁, z₁⟩ ⟨x₂, z₂⟩ x low' left right
  refine ⟨p, q, Line.points_over_of_mem one only, Line.points_over_of_mem other only', ?_⟩
  have within : (x - x₁.toInt).toNat ≤ Point.axisDistance x₂ x₁ := by
    simp only [Point.axisDistance]
    omega
  have ordered := climb_le_climb within (show 0 ≤ z₁.toInt - y₁.toInt by omega)
    (show y₂.toInt - y₁.toInt ≤ z₁.toInt - y₁.toInt + (z₂.toInt - z₁.toInt) by omega)
  dsimp only at height height'
  omega

/-- The lower line falls and the upper line falls less. In the second column they touch: the
lower one is half-way between two heights there, and is rounded up. -/
theorem points_ordered_touching :
    (0 : Int32).toInt ≤ (4 : Int32).toInt ∧
      |(0 : Int32).toInt - (2 : Int32).toInt| ≤ (4 : Int32).toInt - (0 : Int32).toInt ∧
      |(1 : Int32).toInt - (2 : Int32).toInt| ≤ (4 : Int32).toInt - (0 : Int32).toInt ∧
      ∃ p q, (Line.points ⟨0, 2⟩ ⟨4, 0⟩).filter (fun r => r.x.toInt = 1) = [p] ∧
        (Line.points ⟨4, 1⟩ ⟨0, 2⟩).filter (fun r => r.x.toInt = 1) = [q] ∧
        p.y.toInt ≤ q.y.toInt :=
  ⟨by decide, by decide, by decide,
    points_ordered (by decide) (by decide) (by decide) (by decide) (by decide) 1 (by decide)
      (by decide) _ List.mem_cons_self _ (List.mem_cons_of_mem _ List.mem_cons_self)⟩

end LinesAndLists
