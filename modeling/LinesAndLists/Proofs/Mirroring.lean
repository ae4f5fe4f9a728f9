import LinesAndLists.Proofs.Rounding

/-! Lines with their ends exchanged. The frame of a segment does not say where the segment
starts but for one field, so the line of the exchanged segment is the same line with its
front and its back exchanged. Only a segment without length starts at the left both ways;
there the two ends of the line stand over the same point. -/
namespace LinesAndLists

namespace Line

def mirrored (l : Line) : Line := { l with reversed := !l.reversed }

/-- Lines of which either gives out at one end what the other gives out at its other end. -/
inductive Mirrors : Line → Line → Prop where
  | exchanged (l : Line) : Mirrors l l.mirrored
  | single {l : Line} (few : l.size ≤ 1) (met : l.left = l.right) : Mirrors l l

variable {l l' : Line}

theorem popLeft_mirrored (l : Line) :
    l.mirrored.popLeft = l.popLeft.map (Prod.map id mirrored) := by
  have same : l.mirrored.remaining = l.remaining := rfl
  rw [popLeft, popLeft, same]
  split <;> rfl

theorem popRight_mirrored (l : Line) :
    l.mirrored.popRight = l.popRight.map (Prod.map id mirrored) := by
  have same : l.mirrored.remaining = l.remaining := rfl
  rw [popRight, popRight, same]
  split <;> rfl

theorem popOr_mirrored (l : Line) (e : End) :
    l.mirrored.popOr e.other = ((l.popOr e).1, (l.popOr e).2.mirrored) := by
  have turned : l.mirrored.leftEnd = l.leftEnd.other := by
    cases reversed : l.reversed <;> simp [leftEnd, mirrored, End.other, reversed]
  have popped : l.mirrored.pop e.other = (l.pop e).map (Prod.map id mirrored) := by
    rcases l.eq_leftEnd_or e with rfl | rfl
    · rw [← turned, pop_leftEnd, popLeft_mirrored, pop_leftEnd]
    · rw [← turned, pop_rightEnd, popRight_mirrored, turned, pop_rightEnd]
  cases came : l.pop e <;> simp [popOr, popped, came]

/-- Over one point the two ends are alike, also after it was taken. -/
theorem popOr_single (few : l.size ≤ 1) (met : l.left = l.right) (e : End) :
    l.popOr e.other = l.popOr e ∧ (l.popOr e).2.size ≤ 1 ∧
      (l.popOr e).2.left = (l.popOr e).2.right := by
  have kept := popOr_few few e
  refine ⟨?_, ?_, by rw [kept.1, kept.2, met]⟩
  · rcases Nat.le_one_iff_eq_zero_or_eq_one.1 few with zero | one
    · rw [popOr_of_none (pop_eq_none_iff.2 zero), popOr_of_none (pop_eq_none_iff.2 zero)]
    · obtain ⟨left, right⟩ := pop_last one
      have same : l.popLeft = l.popRight := by rw [left, right, met]
      have alike : l.pop e.other = l.pop e := by
        rcases l.eq_leftEnd_or e with rfl | rfl
        · rw [pop_leftEnd, pop_rightEnd, same]
        · rw [End.other_other, pop_leftEnd, pop_rightEnd, same]
      simp only [popOr, alike]
  · cases came : l.pop e with
    | none => rwa [popOr_of_none came]
    | some taken =>
      have fewer := size_of_pop came
      rw [popOr_of_some came]
      exact Nat.le_trans (by simp only [fewer]; omega) few

theorem Mirrors.popOr (mirrors : Mirrors l l') (e : End) :
    (l.popOr e).1 = (l'.popOr e.other).1 ∧ Mirrors (l.popOr e).2 (l'.popOr e.other).2 := by
  cases mirrors with
  | exchanged =>
    rw [popOr_mirrored]
    exact ⟨rfl, .exchanged _⟩
  | single few met =>
    obtain ⟨alike, still, together⟩ := popOr_single few met e
    rw [alike]
    exact ⟨rfl, .single still together⟩

theorem Mirrors.run (mirrors : Mirrors l l') (schedule : List End) :
    (l.run schedule).1 = (l'.run (schedule.map End.other)).1 ∧
      Mirrors (l.run schedule).2 (l'.run (schedule.map End.other)).2 :=
  serve_related (fun _ _ e mirrors => mirrors.popOr e) mirrors schedule

theorem Mirrors.alike (mirrors : Mirrors l l') : { l' with reversed := l.reversed } = l := by
  cases mirrors <;> rfl

end Line

theorem Point.axisDistance_comm (a b : Int32) : axisDistance a b = axisDistance b a := by
  simp only [axisDistance]
  omega

namespace Frame

theorem isSteep_comm (a b : Point) : isSteep b a = isSteep a b := by
  simp only [isSteep, Point.axisDistance_comm]

theorem turned_injective {steep : Bool} {p q : Point} (same : turned steep p = turned steep q) :
    p = q := by
  cases p
  cases q
  cases steep <;> simp_all [turned, Point.transpose]

theorem ordered_comm {steep : Bool} {p q : Point}
    (flat : Point.axisDistance q.y p.y ≤ Point.axisDistance q.x p.x) :
    p = q ∨ ordered steep q p =
      { ordered steep p q with reversed := !(ordered steep p q).reversed } := by
  rcases Int.lt_trichotomy q.x.toInt p.x.toInt with back | level | forth
  · right
    rw [ordered_of_lt back, ordered_of_le back.le]
    rfl
  · left
    simp only [Point.axisDistance] at flat
    have height : p.y.toInt = q.y.toInt := by omega
    exact Point.coordinates_injective (Prod.ext level.symm height)
  · right
    rw [ordered_of_lt forth, ordered_of_le forth.le]
    rfl

theorem line_exchanged (f : Frame) :
    { f with reversed := !f.reversed }.line = f.line.mirrored := rfl

/-- The columns of a frame do not depend on where the segment starts, only their order does. -/
theorem listed_exchanged (f : Frame) :
    { f with reversed := !f.reversed }.listed = f.listed.reverse := by
  have same (r : Bool) : { f with reversed := r }.window 0 0 = f.window 0 0 := rfl
  cases reversed : f.reversed <;> simp [listed, same, reversed]

theorem between_comm (a b : Point) :
    a = b ∨ between b a = { between a b with reversed := !(between a b).reversed } := by
  rw [between_eq_ordered a b, between_eq_ordered b a, isSteep_comm a b]
  exact (ordered_comm (flat_turned a b)).imp_left turned_injective

end Frame

theorem Frame.width_self (a : Point) : (between a a).width = 0 := by
  rw [width_between]
  simp [Point.axisDistance]

theorem Line.mirrors_between (a b : Point) : Mirrors (between a b) (between b a) := by
  rcases Frame.between_comm a b with rfl | turned
  · have upright := Frame.upright_between a a
    have size := upright.spent_line.size
    have left := upright.track_zero
    have right := upright.track_width
    rw [Frame.width_self] at size right
    have met : (between a a).left = (between a a).right :=
      Cursor.value_injective (left.symm.trans right)
    have few : (between a a).size ≤ 1 := by
      rw [between_eq_line]
      omega
    exact .single few met
  · rw [between_eq_line, between_eq_line, turned, Frame.line_exchanged]
    exact .exchanged _

theorem Line.points_eq_listed (a b : Point) : points a b = (Frame.between a b).listed :=
  (Frame.upright_between a b).holds_line.contents (Frame.upright_between a b)

theorem Line.points_comm (a b : Point) : points b a = (points a b).reverse := by
  rw [points_eq_listed, points_eq_listed]
  rcases Frame.between_comm a b with rfl | turned
  · have single := Frame.length_listed (Frame.between a a)
    rw [Frame.width_self] at single
    obtain ⟨p, only⟩ := List.length_eq_one_iff.1 single
    rw [only, List.reverse_singleton]
  · rw [turned, Frame.listed_exchanged]

/-- A schedule on a line between two points, and the schedule with its ends exchanged on the
line between the exchanged points: every request comes to the same, and the lines left are
the same apart from the end at which the segment starts. As a schedule may stop anywhere,
they are so after every request. -/
theorem run_mirrored (a b : Point) (schedule : List End) :
    let there := (Line.between a b).run schedule
    let back := (Line.between b a).run (schedule.map End.other)
    back.1 = there.1 ∧ { back.2 with reversed := there.2.reversed } = there.2 ∧
      Line.points b a = (Line.points a b).reverse := by
  intro there back
  obtain ⟨came, mirrors⟩ := (Line.mirrors_between a b).run schedule
  exact ⟨came.symm, mirrors.alike, Line.points_comm a b⟩

end LinesAndLists
