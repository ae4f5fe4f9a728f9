import LinesAndLists.Proofs.Walking
import Mathlib.Logic.Function.Iterate

/-! The two steps of a line undo one another. Both move a cursor by one column along one track,
although each decides on a test of its own whether the height changes. Over a whole width of
steps the error comes back to where it began, so that the right end of a line is its left end
moved over all columns. -/
namespace LinesAndLists

namespace Cursor

variable {s : Slope Int} {c : Cursor Int}

theorem advance_eq_along (flat : s.Flat) (wide : 0 < s.dx) (settled : s.Settled c.error) :
    c.advance s = c.along s 1 := by
  have step := @advance_along s c 0 flat wide
  rwa [along_zero settled] at step

theorem retreat_eq_along (flat : s.Flat) (wide : 0 < s.dx) (settled : s.Settled c.error) :
    c.retreat s = c.along s (-1) := by
  have step := @retreat_along s c (-1) flat wide
  rwa [Int.add_left_neg, along_zero settled] at step

theorem retreat_advance (flat : s.Flat) (wide : 0 < s.dx) (settled : s.Settled c.error) :
    (c.advance s).retreat s = c :=
  calc (c.advance s).retreat s
      = (c.along s (0 + 1)).retreat s := by rw [advance_eq_along flat wide settled, Int.zero_add]
    _ = c.along s 0 := retreat_along flat wide
    _ = c := along_zero settled

theorem advance_retreat (flat : s.Flat) (wide : 0 < s.dx) (settled : s.Settled c.error) :
    (c.retreat s).advance s = c :=
  calc (c.retreat s).advance s
      = (c.along s (-1)).advance s := by rw [retreat_eq_along flat wide settled]
    _ = c.along s (-1 + 1) := advance_along flat wide
    _ = c := along_zero settled

theorem iterate_advance (flat : s.Flat) (wide : 0 < s.dx) (settled : s.Settled c.error) (n : Nat) :
    (advance s)^[n] c = c.along s n := by
  induction n with
  | zero => exact (along_zero settled).symm
  | succ n ih => rw [Function.iterate_succ_apply', ih, advance_along flat wide, Int.natCast_succ]

/-- A step changes the column, so no other number of steps leads to the end of the width. -/
theorem iterate_advance_eq_iff (flat : s.Flat) (wide : 0 < s.dx) (settled : s.Settled c.error)
    (n : Nat) :
    (advance s)^[n] c = ⟨c.x + s.dx, c.y + s.ystep * s.dy, c.error⟩ ↔ n = s.dx := by
  rw [iterate_advance flat wide settled]
  constructor
  · intro same
    have column := congrArg Cursor.x same
    simp only [along] at column
    omega
  · intro all
    rw [all, along_width flat settled]

end Cursor

namespace Frame

variable {f : Frame} {n : Nat}

theorem Upright.toNat_slope_dx (upright : f.Upright) : f.slope.dx.toInt.toNat = f.width := by
  have width : (f.width : Int) = f.slope.dx.toInt := upright.width_eq
  rw [← width, Int.toNat_natCast]

theorem Upright.iterate_advance (upright : f.Upright) (within : n ≤ f.width) :
    ((Cursor.advance f.slope)^[n] f.line.left).value = f.track n := by
  induction n with
  | zero => exact upright.track_zero.symm
  | succ n ih =>
    rw [Function.iterate_succ_apply', Int.natCast_succ]
    exact upright.value_advance (Int.natCast_nonneg n) (by omega) (ih (by omega))

theorem Upright.iterate_retreat (upright : f.Upright) (within : n ≤ f.width) :
    ((Cursor.retreat f.slope)^[n] f.line.right).value = f.track (f.width - n : Nat) := by
  induction n with
  | zero => exact upright.track_width.symm
  | succ n ih =>
    have before : ((f.width - (n + 1) : Nat) : Int) + 1 = (f.width - n : Nat) := by omega
    rw [Function.iterate_succ_apply']
    exact upright.value_retreat (by omega) (by omega) (by rw [before]; exact ih (by omega))

end Frame

/-- A step to either side keeps the error within the width, and a step back undoes it; after
exactly a width of steps the height has changed by all of its changes, and the error is the one
at the beginning. So each end of a line leads to the other. -/
theorem steps_retrace :
    (∀ (s : Slope Int) (c : Cursor Int), s.Flat → 0 < s.dx → 0 ≤ c.error → c.error < s.dx →
      (0 ≤ (c.advance s).error ∧ (c.advance s).error < s.dx) ∧
      (0 ≤ (c.retreat s).error ∧ (c.retreat s).error < s.dx) ∧
      (c.advance s).retreat s = c ∧ (c.retreat s).advance s = c ∧
      ∀ n : Nat, (Cursor.advance s)^[n] c = ⟨c.x + s.dx, c.y + s.ystep * s.dy, c.error⟩ ↔
        n = s.dx) ∧
    ∀ a b : Point,
      let l := Line.between a b
      (Cursor.advance l.slope)^[l.slope.dx.toInt.toNat] l.left = l.right ∧
        (Cursor.retreat l.slope)^[l.slope.dx.toInt.toNat] l.right = l.left := by
  refine ⟨fun s c flat wide low high => ?_, fun a b => ?_⟩
  · have settled : s.Settled c.error := ⟨low, .inl high⟩
    refine ⟨?_, ?_, Cursor.retreat_advance flat wide settled,
      Cursor.advance_retreat flat wide settled, Cursor.iterate_advance_eq_iff flat wide settled⟩
    · rw [Cursor.advance_eq_along flat wide settled]
      exact Slope.rise_error wide
    · rw [Cursor.retreat_eq_along flat wide settled]
      exact Slope.rise_error wide
  · intro l
    have upright := Frame.upright_between a b
    have width : l.slope.dx.toInt.toNat = (Frame.between a b).width := upright.toNat_slope_dx
    rw [width]
    constructor
    · exact Cursor.value_injective ((upright.iterate_advance le_rfl).trans upright.track_width)
    · have arrived := upright.iterate_retreat le_rfl
      rw [Nat.sub_self] at arrived
      exact Cursor.value_injective (arrived.trans upright.track_zero)

/-- As high as wide, so that every step changes the height, from the largest error. -/
theorem steps_retrace_steepest :
    let s : Slope Int := ⟨5, 5, -1⟩
    let c : Cursor Int := ⟨-2, 7, 4⟩
    (s.Flat ∧ 0 < s.dx ∧ 0 ≤ c.error ∧ c.error < s.dx) ∧ (c.advance s).retreat s = c ∧
      (c.retreat s).advance s = c ∧ (Cursor.advance s)^[5] c = ⟨3, 2, 4⟩ := by
  intro s c
  have flat : s.Flat := ⟨by decide, by decide, .inr rfl⟩
  obtain ⟨_, _, back, forth, closes⟩ :=
    steps_retrace.1 s c flat (by decide) (by decide) (by decide)
  exact ⟨⟨flat, by decide, by decide, by decide⟩, back, forth, (closes 5).2 rfl⟩

end LinesAndLists
