import LinesAndLists.Grid.Cursor
import Mathlib.Tactic.Linarith
import Mathlib.Tactic.Ring

/-! The stepping rule over the integers, solved. The error of a cursor fixes how often
its height changes, so the cursor any number of columns away can be written down, and
both steps are seen to move along one track. -/
namespace LinesAndLists

namespace Slope

/-- At most as high as wide, with changes of height by one. -/
structure Flat (s : Slope Int) : Prop where
  nonneg : 0 ≤ s.dy
  le_width : s.dy ≤ s.dx
  unit : s.ystep = 1 ∨ s.ystep = -1

/-- The errors between steps. A line without width has a single column, and no error. -/
def Settled (s : Slope Int) (error : Int) : Prop :=
  0 ≤ error ∧ (error < s.dx ∨ s.dx = 0 ∧ error = 0)

/-- How often the height changes within `k` columns that begin with `error`. -/
def rise (s : Slope Int) (error k : Int) : Int := (k * s.dy + (s.dx - 1 - error)) / s.dx

variable {s : Slope Int} {error j k k' : Int}

theorem rise_of_dx_eq_zero (narrow : s.dx = 0) : s.rise error k = 0 := by
  simp [rise, narrow]

theorem rise_error (wide : 0 < s.dx) :
    0 ≤ error - k * s.dy + s.rise error k * s.dx ∧
      error - k * s.dy + s.rise error k * s.dx < s.dx := by
  have divided := Int.mul_ediv_add_emod (k * s.dy + (s.dx - 1 - error)) s.dx
  have low := Int.emod_nonneg (k * s.dy + (s.dx - 1 - error)) (by omega : s.dx ≠ 0)
  have high := Int.emod_lt_of_pos (k * s.dy + (s.dx - 1 - error)) wide
  have commuted : s.rise error k * s.dx =
      s.dx * ((k * s.dy + (s.dx - 1 - error)) / s.dx) := by rw [rise]; ring
  constructor <;> omega

theorem rise_le_of_nonneg (wide : 0 < s.dx) (low : 0 ≤ error - k * s.dy + j * s.dx) :
    s.rise error k ≤ j := by
  by_contra fewer
  have bounds := @rise_error s error k wide
  have := Int.mul_le_mul_of_nonneg_right (show j + 1 ≤ s.rise error k by omega) wide.le
  rw [Int.add_mul] at this
  omega

/-- Only one number of changes brings the error into the width. -/
theorem eq_rise (low : 0 ≤ error - k * s.dy + j * s.dx)
    (high : error - k * s.dy + j * s.dx < s.dx) : j = s.rise error k := by
  have wide : 0 < s.dx := by omega
  apply Int.le_antisymm _ (rise_le_of_nonneg wide low)
  by_contra more
  have bounds := @rise_error s error k wide
  have := Int.mul_le_mul_of_nonneg_right (show s.rise error k + 1 ≤ j by omega) wide.le
  rw [Int.add_mul] at this
  omega

theorem rise_zero (settled : s.Settled error) : s.rise error 0 = 0 := by
  obtain ⟨low, high | ⟨narrow, _⟩⟩ := settled
  · exact (eq_rise (by simpa using low) (by simpa using high)).symm
  · exact rise_of_dx_eq_zero narrow

theorem rise_width (flat : s.Flat) (settled : s.Settled error) : s.rise error s.dx = s.dy := by
  obtain ⟨low, high | ⟨narrow, _⟩⟩ := settled
  · have closed : error - s.dx * s.dy + s.dy * s.dx = error := by ring
    exact (eq_rise (by omega) (by omega)).symm
  · have := flat.nonneg
    have := flat.le_width
    rw [rise_of_dx_eq_zero narrow]
    omega

theorem rise_mono (flat : s.Flat) (le : k ≤ k') : s.rise error k ≤ s.rise error k' := by
  have := flat.nonneg
  have := flat.le_width
  have := Int.mul_le_mul_of_nonneg_right le flat.nonneg
  rcases (show 0 ≤ s.dx by omega).eq_or_lt with narrow | wide
  · simp [rise_of_dx_eq_zero narrow.symm]
  · exact Int.ediv_le_ediv wide (by omega)

theorem rise_nonneg (flat : s.Flat) (settled : s.Settled error) (right : 0 ≤ k) :
    0 ≤ s.rise error k := by
  have grown := @rise_mono s error 0 k flat right
  rwa [rise_zero settled] at grown

theorem rise_le (flat : s.Flat) (settled : s.Settled error) (within : k ≤ s.dx) :
    s.rise error k ≤ s.dy := by
  have grown := @rise_mono s error k s.dx flat within
  rwa [rise_width flat settled] at grown

end Slope

namespace Cursor

section Branches

variable {α : Type} [Add α] [Sub α] [OfNat α 1] {s : Slope α} {c : Cursor α}

theorem advance_of_lt [OfNat α 0] [LT α] [DecidableLT α] (change : c.error - s.dy < 0) :
    c.advance s = ⟨c.x + 1, c.y + s.ystep, c.error - s.dy + s.dx⟩ := if_pos change

theorem advance_of_not_lt [OfNat α 0] [LT α] [DecidableLT α] (level : ¬ c.error - s.dy < 0) :
    c.advance s = ⟨c.x + 1, c.y, c.error - s.dy⟩ := if_neg level

theorem retreat_of_le [LE α] [DecidableLE α] (change : s.dx ≤ c.error + s.dy) :
    c.retreat s = ⟨c.x - 1, c.y - s.ystep, c.error + s.dy - s.dx⟩ := if_pos change

theorem retreat_of_not_le [LE α] [DecidableLE α] (level : ¬ s.dx ≤ c.error + s.dy) :
    c.retreat s = ⟨c.x - 1, c.y, c.error + s.dy⟩ := if_neg level

end Branches

/-- The cursor `k` columns further to the right, or to the left for a negative `k`. -/
def along (s : Slope Int) (c : Cursor Int) (k : Int) : Cursor Int :=
  ⟨c.x + k, c.y + s.ystep * s.rise c.error k, c.error - k * s.dy + s.rise c.error k * s.dx⟩

variable {s : Slope Int} {c : Cursor Int} {k : Int}

theorem along_zero (settled : s.Settled c.error) : c.along s 0 = c := by
  simp [along, Slope.rise_zero settled]

theorem along_width (flat : s.Flat) (settled : s.Settled c.error) :
    c.along s s.dx = ⟨c.x + s.dx, c.y + s.ystep * s.dy, c.error⟩ := by
  simp only [along, Slope.rise_width flat settled, Cursor.mk.injEq, true_and]
  ring

theorem along_settled (settled : s.Settled c.error) (right : 0 ≤ k) (within : k ≤ s.dx) :
    s.Settled (c.along s k).error := by
  rcases (show 0 ≤ s.dx by omega).eq_or_lt with narrow | wide
  · have here : k = 0 := by omega
    rwa [here, along_zero settled]
  · obtain ⟨low, high⟩ := @Slope.rise_error s c.error k wide
    exact ⟨low, .inl high⟩

theorem advance_along (flat : s.Flat) (wide : 0 < s.dx) :
    (c.along s k).advance s = c.along s (k + 1) := by
  have bounds := @Slope.rise_error s c.error k wide
  have := flat.nonneg
  have := flat.le_width
  have before : (c.along s k).error = c.error - k * s.dy + s.rise c.error k * s.dx := rfl
  have further : (k + 1) * s.dy = k * s.dy + s.dy := by ring
  have more : (s.rise c.error k + 1) * s.dx = s.rise c.error k * s.dx + s.dx := by ring
  -- On either branch the new error lies in the width again, which fixes the rise.
  by_cases change : (c.along s k).error - s.dy < 0
  · have once : s.rise c.error k + 1 = s.rise c.error (k + 1) :=
      Slope.eq_rise (by omega) (by omega)
    rw [advance_of_lt change]
    simp only [along, ← once, Cursor.mk.injEq]
    exact ⟨by ring, by ring, by ring⟩
  · have level : s.rise c.error k = s.rise c.error (k + 1) :=
      Slope.eq_rise (by omega) (by omega)
    rw [advance_of_not_lt change]
    simp only [along, ← level, Cursor.mk.injEq, true_and]
    exact ⟨by ring, by ring⟩

/-- A step to the left goes back to the place that a step to the right would leave. -/
theorem retreat_along (flat : s.Flat) (wide : 0 < s.dx) :
    (c.along s (k + 1)).retreat s = c.along s k := by
  have bounds := @Slope.rise_error s c.error (k + 1) wide
  have := flat.nonneg
  have := flat.le_width
  have before : (c.along s (k + 1)).error =
      c.error - (k + 1) * s.dy + s.rise c.error (k + 1) * s.dx := rfl
  have further : (k + 1) * s.dy = k * s.dy + s.dy := by ring
  have fewer : (s.rise c.error (k + 1) - 1) * s.dx =
      s.rise c.error (k + 1) * s.dx - s.dx := by ring
  by_cases change : s.dx ≤ (c.along s (k + 1)).error + s.dy
  · have once : s.rise c.error (k + 1) - 1 = s.rise c.error k :=
      Slope.eq_rise (by omega) (by omega)
    rw [retreat_of_le change]
    simp only [along, ← once, Cursor.mk.injEq]
    exact ⟨by ring, by ring, by ring⟩
  · have level : s.rise c.error (k + 1) = s.rise c.error k :=
      Slope.eq_rise (by omega) (by omega)
    rw [retreat_of_not_le change]
    simp only [along, ← level, Cursor.mk.injEq, true_and]
    exact ⟨by ring, by ring⟩

end Cursor
end LinesAndLists
