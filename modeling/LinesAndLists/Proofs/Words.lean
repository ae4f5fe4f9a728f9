import LinesAndLists.Grid.Line
import LinesAndLists.Proofs.Stepping

/-! Words against integers. A sum or difference of words is that of the integers as long
as the result fits; near the coordinates of points it always does, so the steps on words
are the steps over the integers. -/
namespace LinesAndLists

def Fits (n : Int) : Prop := -2 ^ 63 ≤ n ∧ n < 2 ^ 63

def Short (n : Int) : Prop := -2 ^ 31 ≤ n ∧ n < 2 ^ 31

theorem bmod_eq_of_fits {n : Int} (fits : Fits n) : n.bmod (2 ^ 64) = n :=
  Int.bmod_eq_of_le fits.1 fits.2

theorem toInt_add_of_fits {a b : Int64} (fits : Fits (a.toInt + b.toInt)) :
    (a + b).toInt = a.toInt + b.toInt := by
  rw [Int64.toInt_add, bmod_eq_of_fits fits]

theorem toInt_sub_of_fits {a b : Int64} (fits : Fits (a.toInt - b.toInt)) :
    (a - b).toInt = a.toInt - b.toInt := by
  rw [Int64.toInt_sub, bmod_eq_of_fits fits]

theorem toInt_neg_of_fits {a : Int64} (fits : Fits (-a.toInt)) : (-a).toInt = -a.toInt := by
  rw [Int64.toInt_neg, bmod_eq_of_fits fits]

theorem toInt_half {a : Int64} (nonneg : 0 ≤ a.toInt) : (a / 2).toInt = a.toInt / 2 := by
  rw [Int64.toInt_div_of_ne_right a 2 (by decide), show (2 : Int64).toInt = 2 from rfl,
    Int.tdiv_eq_ediv_of_nonneg nonneg]

theorem toNat_toUInt64 {a : Int64} (nonneg : 0 ≤ a.toInt) : a.toUInt64.toNat = a.toInt.toNat :=
  Int64.toNat_toUInt64_of_le (Int64.le_iff_toInt_le.2 (by simpa using nonneg))

theorem toInt_toInt32_of_short {a : Int64} (short : Short a.toInt) :
    a.toInt32.toInt = a.toInt := by
  rw [Int64.toInt_toInt32]
  exact Int.bmod_eq_of_le short.1 short.2

theorem short_toInt (a : Int32) : Short a.toInt := ⟨a.le_toInt, a.toInt_lt⟩

def Slope.value (s : Slope Int64) : Slope Int := ⟨s.dx.toInt, s.dy.toInt, s.ystep.toInt⟩

namespace Cursor

def value (c : Cursor Int64) : Cursor Int := ⟨c.x.toInt, c.y.toInt, c.error.toInt⟩

/-- Every value computed for a step to the right is the one over the integers. -/
structure AdvanceExact (s : Slope Int64) (c : Cursor Int64) : Prop where
  lowered : (c.error - s.dy).toInt = c.error.toInt - s.dy.toInt
  raised : (c.error - s.dy + s.dx).toInt = c.error.toInt - s.dy.toInt + s.dx.toInt
  column : (c.x + 1).toInt = c.x.toInt + 1
  height : (c.y + s.ystep).toInt = c.y.toInt + s.ystep.toInt

structure RetreatExact (s : Slope Int64) (c : Cursor Int64) : Prop where
  raised : (c.error + s.dy).toInt = c.error.toInt + s.dy.toInt
  lowered : (c.error + s.dy - s.dx).toInt = c.error.toInt + s.dy.toInt - s.dx.toInt
  column : (c.x - 1).toInt = c.x.toInt - 1
  height : (c.y - s.ystep).toInt = c.y.toInt - s.ystep.toInt

variable {s : Slope Int64} {c : Cursor Int64}

theorem value_advance (exact : c.AdvanceExact s) :
    (c.advance s).value = c.value.advance s.value := by
  have branch : c.error - s.dy < 0 ↔ c.value.error - s.value.dy < 0 := by
    rw [Int64.lt_iff_toInt_lt, exact.lowered]
    rfl
  by_cases change : c.error - s.dy < 0
  · rw [advance_of_lt change, advance_of_lt (branch.1 change)]
    simp only [value, exact.raised, exact.column, exact.height, Slope.value]
  · rw [advance_of_not_lt change, advance_of_not_lt (mt branch.2 change)]
    simp only [value, exact.lowered, exact.column, Slope.value]

theorem value_retreat (exact : c.RetreatExact s) :
    (c.retreat s).value = c.value.retreat s.value := by
  have branch : s.dx ≤ c.error + s.dy ↔ s.value.dx ≤ c.value.error + s.value.dy := by
    rw [Int64.le_iff_toInt_le, exact.raised]
    rfl
  by_cases change : s.dx ≤ c.error + s.dy
  · rw [retreat_of_le change, retreat_of_le (branch.1 change)]
    simp only [value, exact.lowered, exact.column, exact.height, Slope.value]
  · rw [retreat_of_not_le change, retreat_of_not_le (mt branch.2 change)]
    simp only [value, exact.raised, exact.column, Slope.value]

/-- A cursor within the coordinates of points, on a slope between points. -/
structure Near (s : Slope Int64) (c : Cursor Int64) : Prop where
  flat : s.value.Flat
  width : s.dx.toInt < 2 ^ 32
  settled : s.value.Settled c.error.toInt
  x : Short c.x.toInt
  y : Short c.y.toInt

theorem Near.advanceExact (near : c.Near s) : c.AdvanceExact s := by
  obtain ⟨⟨nonneg, le_width, unit⟩, width, ⟨low, high⟩, ⟨x1, x2⟩, ⟨y1, y2⟩⟩ := near
  simp only [Slope.value] at nonneg le_width unit high
  have lowered : (c.error - s.dy).toInt = c.error.toInt - s.dy.toInt :=
    toInt_sub_of_fits ⟨by omega, by omega⟩
  have one : (1 : Int64).toInt = 1 := rfl
  refine ⟨lowered, ?_, ?_, ?_⟩
  · rw [toInt_add_of_fits, lowered]
    exact ⟨by omega, by omega⟩
  · rw [toInt_add_of_fits, one]
    exact ⟨by omega, by omega⟩
  · exact toInt_add_of_fits ⟨by omega, by omega⟩

theorem Near.retreatExact (near : c.Near s) : c.RetreatExact s := by
  obtain ⟨⟨nonneg, le_width, unit⟩, width, ⟨low, high⟩, ⟨x1, x2⟩, ⟨y1, y2⟩⟩ := near
  simp only [Slope.value] at nonneg le_width unit high
  have raised : (c.error + s.dy).toInt = c.error.toInt + s.dy.toInt :=
    toInt_add_of_fits ⟨by omega, by omega⟩
  have one : (1 : Int64).toInt = 1 := rfl
  refine ⟨raised, ?_, ?_, ?_⟩
  · rw [toInt_sub_of_fits, raised]
    exact ⟨by omega, by omega⟩
  · rw [toInt_sub_of_fits, one]
    exact ⟨by omega, by omega⟩
  · exact toInt_sub_of_fits ⟨by omega, by omega⟩

end Cursor
end LinesAndLists
