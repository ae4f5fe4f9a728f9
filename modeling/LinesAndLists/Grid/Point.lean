import LinesAndLists.Numeral
import LinesAndLists.Text.Blank
import LinesAndLists.Text.Cut
import LinesAndLists.Text.Layout

/-! Points of the integer grid, whose coordinates are 32-bit words, with their text
forms. The display form `x, y` is one of the spellings that `read` accepts: it takes
any two numerals around a comma, with blanks at either side of each. -/
namespace LinesAndLists

structure Point where
  x : Int32
  y : Int32
  deriving DecidableEq, Repr

namespace Point

def origin : Point := ⟨0, 0⟩

instance : Inhabited Point := ⟨origin⟩

/-- The distance of two coordinates along one axis, which can exceed every coordinate. -/
def axisDistance (a b : Int32) : Nat := (a.toInt - b.toInt).natAbs

def transpose (p : Point) : Point := ⟨p.y, p.x⟩

def pieces (p : Point) : List String := [Numeral.text p.x.toInt, ", ", Numeral.text p.y.toInt]

def display (p : Point) : String := String.join p.pieces

def fields (p : Point) : List (String × String) :=
  [("x", Numeral.text p.x.toInt), ("y", Numeral.text p.y.toInt)]

def labelled (p : Point) : String := Text.labelled "Point" p.fields

def labelledLines (p : Point) : String := Text.labelledLines "Point" p.fields

/-- Why a text is no point. A coordinate is quoted without the blanks around it, the
whole text as it came. -/
inductive ReadError where
  | missingSeparator (text : String)
  | invalidX (text : String) (fault : Numeral.Fault)
  | invalidY (text : String) (fault : Numeral.Fault)
  deriving DecidableEq, Repr

def ReadError.message : ReadError → String
  | .missingSeparator text => "expected a point as `x,y`, got `" ++ text ++ "`"
  | .invalidX text _ => "invalid x coordinate `" ++ text ++ "`"
  | .invalidY text _ => "invalid y coordinate `" ++ text ++ "`"

def readCoordinate (cs : List Char) : Except Numeral.Fault Int32 :=
  (Numeral.read .word32 cs).map Int32.ofInt

/-- The x coordinate is read first, so a text with two bad coordinates fails at x. -/
def read (text : String) : Except ReadError Point :=
  match Text.cut? ',' text.toList with
  | none => .error (.missingSeparator text)
  | some (left, right) =>
    let left := Text.trim left
    let right := Text.trim right
    match readCoordinate left with
    | .error fault => .error (.invalidX (String.ofList left) fault)
    | .ok x =>
      match readCoordinate right with
      | .error fault => .error (.invalidY (String.ofList right) fault)
      | .ok y => .ok ⟨x, y⟩

theorem read_eq_missingSeparator_iff {text : String} :
    read text = .error (.missingSeparator text) ↔ ',' ∉ text.toList := by
  rw [← Text.cut?_eq_none_iff]
  unfold read
  cases Text.cut? ',' text.toList with
  | none => simp
  | some halves =>
    dsimp only
    cases readCoordinate (Text.trim halves.1) with
    | error fault => simp
    | ok x => cases readCoordinate (Text.trim halves.2) <;> simp

end Point
end LinesAndLists
