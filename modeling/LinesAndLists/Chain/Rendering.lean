import LinesAndLists.Chain
import LinesAndLists.Text.Layout

/-! Written forms of a chain. The display form joins the values by arrows; it is given
as the pieces in which it is written out, so that a writer that fills up may stop
between any two of them. -/
namespace LinesAndLists.Chain

def arrow : String := " -> "

def numerals (c : Chain) : List String := c.toList.map fun v => Numeral.text v.toInt

/-- An arrow goes before each value but the first. -/
def pieces (c : Chain) : List String :=
  match c.numerals with
  | [] => []
  | first :: others => first :: others.flatMap fun numeral => [arrow, numeral]

def display (c : Chain) : String := String.join c.pieces

def bracketed (c : Chain) : String := Text.bracketed c.numerals

def bracketedLines (c : Chain) : String := Text.bracketedLines c.numerals

/-- Writes the display form as a line. An empty chain writes nothing, not even an
empty line. -/
def print {m : Type → Type} [Monad m] (write : String → m Unit) (c : Chain) : m Unit :=
  if c.isEmpty then pure () else (c.pieces ++ ["\n"]).forM write

theorem display_eq_intercalate (c : Chain) : c.display = arrow.intercalate c.numerals := by
  unfold display pieces
  cases c.numerals with
  | nil => rfl
  | cons first others =>
    induction others generalizing first with
    | nil => simp
    | cons second others ih => simpa [String.append_assoc] using congrArg (first ++ arrow ++ ·) (ih second)

end LinesAndLists.Chain
