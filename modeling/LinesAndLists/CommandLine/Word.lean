import LinesAndLists.Text.Cut

/-! The shape of a single command line argument, before it is known what it is for. -/
namespace LinesAndLists.CommandLine

inductive Word where
  -- Two hyphens alone, after which every argument is a value.
  | escape
  -- `--name` or `--name=value`.
  | long (name : String) (value : Option String)
  -- A hyphen with letters behind it, each of them an option.
  | short (first : Char) (others : List Char)
  -- All the rest, also a hyphen alone.
  | plain
  deriving DecidableEq, Repr

def Word.ofName (cs : List Char) : Word :=
  match Text.cut? '=' cs with
  | none => .long (String.ofList cs) none
  | some (name, value) => .long (String.ofList name) (some (String.ofList value))

def Word.ofChars : List Char → Word
  | ['-', '-'] => .escape
  | '-' :: '-' :: cs => .ofName cs
  | '-' :: c :: cs => .short c cs
  | _ => .plain

def Word.ofText (text : String) : Word := .ofChars text.toList

def isExponent : List Char → Bool
  | [] => true
  | c :: cs => (c = 'e' || c = 'E') && !cs.isEmpty && cs.all Char.isDigit

/-- Tells an unsigned number: digits, perhaps a point with more digits, perhaps an
exponent without a sign. -/
def isUnsigned : List Char → Bool
  | [] => false
  | c :: cs => c.isDigit &&
    match cs.dropWhile Char.isDigit with
    | '.' :: fraction => isExponent (fraction.dropWhile Char.isDigit)
    | rest => isExponent rest

end LinesAndLists.CommandLine
