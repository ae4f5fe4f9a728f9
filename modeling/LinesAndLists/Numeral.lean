/-! Decimal numerals: how an integer is written, and how a text is read as an integer
of a bounded range. Reading goes from left to right and stops at the first fault; at
each character the digit test comes before the range test, so which fault is reported
depends only on the characters up to it. -/
namespace LinesAndLists.Numeral

def digits (n : Nat) : List Char := Nat.toDigits 10 n

/-- The shortest numeral: a minus sign only before a negative number, no leading zero. -/
def write (n : Int) : List Char :=
  if n < 0 then '-' :: digits n.natAbs else digits n.natAbs

def text (n : Int) : String := String.ofList (write n)

/-- The integers from `lo` to `hi`, both included. -/
structure Range where
  lo : Int
  hi : Int
  deriving DecidableEq, Repr

def Range.word32 : Range := ⟨-2147483648, 2147483647⟩
def Range.word64 : Range := ⟨-9223372036854775808, 9223372036854775807⟩

def Range.Holds (range : Range) (n : Int) : Prop := range.lo ≤ n ∧ n ≤ range.hi

instance (range : Range) (n : Int) : Decidable (range.Holds n) :=
  inferInstanceAs (Decidable (_ ∧ _))

inductive Sign where
  | plus
  | minus
  deriving DecidableEq, Repr

def Sign.apply : Sign → Int → Int
  | .plus, n => n
  | .minus, n => -n

inductive Fault where
  | empty
  | invalidDigit
  | tooLarge
  | tooSmall
  deriving DecidableEq, Repr

def Fault.message : Fault → String
  | .empty => "cannot parse integer from empty string"
  | .invalidDigit => "invalid digit found in string"
  | .tooLarge => "number too large to fit in target type"
  | .tooSmall => "number too small to fit in target type"

def Sign.overflow : Sign → Fault
  | .plus => .tooLarge
  | .minus => .tooSmall

/-- Only the ten ASCII digits count. -/
def digit? (c : Char) : Option Nat :=
  if c.isDigit then some (c.toNat - '0'.toNat) else none

/-- Continues the numeral whose digits so far denote `value`. -/
def readDigits (range : Range) (sign : Sign) (value : Int) : List Char → Except Fault Int
  | [] => .ok value
  | c :: cs =>
    match digit? c with
    | none => .error .invalidDigit
    | some d =>
      let next := 10 * value + sign.apply d
      if range.Holds next then readDigits range sign next cs else .error sign.overflow

/-- Separates an optional leading sign; without one the numeral is positive. -/
def splitSign : List Char → Sign × List Char
  | '+' :: cs => (.plus, cs)
  | '-' :: cs => (.minus, cs)
  | cs => (.plus, cs)

/-- Nothing at all is a fault of its own, a sign without digits is not. -/
def read (range : Range) (cs : List Char) : Except Fault Int :=
  if cs.isEmpty then .error .empty
  else
    let (sign, ds) := splitSign cs
    if ds.isEmpty then .error .invalidDigit else readDigits range sign 0 ds

theorem digits_ne_nil (n : Nat) : digits n ≠ [] := Nat.toDigits_ne_nil

theorem isDigit_of_mem_digits {n : Nat} {c : Char} (h : c ∈ digits n) : c.isDigit = true :=
  Nat.isDigit_of_mem_toDigits (by decide) (by decide) h

end LinesAndLists.Numeral
