import LinesAndLists.CommandLine.Parser
import LinesAndLists.CommandLine.Word

/-! Command lines are understood in two steps. Recognition goes by shape alone: it tells
values from options and ends at the first argument that stops everything. Settling then
looks into the values in order. A value is looked into only after the argument behind
it was recognised, so an argument out of place is reported before a bad value next to
it; a value written into its option, as in `--name=5`, is looked into at once. -/
namespace LinesAndLists.CommandLine

inductive Given where
  | values (texts : List String)
  -- An option without its value is only found out when it is looked into.
  | option (name : String) (parameter : Parameter) (text : Option String) (attached : Bool)
  deriving DecidableEq, Repr

inductive Item where
  | given (g : Given)
  | stop (reason : Stop)
  deriving DecidableEq, Repr

def isOptionValue (text : String) : Bool :=
  match Word.ofText text with
  | .escape => false
  | .long _ _ => false
  | .short first others => isUnsigned (first :: others)
  | .plain => true

/-- Every program has the one-letter options `-h` and `-V`. -/
def isLetter (c : Char) : Bool := c = 'h' || c = 'V'

def letter (c : Char) : Stop :=
  if c = 'h' then .help else if c = 'V' then .version else .unexpected (String.ofList ['-', c])

namespace Signature

variable {α : Type}

def isFree (g : Signature α) (used : Nat) : Bool := (g.places.next? used).isSome

/-- Whether a text with one hyphen, where a value may stand, is a value and not options. -/
def admits (g : Signature α) (first : Char) (others : List Char) : Bool :=
  if g.takesHyphens then !(first :: others).all isLetter else isUnsigned (first :: others)

def place (g : Signature α) (text : String) : List Item → List Item
  | .given (.values texts) :: items =>
    match g.places with
    -- Where any number of values may stand, values in a row are looked into together.
    | .many _ => .given (.values (text :: texts)) :: items
    | .each _ => .given (.values [text]) :: .given (.values texts) :: items
  | items => .given (.values [text]) :: items

/-- After two hyphens every argument is a value. -/
def trailing (g : Signature α) (used : Nat) : List String → List Item
  | [] => []
  | text :: texts =>
    if g.isFree used then g.place text (g.trailing (used + 1) texts)
    else [.stop (.unexpected text)]

/-- Recognises the arguments that follow `used` values. -/
def recognise (g : Signature α) (used : Nat) : List String → List Item
  | [] => []
  | text :: texts =>
    match Word.ofText text with
    | .escape => g.trailing used texts
    | .plain =>
      if g.isFree used then g.place text (g.recognise (used + 1) texts)
      else [.stop (.unexpected text)]
    | .short first others =>
      if g.isFree used && g.admits first others then
        g.place text (g.recognise (used + 1) texts)
      -- Each of the letters would stop everything, known or not, so only the first counts.
      else [.stop (letter first)]
    | .long name value =>
      if name = "help" || name = "version" then
        match value with
        | some value => [.stop (.unexpectedValue ("--" ++ name) value)]
        | none => [.stop (if name = "help" then .help else .version)]
      else
        match g.options.lookup name with
        | some parameter =>
          match value, texts with
          | some value, texts =>
            .given (.option name parameter (some value) true) :: g.recognise used texts
          | none, [] => [.given (.option name parameter none false)]
          | none, value :: texts =>
            if isOptionValue value then
              .given (.option name parameter (some value) false) :: g.recognise used texts
            else
              .given (.option name parameter none false) :: g.recognise used (value :: texts)
        | none =>
          if g.isFree used && g.takesHyphens then
            g.place text (g.recognise (used + 1) texts)
          else [.stop (.unexpected ("--" ++ name))]

def readFor (g : Signature α) (parameter : Parameter) (text : String) : Except Stop α :=
  (g.read text).mapError (.invalidValue parameter.label text)

def takeValue (g : Signature α) (m : Matches α) (text : String) : Except Stop (Matches α) :=
  match g.places.next? m.values.length with
  | none => .error (.unexpected text)
  | some parameter => (g.readFor parameter text).map m.add

/-- A missing value is found out first, then that the option stands a second time. -/
def take (g : Signature α) (m : Matches α) : Given → Except Stop (Matches α)
  | .values texts => texts.foldlM g.takeValue m
  | .option _ parameter none _ => .error (.missingValue parameter.label)
  | .option name parameter (some text) _ =>
    if (m.options.lookup name).isSome then .error (.repeated parameter.label)
    else (g.readFor parameter text).map (m.set name)

end Signature

def Stop.isMisplaced : Stop → Bool
  | .unexpected _ => true
  | .unexpectedValue _ _ => true
  | _ => false

/-- The stop that comes before what is given just before it. -/
def overtaking (g : Given) : List Item → Option Stop
  | .stop reason :: _ =>
    match g with
    | .option _ _ _ true => none
    | _ => if reason.isMisplaced then some reason else none
  | _ => none

def Signature.settle {α : Type} (g : Signature α) : Matches α → List Item →
    Except Stop (Matches α)
  | m, [] => .ok m
  | _, .stop reason :: _ => .error reason
  | m, .given item :: items =>
    match overtaking item items with
    | some reason => .error reason
    | none =>
      match g.take m item with
      | .error reason => .error reason
      | .ok m => g.settle m items

end LinesAndLists.CommandLine
