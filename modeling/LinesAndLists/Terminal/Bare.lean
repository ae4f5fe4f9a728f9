/-! The bare text of what is meant for a terminal: control characters and control
sequences are left out. A sequence begins with an escape and ends as its kind wants.
One that never ends takes the rest of the text with it. -/
namespace LinesAndLists.Terminal

/-- White space that lays a text out. It is the only kind of control character that
stays. -/
def isLayout (c : Char) : Bool := c = '\t' || c = '\n' || c = '\x0c' || c = '\r'

def isAscii (c : Char) : Bool := c.toNat < 0x80

/-- Outside ASCII nothing is a control character. -/
def isText (c : Char) : Bool := (' ' ≤ c && c ≤ '~') || isLayout c || !isAscii c

def isIntermediate (c : Char) : Bool := ' ' ≤ c && c ≤ '/'

def isParameter (c : Char) : Bool := '0' ≤ c && c ≤ '?'

def isFinal (c : Char) : Bool := '@' ≤ c && c ≤ '~'

/-- Where a reader stands in what a terminal is sent. -/
inductive Mode where
  | text
  | escape
  | escapeIntermediate
  -- Behind `ESC [`.
  | control
  -- Behind `ESC ]`.
  | command
  -- Behind `ESC P`, where the head of a device control string begins.
  | device
  | deviceParameter
  | deviceIntermediate
  -- In the body of a device control string, or of a string of another kind.
  | controlString
  deriving DecidableEq, Repr

namespace Mode

/-- Layout is kept also within a sequence, but not within a string. -/
def keeps (mode : Mode) (c : Char) : Bool :=
  match mode with
  | text => isText c
  | escape => isLayout c
  | escapeIntermediate => isLayout c
  | control => isLayout c
  | _ => false

def begin (c : Char) : Mode :=
  if c = '[' then control
  else if c = ']' then command
  else if c = 'P' then device
  else if c = 'X' || c = '^' || c = '_' then controlString
  else if isIntermediate c then escapeIntermediate
  else if isParameter c || isFinal c then text
  else escape

/-- The mode behind a character that means something to this mode only. A string is
ended by the byte 9C, also where that byte is only part of a character. -/
def proceed (mode : Mode) (c : Char) : Mode :=
  match mode with
  | text => text
  | escape => begin c
  | escapeIntermediate => if isParameter c || isFinal c then text else escapeIntermediate
  | control => if isFinal c then text else control
  | command => if c = '\x07' then text else command
  | device =>
    if isIntermediate c then deviceIntermediate
    else if isParameter c then deviceParameter
    else if isFinal c then controlString
    else device
  | deviceParameter =>
    if isIntermediate c then deviceIntermediate
    else if '<' ≤ c && c ≤ '~' then controlString
    else deviceParameter
  | deviceIntermediate => if isParameter c || isFinal c then controlString else deviceIntermediate
  | controlString => if (String.utf8EncodeChar c).contains 0x9C then text else controlString

/-- An escape begins a new sequence, and CAN and SUB break one off, wherever they stand. -/
def next (mode : Mode) (c : Char) : Mode :=
  if c = '\x1b' then escape
  else if c = '\x18' || c = '\x1a' then text
  else mode.proceed c

end Mode

/-- Once a character is kept, all are up to the next control character. A sequence with
layout in it goes on only there, unless a character outside ASCII has come between. -/
structure Reader where
  mode : Mode := .text
  keeping : Bool := false
  deriving DecidableEq, Repr

namespace Reader

def keeps (r : Reader) (c : Char) : Bool := if r.keeping then isText c else r.mode.keeps c

def next (r : Reader) (c : Char) : Reader :=
  if r.keeps c then ⟨if isAscii c then r.mode else .text, true⟩ else ⟨r.mode.next c, false⟩

def bare (r : Reader) : List Char → List Char
  | [] => []
  | c :: cs => if r.keeps c then c :: (r.next c).bare cs else (r.next c).bare cs

end Reader

def bare (text : String) : String := String.ofList (({} : Reader).bare text.toList)

end LinesAndLists.Terminal
