import LinesAndLists.Log

/-! What a program does to the outside. A program is written against a `Channel` and
runs in the channel's monad: over the standard output it streams, over a `Session` it
is a plain function that can be reasoned about. -/
namespace LinesAndLists

inductive Activity where
  | writePoint
  | flushOutput
  | writeLength
  | printList
  | writeIndex
  deriving DecidableEq, Repr

def Activity.failure : Activity → String
  | .writePoint => "failed to write point"
  | .flushOutput => "failed to flush output"
  | .writeLength => "failed to write length"
  | .printList => "failed to print list"
  | .writeIndex => "failed to write index"

/-- The effects that a program has, each with what it is done for. -/
structure Channel (m : Type → Type) where
  write : Activity → String → m Unit
  flush : Activity → m Unit
  log : Record → m Unit

/-- Pieces are written one by one, and the first that fails ends the writing. -/
def Channel.writeAll {m : Type → Type} [Monad m] (io : Channel m) (activity : Activity)
    (pieces : List String) : m Unit :=
  pieces.forM (io.write activity)

inductive Fault where
  | full
  | flushRefused
  deriving DecidableEq, Repr

def Fault.message : Fault → String
  | .full => "failed to write whole buffer"
  | .flushRefused => "flush refused"

/-- Bytes kept in memory: no more than the capacity, if there is one. -/
structure Sink where
  capacity : Option Nat := none
  refusesFlush : Bool := false
  written : ByteArray := .empty

namespace Sink

def room (s : Sink) : Option Nat := s.capacity.map (· - s.written.size)

/-- A text that does not fit is cut off where the sink is full. -/
def write (text : String) : EStateM Fault Sink Unit := fun s =>
  let bytes := text.toUTF8
  match s.room with
  | none => .ok () { s with written := s.written ++ bytes }
  | some room =>
    let s := { s with written := s.written ++ bytes.extract 0 room }
    if bytes.size ≤ room then .ok () s else .error .full s

def flush : EStateM Fault Sink Unit := fun s =>
  if s.refusesFlush then .error .flushRefused s else .ok () s

/-- What was written, as a text; nothing if it was cut off inside a character. -/
def text (s : Sink) : String := (String.fromUTF8? s.written).getD ""

end Sink

structure Failure where
  activity : Activity
  cause : Fault
  deriving DecidableEq, Repr

structure Session where
  sink : Sink := {}
  records : Array Record := #[]

namespace Session

/-- Performs an action on the sink, and says what it was done for if it fails. -/
def onSink (activity : Activity) (action : EStateM Fault Sink Unit) : EStateM Failure Session Unit :=
  fun s =>
    match action s.sink with
    | .ok _ sink => .ok () { s with sink }
    | .error cause sink => .error ⟨activity, cause⟩ { s with sink }

def channel : Channel (EStateM Failure Session) where
  write activity text := onSink activity (Sink.write text)
  flush activity := onSink activity Sink.flush
  log record := fun s => .ok () { s with records := s.records.push record }

end Session
end LinesAndLists
