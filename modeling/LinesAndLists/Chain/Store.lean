import LinesAndLists.Chain

/-! Four chains side by side, and the commands that build them. Constructing moves a
chain: the one it starts from is left empty, unless it is also the one that receives
the result. -/
namespace LinesAndLists

abbrev Slot := Fin 4

structure Store where
  chains : Vector Chain 4

inductive Command where
  | clear (slot : Slot)
  /-- Puts a value in front of the chain of `source` and keeps the result in `target`. -/
  | construct (value : Int32) (source target : Slot)
  | pushFront (value : Int32) (slot : Slot)
  | collect (values : List Int32) (slot : Slot)
  | collectRange (start stop : Int32) (slot : Slot)
  deriving DecidableEq, Repr

namespace Store

def initial : Store := ⟨Vector.replicate 4 .empty⟩

def get (s : Store) (slot : Slot) : Chain := s.chains[slot]

def put (s : Store) (slot : Slot) (c : Chain) : Store := ⟨s.chains.set slot c⟩

def apply (s : Store) : Command → Store
  | .clear slot => s.put slot .empty
  | .construct v source target => (s.put source .empty).put target (.link v (s.get source))
  | .pushFront v slot => s.put slot (.link v (s.get slot))
  | .collect vs slot => s.put slot (.collect vs)
  | .collectRange start stop slot => s.put slot (.collect (Chain.range start stop))

@[simp] theorem get_initial (slot : Slot) : initial.get slot = .empty := by
  simp [get, initial]

@[simp] theorem get_put_same (s : Store) (slot : Slot) (c : Chain) : (s.put slot c).get slot = c := by
  simp [get, put]

@[simp] theorem get_put_other {s : Store} {slot other : Slot} {c : Chain} (h : slot ≠ other) :
    (s.put slot c).get other = s.get other := by
  have : slot.val ≠ other.val := fun e => h (Fin.ext e)
  simp [get, put, this]

end Store

def Command.target : Command → Slot
  | .clear slot => slot
  | .construct _ _ target => target
  | .pushFront _ slot => slot
  | .collect _ slot => slot
  | .collectRange _ _ slot => slot

def Command.records : Command → List Record
  | .clear _ => []
  | .construct v _ _ => [Chain.construction v]
  | .pushFront v _ => [Chain.pushing v]
  | .collect vs _ => vs.map Chain.pushing
  | .collectRange start stop _ => (Chain.range start stop).map Chain.pushing

end LinesAndLists
