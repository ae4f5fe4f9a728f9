import LinesAndLists.Proofs.Storing
import Mathlib.Order.Bounds.Basic

/-! The search for a value. It finds the first place of the value in a chain; and since a value
is only ever put in front of a chain, that place belongs to the last turn at which the value was
added. The index is the number of turns since then. -/
namespace LinesAndLists

/-- The places at which a value stands in a sequence, counted from 0. -/
def places (target : Int32) (values : List Int32) : Set Nat := {i | values[i]? = some target}

/-- The turns at which a value is added when a sequence is added value by value, counted
from 1. -/
def turns (target : Int32) (values : List Int32) : Set Nat :=
  {k | 1 ≤ k ∧ values[k - 1]? = some target}

section Places

variable {target : Int32} {values : List Int32} {i k : Nat}

theorem isLeast_places (member : target ∈ values) :
    IsLeast (places target values) (values.idxOf target) := by
  refine ⟨List.getElem?_idxOf member, fun i here => ?_⟩
  by_contra earlier
  obtain ⟨within, found⟩ := List.getElem?_eq_some_iff.1 here
  have other := List.not_of_lt_findIdx (Nat.not_le.1 earlier)
  simp [found] at other

theorem mem_of_mem_places (here : i ∈ places target values) : target ∈ values :=
  List.mem_of_getElem? here

/-- The value added at the turn `k` has one value in front of it for each later turn. -/
theorem mem_turns_iff : k ∈ turns target values ↔
    1 ≤ k ∧ k ≤ values.length ∧ values.length - k ∈ places target values.reverse := by
  by_cases within : 1 ≤ k ∧ k ≤ values.length
  · have mirrored : values.reverse[values.length - k]? = values[k - 1]? :=
      List.getElem?_reverse' (by omega)
    simp [turns, places, mirrored, within]
  -- Before the first turn and after the last one neither side holds.
  · constructor
    · rintro ⟨low, here⟩
      have inside := (List.getElem?_eq_some_iff.1 here).1
      exact absurd ⟨low, by omega⟩ within
    · rintro ⟨low, high, _⟩
      exact absurd ⟨low, high⟩ within

theorem exists_isGreatest_turns (member : target ∈ values) :
    ∃ k, IsGreatest (turns target values) k ∧
      k + values.reverse.idxOf target = values.length := by
  obtain ⟨here, first⟩ := isLeast_places (List.mem_reverse.2 member)
  have inside := (List.getElem?_eq_some_iff.1 here).1
  rw [List.length_reverse] at inside
  -- The first place in the reversed sequence belongs to the last turn.
  refine ⟨values.length - values.reverse.idxOf target, ⟨?_, fun k turn => ?_⟩, by omega⟩
  · rw [mem_turns_iff, Nat.sub_sub_self inside.le]
    exact ⟨by omega, by omega, here⟩
  · obtain ⟨_, high, place⟩ := mem_turns_iff.1 turn
    have := first place
    omega

end Places

namespace Chain

variable {c : Chain} {target : Int32} {i : Nat}

theorem position?_eq_some_iff :
    c.position? target = some i ↔ IsLeast (places target c.toList) i := by
  rw [position?, positionFrom_eq, Nat.zero_add]
  by_cases member : target ∈ c.toList
  · rw [if_pos member, Option.some.injEq]
    exact ⟨fun same => same ▸ isLeast_places member, (isLeast_places member).unique⟩
  · have nowhere : ¬ IsLeast (places target c.toList) i := fun least =>
      member (mem_of_mem_places least.1)
    simp [member, nowhere]

theorem position?_eq_none_iff : c.position? target = none ↔ target ∉ c.toList := by
  simp [position?, positionFrom_eq]

/-- No index is -1, so the two answers of a search cannot be taken for one another. -/
theorem indexOf_eq_natCast_iff : c.indexOf target = i ↔ c.position? target = some i := by
  rw [indexOf]
  cases c.position? target with
  | none => simp
  | some found => simp

theorem indexOf_eq_neg_one_iff : c.indexOf target = -1 ↔ c.position? target = none := by
  rw [indexOf]
  cases c.position? target with
  | none => simp
  | some found => simp

def shifted (v target : Int32) (before : Int) : Int :=
  if v = target then 0 else if before = -1 then -1 else before + 1

theorem firstIndex_cons (v target : Int32) (values : List Int32) :
    firstIndex target (v :: values) = shifted v target (firstIndex target values) := by
  by_cases here : v = target
  · simp [firstIndex, shifted, here]
  · have apart : target ≠ v := Ne.symm here
    by_cases member : target ∈ values
    -- An index is never -1, so the answer of a failed search is not moved by one.
    · have found : (values.idxOf target : Int) ≠ -1 := by omega
      simp [firstIndex, shifted, here, member, found, List.idxOf_cons_ne _ here]
    · simp [firstIndex, shifted, here, apart, member]

theorem indexOf_link (v target : Int32) (rest : Chain) :
    (link v rest).indexOf target = shifted v target (rest.indexOf target) := by
  rw [indexOf_eq, indexOf_eq, toList_link, firstIndex_cons]

/-- The index counts the turns since the value was added last, and is -1 if it never was. -/
def FindsLast (c : Chain) (values : List Int32) : Prop :=
  ∀ target, (target ∉ values ∧ c.indexOf target = -1) ∨
    ∃ k, IsGreatest (turns target values) k ∧ c.indexOf target = values.length - k

theorem findsLast_collect (values : List Int32) : (collect values).FindsLast values := by
  intro target
  have index := indexOf_eq (collect values) target
  rw [toList_collect, firstIndex] at index
  by_cases member : target ∈ values
  · obtain ⟨k, last, counted⟩ := exists_isGreatest_turns member
    rw [if_pos (List.mem_reverse.2 member)] at index
    exact .inr ⟨k, last, by omega⟩
  · rw [if_neg (mt List.mem_reverse.1 member)] at index
    exact .inl ⟨member, index⟩

/-- A value that was added twice is found where it was added last. -/
example : (collect [7, 9, 7, 4]).indexOf 7 = 1 := by decide

/-- A search finds the first place of a value, and fails only if there is none. In a chain that
was built value by value this is the place of the last turn at which the value was added, and
one more value in front moves every other place by one. -/
theorem search_finds_first :
    (∀ (c : Chain) (target : Int32),
      (∀ i, c.position? target = some i ↔ IsLeast (places target c.toList) i) ∧
      (c.position? target = none ↔ target ∉ c.toList) ∧
      (∀ i : Nat, c.indexOf target = i ↔ c.position? target = some i) ∧
      (c.indexOf target = -1 ↔ c.position? target = none)) ∧
    (∀ (s : Store) (values : List Int32) (slot : Slot),
      ((s.run (.clear slot :: values.map (.construct · slot slot))).get slot).FindsLast values ∧
      ((s.run (.clear slot :: values.map (.pushFront · slot))).get slot).FindsLast values ∧
      ((s.apply (.collect values slot)).get slot).FindsLast values) ∧
    ∀ (s : Store) (v target : Int32) (slot other : Slot),
      let before := (s.get slot).indexOf target
      let after := if v = target then 0 else if before = -1 then -1 else before + 1
      ((s.apply (.construct v slot other)).get other).indexOf target = after ∧
        ((s.apply (.pushFront v slot)).get slot).indexOf target = after := by
  refine ⟨fun c target => ⟨fun i => position?_eq_some_iff, position?_eq_none_iff,
    fun i => indexOf_eq_natCast_iff, indexOf_eq_neg_one_iff⟩, fun s values slot => ?_,
    fun s v target slot other => ⟨?_, ?_⟩⟩
  · have collected : ((s.apply (.collect values slot)).get slot).FindsLast values := by
      rw [Store.apply, Store.get_put_same]
      exact findsLast_collect values
    rw [Store.run_clear_constructs, Store.run_clear_pushes]
    exact ⟨collected, collected, collected⟩
  · rw [Store.apply, Store.get_put_same, indexOf_link]
    rfl
  · rw [Store.apply, Store.get_put_same, indexOf_link]
    rfl

end Chain
end LinesAndLists
