import LinesAndLists.Proofs.Reading

/-! Writing beside reading. The numeral written for an integer denotes it, so the display
form of a point is one of the texts that are read as it; and since one form is written for
each point, reading a text and writing it again brings all its spellings to the same one. -/
namespace LinesAndLists

namespace Numeral

theorem value_eq_ofDigitChars (ds : List Char) : value ds = Nat.ofDigitChars 10 ds 0 := by
  induction ds using List.reverseRecOn with
  | nil => rfl
  | append_singleton ds d ih =>
    simp only [value_concat, ih, Nat.ofDigitChars_append, Nat.ofDigitChars_cons,
      Nat.ofDigitChars_nil]

theorem value_digits (n : Nat) : value (digits n) = n :=
  (value_eq_ofDigitChars _).trans Nat.ofDigitChars_ten_toDigits

theorem digits_digits (n : Nat) : Digits (digits n) :=
  ⟨digits_ne_nil n, fun _ => isDigit_of_mem_digits⟩

theorem denotes_write (n : Int) : Denotes (write n) n := by
  -- The digits are those of a natural number, so the least integer of a range is no exception.
  have size := value_digits n.natAbs
  by_cases negative : n < 0
  · have denotes := Denotes.minus (digits_digits n.natAbs)
    have same : -(value (digits n.natAbs) : Int) = n := by omega
    rw [same] at denotes
    simpa only [write, negative, if_true] using denotes
  · have denotes := Denotes.bare (digits_digits n.natAbs)
    have same : (value (digits n.natAbs) : Int) = n := by omega
    rw [same] at denotes
    simpa only [write, negative, if_false] using denotes

end Numeral

namespace Point

open Numeral Text

def respell (text : String) : Except ReadError String := (read text).map display

theorem toList_display (p : Point) :
    p.display.toList = write p.x.toInt ++ ',' :: ' ' :: write p.y.toInt := by
  simp [display, pieces, Numeral.text]

theorem read_display (p : Point) : read p.display = .ok p := by
  have x := denotes_write p.x.toInt
  have y := denotes_write p.y.toInt
  have left : trim (write p.x.toInt) = write p.x.toInt := trim_of_tight (tight_of_denotes x)
  have right : trim (' ' :: write p.y.toInt) = write p.y.toInt := by
    -- The blank behind the comma is all that there is to trim.
    have blank : Blank [' '] := by
      intro c member
      rw [List.mem_singleton.1 member]
      rfl
    have padded := trim_pad blank (List.forall_mem_nil _) (write p.y.toInt)
    simpa [trim_of_tight (tight_of_denotes y)] using padded
  apply (read_eq_ok_iff (toList_display p) (comma_not_mem_of_denotes x)).2
  rw [left, right]
  exact ⟨x, y⟩

theorem display_injective {p q : Point} (same : p.display = q.display) : p = q := by
  have reread := congrArg read same
  simpa only [read_display, Except.ok.injEq] using reread

theorem respell_of_read {text : String} {p : Point} (came : read text = .ok p) :
    respell text = .ok p.display := by
  rw [respell, came]
  rfl

/-- Reading undoes writing, for every point. A text that is read as a point is written
again as the display form of that point, which stays as it is from then on; two such texts
are written alike exactly if they are read as the same point. -/
theorem read_display_canonical :
    (∀ p : Point, read p.display = .ok p) ∧
      (∀ text p, read text = .ok p →
        respell text = .ok p.display ∧ respell p.display = .ok p.display) ∧
      ∀ s t p q, read s = .ok p → read t = .ok q → (respell s = respell t ↔ p = q) := by
  refine ⟨read_display, ?_, ?_⟩
  · intro text p came
    exact ⟨respell_of_read came, respell_of_read (read_display p)⟩
  · intro s t p q first second
    rw [respell_of_read first, respell_of_read second, Except.ok.injEq]
    constructor
    · exact display_injective
    · exact congrArg display

/-- Signs, zeros in front and blanks make another spelling, but no other point. -/
theorem read_display_canonical_least :
    let p : Point := ⟨-2147483648, 0⟩
    read "\t-002147483648 , +0" = .ok p ∧ read "-2147483648,-0" = .ok p ∧
      respell "\t-002147483648 , +0" = .ok "-2147483648, 0" ∧
      respell "\t-002147483648 , +0" = respell "-2147483648,-0" := by
  intro p
  have first : read "\t-002147483648 , +0" = .ok p := by decide +kernel
  have second : read "-2147483648,-0" = .ok p := by decide +kernel
  have written : p.display = "-2147483648, 0" := by decide +kernel
  obtain ⟨_, canonical, alike⟩ := read_display_canonical
  exact ⟨first, second, written ▸ (canonical _ p first).1, (alike _ _ p p first second).2 rfl⟩

end Point
end LinesAndLists
