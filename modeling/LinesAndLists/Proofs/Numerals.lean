import LinesAndLists.Numeral
import Mathlib.Data.List.Infix
import Mathlib.Data.Nat.Digits.Defs
import Mathlib.Tactic.Ring

/-! Which texts are numerals, and why the others are not. The grammar and the place values
are written down without a scan; the scan from left to right then accepts the numerals of
the range, and at the first digit that leaves the range it no longer matters what follows. -/
namespace LinesAndLists.Numeral

/-- One decimal digit at least, and nothing else. -/
def Digits (ds : List Char) : Prop := ds ≠ [] ∧ ∀ d ∈ ds, d.isDigit = true

/-- The number that digits denote by their places, the last of which is that of the units. -/
def value (ds : List Char) : Nat :=
  Nat.ofDigits 10 (ds.map fun d => d.toNat - '0'.toNat).reverse

/-- The numerals with the integers they denote. -/
inductive Denotes : List Char → Int → Prop where
  | bare {ds : List Char} (digits : Digits ds) : Denotes ds (value ds)
  | plus {ds : List Char} (digits : Digits ds) : Denotes ('+' :: ds) (value ds)
  | minus {ds : List Char} (digits : Digits ds) : Denotes ('-' :: ds) (-value ds)

def InRange (range : Range) (cs : List Char) : Prop := ∃ n, Denotes cs n ∧ range.Holds n

/-- Some digits in front denote a number outside the range. -/
def Overruns (range : Range) (sign : Sign) (ds : List Char) : Prop :=
  ∃ part ∈ ds.inits, (∀ d ∈ part, d.isDigit = true) ∧ ¬ range.Holds (sign.apply (value part))

/-- Some digits in front lead outside the range when the digits `before` precede them. -/
def OverrunsAfter (range : Range) (sign : Sign) (before ds : List Char) : Prop :=
  ∃ part ∈ ds.inits, (∀ d ∈ part, d.isDigit = true) ∧
    ¬ range.Holds (sign.apply (value (before ++ part)))

instance (range : Range) (sign : Sign) (ds : List Char) : Decidable (Overruns range sign ds) :=
  inferInstanceAs (Decidable (∃ part ∈ ds.inits, _))

instance (range : Range) (sign : Sign) (before ds : List Char) :
    Decidable (OverrunsAfter range sign before ds) :=
  inferInstanceAs (Decidable (∃ part ∈ ds.inits, _))

/-- What is wrong with the digits of a text that is no numeral of the range; `outside` is
for those that lead out of it, whatever follows. -/
def faultOfDigits (range : Range) (sign : Sign) (outside : Fault) (ds : List Char) : Fault :=
  if ds = [] then .invalidDigit
  else if Overruns range sign ds then outside
  else .invalidDigit

def faultIn (range : Range) : List Char → Fault
  | [] => .empty
  | '+' :: ds => faultOfDigits range .plus .tooLarge ds
  | '-' :: ds => faultOfDigits range .minus .tooSmall ds
  | ds => faultOfDigits range .plus .tooLarge ds

variable {range : Range} {sign : Sign} {cs ds before part : List Char} {d : Char} {n : Int}

theorem value_concat (ds : List Char) (d : Char) :
    value (ds ++ [d]) = 10 * value ds + (d.toNat - '0'.toNat) := by
  simp only [value, List.map_append, List.map_cons, List.map_nil, List.reverse_append,
    List.reverse_singleton, List.singleton_append, Nat.ofDigits_cons]
  ring

theorem apply_concat (sign : Sign) (ds : List Char) (d : Char) :
    sign.apply (value (ds ++ [d])) =
      10 * sign.apply (value ds) + sign.apply (d.toNat - '0'.toNat : Nat) := by
  cases sign <;> simp only [Sign.apply, value_concat] <;> push_cast <;> ring

theorem value_le_append (part rest : List Char) : value part ≤ value (part ++ rest) := by
  simp only [value, List.map_append, List.reverse_append, Nat.ofDigits_append]
  exact Nat.le_add_left_of_le (Nat.le_mul_of_pos_left _ (Nat.pow_pos (by decide)))

theorem holds_of_le {small large : Nat} (zero : range.Holds 0)
    (within : range.Holds (sign.apply large)) (le : small ≤ large) :
    range.Holds (sign.apply small) := by
  simp only [Range.Holds] at *
  cases sign <;> simp only [Sign.apply] at * <;> omega

theorem not_overruns_iff (zero : range.Holds 0) (digits : ∀ d ∈ ds, d.isDigit = true) :
    ¬ Overruns range sign ds ↔ range.Holds (sign.apply (value ds)) := by
  constructor
  -- Further digits never make a number smaller, so the whole text decides for all its beginnings.
  · intro never
    by_contra outside
    exact never ⟨ds, (List.mem_inits ds ds).2 List.prefix_rfl, digits, outside⟩
  · rintro within ⟨part, member, -, outside⟩
    obtain ⟨rest, rfl⟩ := (List.mem_inits part ds).1 member
    exact outside (holds_of_le zero within (value_le_append part rest))

theorem not_overrunsAfter_nil (within : range.Holds (sign.apply (value before))) :
    ¬ OverrunsAfter range sign before [] := by
  simp [OverrunsAfter, within]

theorem overrunsAfter_cons (within : range.Holds (sign.apply (value before))) :
    OverrunsAfter range sign before (d :: ds) ↔
      d.isDigit = true ∧ OverrunsAfter range sign (before ++ [d]) ds := by
  simp only [OverrunsAfter, List.inits_cons, List.mem_cons, List.mem_map, List.append_assoc,
    List.singleton_append]
  constructor
  · rintro ⟨part, rfl | ⟨rest, member, rfl⟩, digits, outside⟩
    · exact absurd within (by simpa using outside)
    · exact ⟨digits d List.mem_cons_self, rest, member,
        fun e inside => digits e (List.mem_cons_of_mem d inside), outside⟩
  · rintro ⟨digit, rest, member, digits, outside⟩
    exact ⟨d :: rest, .inr ⟨rest, member, rfl⟩, List.forall_mem_cons.2 ⟨digit, digits⟩, outside⟩

theorem overrunsAfter_of_not_holds (outside : ¬ range.Holds (sign.apply (value before)))
    (ds : List Char) : OverrunsAfter range sign before ds :=
  ⟨[], (List.mem_inits [] ds).2 List.nil_prefix, by simp, by simpa using outside⟩

theorem readDigits_cons (d : Char) (ds : List Char) :
    readDigits range sign (sign.apply (value before)) (d :: ds) =
      if d.isDigit = true then
        if range.Holds (sign.apply (value (before ++ [d]))) then
          readDigits range sign (sign.apply (value (before ++ [d]))) ds
        else .error sign.overflow
      else .error .invalidDigit := by
  by_cases digit : d.isDigit = true
  · rw [if_pos digit, apply_concat]
    simp only [readDigits, digit?, if_pos digit]
  · rw [if_neg digit]
    simp only [readDigits, digit?, if_neg digit]

theorem readDigits_eq (ds : List Char) (within : range.Holds (sign.apply (value before))) :
    readDigits range sign (sign.apply (value before)) ds =
      if OverrunsAfter range sign before ds then .error sign.overflow
      else if ds.all Char.isDigit = true then .ok (sign.apply (value (before ++ ds)))
      else .error .invalidDigit := by
  -- The scan stops at the first digit that leads outside or at the first other character; the
  -- digits it has passed are kept in `before`.
  induction ds generalizing before with
  | nil =>
    rw [if_neg (not_overrunsAfter_nil within), if_pos List.all_nil, List.append_nil]
    rfl
  | cons d ds ih =>
    rw [readDigits_cons]
    simp only [overrunsAfter_cons within, List.all_cons, Bool.and_eq_true]
    by_cases digit : d.isDigit = true
    · simp only [digit, if_true, true_and]
      by_cases inside : range.Holds (sign.apply (value (before ++ [d])))
      · rw [if_pos inside, ih inside, List.append_assoc, List.singleton_append]
      · rw [if_neg inside, if_pos (overrunsAfter_of_not_holds inside ds)]
    · simp only [digit, Bool.false_eq_true, if_false, false_and]

theorem splitSign_of_digits (digits : Digits ds) : splitSign ds = (.plus, ds) := by
  have all := digits.2
  unfold splitSign
  split
  · exact absurd (all '+' List.mem_cons_self) (by decide)
  · exact absurd (all '-' List.mem_cons_self) (by decide)
  · rfl

theorem denotes_iff : Denotes cs n ↔
    Digits (splitSign cs).2 ∧ n = (splitSign cs).1.apply (value (splitSign cs).2) := by
  constructor
  · intro denotes
    cases denotes with
    | bare digits =>
      rw [splitSign_of_digits digits]
      exact ⟨digits, rfl⟩
    | plus digits => exact ⟨digits, rfl⟩
    | minus digits => exact ⟨digits, rfl⟩
  · rintro ⟨digits, rfl⟩
    unfold splitSign at digits ⊢
    split at digits
    · exact .plus digits
    · exact .minus digits
    · exact .bare digits

theorem inRange_iff : InRange range cs ↔ Digits (splitSign cs).2 ∧
    range.Holds ((splitSign cs).1.apply (value (splitSign cs).2)) := by
  simp only [InRange, denotes_iff]
  constructor
  · rintro ⟨n, ⟨digits, rfl⟩, within⟩
    exact ⟨digits, within⟩
  · rintro ⟨digits, within⟩
    exact ⟨_, ⟨digits, rfl⟩, within⟩

theorem apply_value_nil (sign : Sign) : sign.apply (value []) = 0 := by cases sign <;> rfl

theorem read_of_ne_nil (nonempty : (splitSign cs).2 ≠ []) (zero : range.Holds 0) : read range cs =
    if Overruns range (splitSign cs).1 (splitSign cs).2 then .error (splitSign cs).1.overflow
    else if (splitSign cs).2.all Char.isDigit = true then
      .ok ((splitSign cs).1.apply (value (splitSign cs).2))
    else .error .invalidDigit := by
  have text : cs ≠ [] := by
    rintro rfl
    exact nonempty rfl
  have scanned := @readDigits_eq range (splitSign cs).1 [] (splitSign cs).2
    (by rwa [apply_value_nil])
  rw [apply_value_nil] at scanned
  rw [read, if_neg (by simpa using text)]
  dsimp only
  rw [if_neg (by simpa using nonempty)]
  exact scanned

theorem read_of_denotes (zero : range.Holds 0) (denotes : Denotes cs n) (within : range.Holds n) :
    read range cs = .ok n := by
  obtain ⟨⟨nonempty, digits⟩, rfl⟩ := denotes_iff.1 denotes
  rw [read_of_ne_nil nonempty zero, if_neg ((not_overruns_iff zero digits).2 within),
    if_pos (List.all_eq_true.2 digits)]

theorem faultIn_of_ne_nil (text : cs ≠ []) : faultIn range cs =
    faultOfDigits range (splitSign cs).1 (splitSign cs).1.overflow (splitSign cs).2 := by
  unfold faultIn splitSign
  split <;> simp_all [Sign.overflow]

theorem read_of_not_inRange (zero : range.Holds 0) (bad : ¬ InRange range cs) :
    read range cs = .error (faultIn range cs) := by
  by_cases text : cs = []
  · rw [text]
    rfl
  rw [faultIn_of_ne_nil text, faultOfDigits]
  by_cases bare : (splitSign cs).2 = []
  · rw [if_pos bare, read, if_neg (by simpa using text)]
    dsimp only
    rw [if_pos (by simpa using bare)]
  rw [if_neg bare, read_of_ne_nil bare zero]
  by_cases leaves : Overruns range (splitSign cs).1 (splitSign cs).2
  · rw [if_pos leaves, if_pos leaves]
  · rw [if_neg leaves, if_neg leaves, if_neg]
    intro all
    have digits := List.all_eq_true.1 all
    exact bad (inRange_iff.2 ⟨⟨bare, digits⟩, (not_overruns_iff zero digits).1 leaves⟩)

theorem read_eq_ok_iff (zero : range.Holds 0) :
    read range cs = .ok n ↔ Denotes cs n ∧ range.Holds n := by
  constructor
  · intro came
    by_cases good : InRange range cs
    · obtain ⟨m, denotes, within⟩ := good
      rw [read_of_denotes zero denotes within, Except.ok.injEq] at came
      exact came ▸ ⟨denotes, within⟩
    · rw [read_of_not_inRange zero good] at came
      contradiction
  · rintro ⟨denotes, within⟩
    exact read_of_denotes zero denotes within

end LinesAndLists.Numeral
