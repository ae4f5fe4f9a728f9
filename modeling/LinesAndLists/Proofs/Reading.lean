import LinesAndLists.Grid.Point
import LinesAndLists.Proofs.Numerals
import Mathlib.Data.List.DropRight

/-! Which texts are points. Blanks, commas and the characters of numerals do not overlap, so
trimming the parts around the first comma undoes any way of putting blanks around two
numerals. A text that is no point fails at the first of three tests: for a comma, for the
numeral before it, for the numeral behind it. -/
namespace LinesAndLists

namespace Text

def Blank (cs : List Char) : Prop := ∀ c ∈ cs, isBlank c = true

def Tight (cs : List Char) : Prop :=
  (∀ c ∈ cs.head?, isBlank c = false) ∧ ∀ c ∈ cs.getLast?, isBlank c = false

/-- The part `core` of a text is what stands between the blanks at its ends. -/
def Trims (cs core : List Char) : Prop :=
  Tight core ∧ ∃ before after, Blank before ∧ Blank after ∧ cs = before ++ core ++ after

variable {before after cs core : List Char}

theorem Blank.reverse (blank : Blank cs) : Blank cs.reverse :=
  fun c member => blank c (List.mem_reverse.1 member)

theorem comma_not_mem_of_blank (blank : Blank cs) : ',' ∉ cs := fun member =>
  absurd (blank ',' member) (by decide)

theorem trimRight_append (blank : Blank after) (cs : List Char) :
    trimRight (cs ++ after) = trimRight cs := by
  rw [trimRight, List.reverse_append, List.dropWhile_append_of_pos blank.reverse]
  rfl

theorem trimLeft_append (blank : Blank before) (cs : List Char) :
    trimLeft (before ++ cs) = trimLeft cs := List.dropWhile_append_of_pos blank

theorem trim_pad (left : Blank before) (right : Blank after) (cs : List Char) :
    trim (before ++ cs ++ after) = trim cs := by
  rw [trim, List.append_assoc, trimLeft_append left, trimLeft, List.dropWhile_append]
  split
  · rename_i blanks
    have gone : after.dropWhile isBlank = [] := List.dropWhile_eq_nil_iff.2 right
    rw [gone, trim, trimLeft, List.isEmpty_iff.1 blanks]
  · rw [trimRight_append right]
    rfl

theorem trim_of_tight (tight : Tight core) : trim core = core := by
  have left : trimLeft core = core := by
    cases core with
    | nil => rfl
    | cons c cs => exact trimLeft_of_not_isBlank (tight.1 c rfl)
  rw [trim, left]
  rcases List.eq_nil_or_concat core with rfl | ⟨cs, c, rfl⟩
  · rfl
  · rw [List.concat_eq_append] at *
    exact trimRight_of_not_isBlank (tight.2 c (by simp))

theorem isBlank_of_mem_head?_dropWhile {c : Char} (first : c ∈ (cs.dropWhile isBlank).head?) :
    isBlank c = false := by
  have stops := List.head?_dropWhile_not isBlank cs
  rwa [first] at stops

theorem trims_trim (cs : List Char) : Trims cs (trim cs) := by
  have parts : cs.takeWhile isBlank ++ trimLeft cs = cs := List.takeWhile_append_dropWhile
  have ends : trim cs ++ ((trimLeft cs).reverse.takeWhile isBlank).reverse = trimLeft cs := by
    rw [trim, trimRight, ← List.reverse_append, List.takeWhile_append_dropWhile,
      List.reverse_reverse]
  refine ⟨⟨?_, ?_⟩, cs.takeWhile isBlank, ((trimLeft cs).reverse.takeWhile isBlank).reverse,
    fun c => List.mem_takeWhile_imp, fun c member => ?_, ?_⟩
  · intro c first
    have leading : c ∈ (trimLeft cs).head? := by
      rw [← ends, List.head?_append, first]
      rfl
    exact isBlank_of_mem_head?_dropWhile leading
  · intro c last
    rw [trim, trimRight, List.getLast?_reverse] at last
    exact isBlank_of_mem_head?_dropWhile last
  · exact List.mem_takeWhile_imp (List.mem_reverse.1 member)
  · rw [List.append_assoc, ends, parts]

theorem trims_iff : Trims cs core ↔ trim cs = core := by
  constructor
  · rintro ⟨tight, before, after, left, right, rfl⟩
    rw [trim_pad left right, trim_of_tight tight]
  · rintro rfl
    exact trims_trim cs

theorem not_isBlank_of_isDigit {c : Char} (digit : c.isDigit = true) : isBlank c = false := by
  simp only [Char.isDigit, Bool.and_eq_true, decide_eq_true_eq, ge_iff_le,
    UInt32.le_iff_toNat_le] at digit
  have low : 48 ≤ c.toNat := digit.1
  have high : c.toNat ≤ 57 := digit.2
  simp only [isBlank, blankRanges, List.any_cons, List.any_nil, Bool.or_false,
    Bool.or_eq_false_iff, Bool.and_eq_false_iff, decide_eq_false_iff_not]
  omega

end Text

namespace Numeral

variable {cs : List Char} {c : Char} {n : Int}

def isMark (c : Char) : Bool := c.isDigit || c == '+' || c == '-'

theorem isMark_of_mem_denotes (denotes : Denotes cs n) (member : c ∈ cs) : isMark c = true := by
  cases denotes with
  | bare digits => simp [isMark, digits.2 c member]
  | plus digits =>
    rcases List.mem_cons.1 member with rfl | later
    · rfl
    · simp [isMark, digits.2 c later]
  | minus digits =>
    rcases List.mem_cons.1 member with rfl | later
    · rfl
    · simp [isMark, digits.2 c later]

theorem not_isBlank_of_isMark (mark : isMark c = true) : Text.isBlank c = false := by
  simp only [isMark, Bool.or_eq_true, beq_iff_eq] at mark
  rcases mark with (digit | rfl) | rfl
  · exact Text.not_isBlank_of_isDigit digit
  · rfl
  · rfl

theorem tight_of_denotes (denotes : Denotes cs n) : Text.Tight cs :=
  ⟨fun _ first =>
      not_isBlank_of_isMark (isMark_of_mem_denotes denotes (List.mem_of_mem_head? first)),
    fun _ last =>
      not_isBlank_of_isMark (isMark_of_mem_denotes denotes (List.mem_of_mem_getLast? last))⟩

theorem word32_holds_zero : Range.word32.Holds 0 := by decide

theorem word32_holds (x : Int32) : Range.word32.Holds x.toInt := by
  have low := x.le_toInt
  have high := x.toInt_lt
  simp only [Range.Holds, Range.word32]
  omega

theorem comma_not_mem_of_denotes (denotes : Denotes cs n) : ',' ∉ cs := fun member =>
  absurd (isMark_of_mem_denotes denotes member) (by decide)

end Numeral

namespace Point

open Numeral Text

variable {cs left right : List Char} {text : String} {fault : Numeral.Fault} {p : Point}

theorem readCoordinate_eq_ok_iff {x : Int32} :
    readCoordinate cs = .ok x ↔ Denotes cs x.toInt := by
  rw [readCoordinate]
  constructor
  · intro came
    cases scanned : Numeral.read .word32 cs with
    | error fault => simp [scanned, Except.map] at came
    | ok n =>
      obtain ⟨denotes, low, high⟩ := (read_eq_ok_iff word32_holds_zero).1 scanned
      simp only [Range.word32] at low high
      rw [scanned, Except.map, Except.ok.injEq] at came
      rw [← came, Int32.toInt_ofInt_of_le (by omega) (by omega)]
      exact denotes
  · intro denotes
    rw [read_of_denotes word32_holds_zero denotes (word32_holds x), Except.map, Int32.ofInt_toInt]

theorem readCoordinate_cases (cs : List Char) :
    (InRange .word32 cs ∧ ∃ x, readCoordinate cs = .ok x) ∨
      (¬ InRange .word32 cs ∧ readCoordinate cs = .error (faultIn .word32 cs)) := by
  by_cases good : InRange .word32 cs
  · obtain ⟨n, denotes, within⟩ := good
    left
    rw [readCoordinate, read_of_denotes word32_holds_zero denotes within]
    exact ⟨⟨n, denotes, within⟩, Int32.ofInt n, rfl⟩
  · right
    rw [readCoordinate, read_of_not_inRange word32_holds_zero good]
    exact ⟨good, rfl⟩

section Parts

variable (parts : text.toList = left ++ ',' :: right) (first : ',' ∉ left)
include parts first

theorem read_eq_ok_iff : read text = .ok p ↔
    Denotes (trim left) p.x.toInt ∧ Denotes (trim right) p.y.toInt := by
  rw [read, parts, cut?_append right first, ← readCoordinate_eq_ok_iff, ← readCoordinate_eq_ok_iff]
  dsimp only
  cases readCoordinate (trim left) with
  | error fault => simp
  | ok x =>
    cases readCoordinate (trim right) with
    | error fault => simp
    | ok y =>
      cases p
      simp

theorem read_eq_invalidX_iff {t : String} : read text = .error (.invalidX t fault) ↔
    ¬ InRange .word32 (trim left) ∧ t = String.ofList (trim left) ∧
      fault = faultIn .word32 (trim left) := by
  rw [read, parts, cut?_append right first]
  dsimp only
  rcases readCoordinate_cases (trim left) with ⟨good, x, came⟩ | ⟨bad, came⟩
  · rw [came]
    dsimp only
    cases readCoordinate (trim right) <;> simp [good]
  · simp [came, bad, eq_comm]

theorem read_eq_invalidY_iff {t : String} : read text = .error (.invalidY t fault) ↔
    InRange .word32 (trim left) ∧ ¬ InRange .word32 (trim right) ∧
      t = String.ofList (trim right) ∧ fault = faultIn .word32 (trim right) := by
  rw [read, parts, cut?_append right first]
  dsimp only
  rcases readCoordinate_cases (trim left) with ⟨goodX, x, cameX⟩ | ⟨badX, cameX⟩
  · rw [cameX]
    dsimp only
    rcases readCoordinate_cases (trim right) with ⟨goodY, y, cameY⟩ | ⟨badY, cameY⟩
    · simp [cameY, goodY]
    · simp [cameY, goodX, badY, eq_comm]
  · simp [cameX, badX]

/-- Blanks around either part make no difference to what comes of a text. -/
theorem read_pad {w1 w2 w3 w4 : List Char} (b1 : Blank w1) (b2 : Blank w2) (b3 : Blank w3)
    (b4 : Blank w4) :
    read (String.ofList (w1 ++ left ++ w2 ++ ',' :: (w3 ++ right ++ w4))) = read text := by
  have padded : ',' ∉ w1 ++ left ++ w2 := by
    simp [comma_not_mem_of_blank b1, comma_not_mem_of_blank b2, first]
  rw [read, read, parts, cut?_append right first, String.toList_ofList, cut?_append _ padded]
  dsimp only
  rw [trim_pad b1 b2, trim_pad b3 b4]

theorem read_ne_missingSeparator (t : String) : read text ≠ .error (.missingSeparator t) := by
  rw [read, parts, cut?_append right first]
  dsimp only
  cases readCoordinate (trim left) with
  | error fault => simp
  | ok x => cases readCoordinate (trim right) <;> simp

end Parts

theorem read_eq_missingSeparator {t : String} :
    read text = .error (.missingSeparator t) ↔ t = text ∧ ',' ∉ text.toList := by
  by_cases comma : ',' ∈ text.toList
  · obtain ⟨left, right, parts, first⟩ := List.eq_append_cons_of_mem comma
    simp [read_ne_missingSeparator parts first t, comma]
  · rw [read_eq_missingSeparator_iff.2 comma]
    simp [comma, eq_comm]

/-- The texts that are read as a point: a numeral on either side of a comma, and blanks
around each of them. -/
theorem read_accepts (text : String) (x y : Int32) : read text = .ok ⟨x, y⟩ ↔
    ∃ w1 a w2 w3 b w4 : List Char,
      text.toList = w1 ++ a ++ w2 ++ ',' :: (w3 ++ b ++ w4) ∧
      (Blank w1 ∧ Blank w2 ∧ Blank w3 ∧ Blank w4) ∧
      Denotes a x.toInt ∧ Denotes b y.toInt := by
  constructor
  · intro came
    by_cases comma : ',' ∈ text.toList
    · obtain ⟨left, right, parts, first⟩ := List.eq_append_cons_of_mem comma
      obtain ⟨a, b⟩ := (read_eq_ok_iff parts first).1 came
      obtain ⟨-, w1, w2, b1, b2, leftParts⟩ := trims_trim left
      obtain ⟨-, w3, w4, b3, b4, rightParts⟩ := trims_trim right
      refine ⟨w1, trim left, w2, w3, trim right, w4, ?_, ⟨b1, b2, b3, b4⟩, a, b⟩
      rw [← leftParts, ← rightParts, parts]
    · rw [read_eq_missingSeparator_iff.2 comma] at came
      contradiction
  · rintro ⟨w1, a, w2, w3, b, w4, parts, ⟨b1, b2, b3, b4⟩, left, right⟩
    have first : ',' ∉ w1 ++ a ++ w2 := by
      simp [comma_not_mem_of_blank b1, comma_not_mem_of_blank b2, comma_not_mem_of_denotes left]
    rw [read_eq_ok_iff parts first, trim_pad b1 b2, trim_pad b3 b4,
      trim_of_tight (tight_of_denotes left), trim_of_tight (tight_of_denotes right)]
    exact ⟨left, right⟩

/-- The texts that are not read as a point, and what is said about them. -/
theorem read_rejects (text : String) :
    (∀ t, read text = .error (.missingSeparator t) ↔ t = text ∧ ',' ∉ text.toList) ∧
      ∀ left right, text.toList = left ++ ',' :: right → ',' ∉ left →
        (∀ l r, Trims left l → Trims right r → ∀ t fault,
          (read text = .error (.invalidX t fault) ↔ ¬ InRange .word32 l ∧
            t = String.ofList l ∧ fault = faultIn .word32 l) ∧
          (read text = .error (.invalidY t fault) ↔ InRange .word32 l ∧ ¬ InRange .word32 r ∧
            t = String.ofList r ∧ fault = faultIn .word32 r)) ∧
        ∀ w1 w2 w3 w4, Blank w1 → Blank w2 → Blank w3 → Blank w4 →
          read (String.ofList (w1 ++ left ++ w2 ++ ',' :: (w3 ++ right ++ w4))) = read text := by
  refine ⟨fun t => read_eq_missingSeparator, fun left right parts first => ⟨?_, ?_⟩⟩
  · intro l r trimsL trimsR t fault
    rw [← trims_iff.1 trimsL, ← trims_iff.1 trimsR]
    exact ⟨read_eq_invalidX_iff parts first, read_eq_invalidY_iff parts first⟩
  · intro w1 w2 w3 w4 b1 b2 b3 b4
    exact read_pad parts first b1 b2 b3 b4

/-- Digits that lead outside the range hide the letter behind them, and the text is cut at
the first of two commas. -/
theorem read_rejects_overflow :
    let text := " 2147483648x ,,"
    let l := "2147483648x".toList
    read text = .error (.invalidX "2147483648x" .tooLarge) ∧ ¬ InRange .word32 l ∧
      Numeral.Fault.tooLarge = faultIn .word32 l := by
  intro text l
  have came : read text = .error (.invalidX "2147483648x" .tooLarge) := by decide +kernel
  have told := ((read_rejects text).2 " 2147483648x ".toList [','] (by decide +kernel)
    (by decide +kernel)).1 l [','] (trims_iff.2 (by decide +kernel))
    (trims_iff.2 (by decide +kernel)) "2147483648x" .tooLarge
  obtain ⟨bad, -, fault⟩ := told.1.1 came
  exact ⟨came, bad, fault⟩

end Point
end LinesAndLists
