/-! Cutting a text at a separator. The separator belongs to neither part, and only
its first occurrence counts. -/
namespace LinesAndLists.Text

/-- The parts of a text before and after the first occurrence of a separator. -/
def cut? (separator : Char) : List Char → Option (List Char × List Char)
  | [] => none
  | c :: cs =>
    if c = separator then some ([], cs)
    else (cut? separator cs).map fun (before, after) => (c :: before, after)

theorem cut?_append {separator : Char} {before : List Char} (after : List Char)
    (h : separator ∉ before) : cut? separator (before ++ separator :: after) = some (before, after) := by
  induction before with
  | nil => simp [cut?]
  | cons c cs ih =>
    have hc : c ≠ separator := fun e => h (by simp [e])
    have ht : separator ∉ cs := fun m => h (by simp [m])
    simp [cut?, hc, ih ht]

theorem cut?_eq_none_iff {separator : Char} {cs : List Char} :
    cut? separator cs = none ↔ separator ∉ cs := by
  induction cs with
  | nil => simp [cut?]
  | cons c cs ih =>
    by_cases hc : c = separator
    · simp [cut?, hc]
    · simp [cut?, hc, ih, Ne.symm hc]

end LinesAndLists.Text
