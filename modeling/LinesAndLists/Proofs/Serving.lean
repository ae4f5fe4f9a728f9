import Mathlib.Data.List.Basic

/-! A state that answers requests, one after the other. Requests, answers and states are of any
kind: points asked of a line at either end, requests of all kinds made of a line or of a queue,
and calls to the traversals of a chain. -/
namespace LinesAndLists

variable {σ τ ρ ρ' α : Type}

/-- The answers to requests made one after the other, and the state left. -/
def serve (answer : σ → ρ → α × σ) : List ρ → σ → List α × σ
  | [], s => ([], s)
  | r :: requests, s =>
    let (a, s) := answer s r
    let (rest, s) := serve answer requests s
    (a :: rest, s)

def answersTo [DecidableEq ρ] (answer : σ → ρ → α × σ) (r : ρ) (requests : List ρ) (s : σ) :
    List α :=
  (requests.zip (serve answer requests s).1).filterMap fun (asked, a) =>
    if asked = r then some a else none

theorem serve_cons (answer : σ → ρ → α × σ) (r : ρ) (requests : List ρ) (s : σ) :
    serve answer (r :: requests) s =
      ((answer s r).1 :: (serve answer requests (answer s r).2).1,
        (serve answer requests (answer s r).2).2) := rfl

theorem answersTo_cons [DecidableEq ρ] (answer : σ → ρ → α × σ) (r asked : ρ) (requests : List ρ)
    (s : σ) : answersTo answer r (asked :: requests) s =
      (if asked = r then [(answer s asked).1] else []) ++
        answersTo answer r requests (answer s asked).2 := by
  by_cases same : asked = r <;> simp [answersTo, serve_cons, same]

/-- Two states that answer alike to each request and stay related by it answer alike to all
requests. The second may be asked in words of its own. -/
theorem serve_related {answer : σ → ρ → α × σ} {answer' : τ → ρ' → α × τ} {word : ρ → ρ'}
    {Related : σ → τ → Prop}
    (step : ∀ s t r, Related s t → (answer s r).1 = (answer' t (word r)).1 ∧
      Related (answer s r).2 (answer' t (word r)).2)
    {s : σ} {t : τ} (related : Related s t) (requests : List ρ) :
    (serve answer requests s).1 = (serve answer' (requests.map word) t).1 ∧
      Related (serve answer requests s).2 (serve answer' (requests.map word) t).2 := by
  induction requests generalizing s t with
  | nil => exact ⟨rfl, related⟩
  | cons r requests ih =>
    obtain ⟨came, next⟩ := step s t r related
    obtain ⟨later, final⟩ := ih next
    rw [List.map_cons, serve_cons, serve_cons, came, later]
    exact ⟨rfl, final⟩

end LinesAndLists
