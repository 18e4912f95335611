import Mathlib.Data.List.Basic

/-!
# Runs of a step function

A state and a list of events, one step for each event. A run may have to meet a
condition at every step, on the event and on the state it finds; what each such
step keeps holds in every state of such a run.
-/

namespace StepRuns

set_option autoImplicit false

variable {σ ε : Type} {step : σ → ε → σ} {ok : σ → ε → Prop} {I : σ → Prop}

def run (step : σ → ε → σ) (s : σ) (es : List ε) : σ := es.foldl step s

@[simp] theorem run_nil (s : σ) : run step s [] = s := rfl

@[simp] theorem run_cons (s : σ) (e : ε) (es : List ε) :
    run step s (e :: es) = run step (step s e) es := rfl

theorem run_append (s : σ) (es fs : List ε) :
    run step s (es ++ fs) = run step (run step s es) fs := List.foldl_append

/-- Every step of the run meets a condition on the state it finds. -/
def Meets (ok : σ → ε → Prop) (step : σ → ε → σ) : σ → List ε → Prop
  | _, [] => True
  | s, e :: es => ok s e ∧ Meets ok step (step s e) es

instance Meets.decidable [∀ s e, Decidable (ok s e)] :
    (s : σ) → (es : List ε) → Decidable (Meets ok step s es)
  | _, [] => isTrue trivial
  | s, e :: es =>
    have := Meets.decidable (step s e) es
    inferInstanceAs (Decidable (_ ∧ _))

theorem meets_append {s : σ} {es fs : List ε} :
    Meets ok step s (es ++ fs) ↔ Meets ok step s es ∧ Meets ok step (run step s es) fs := by
  induction es generalizing s with
  | nil => simp [Meets]
  | cons e es ih => simp only [List.cons_append, Meets, ih, run_cons, and_assoc]

theorem run_inv_of_meets (hstep : ∀ s e, I s → ok s e → I (step s e)) {s : σ} (es : List ε)
    (hok : Meets ok step s es) (h : I s) : I (run step s es) := by
  induction es generalizing s with
  | nil => exact h
  | cons e es ih => exact ih hok.2 (hstep s e h hok.1)

theorem run_inv (hstep : ∀ s e, I s → I (step s e)) {s : σ} (es : List ε) (h : I s) :
    I (run step s es) := by
  induction es generalizing s with
  | nil => exact h
  | cons e es ih => exact ih (hstep s e h)

end StepRuns
