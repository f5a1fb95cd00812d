import Mathlib

/-!
# What holds along a run

A condition holds at every state of a run exactly if no operation of the run breaks it.
-/

namespace Qemu

variable {σ ω : Type} {step : σ → ω → σ} {holds : σ → Prop} {breaks : σ → ω → Prop} {s : σ}

/-- The condition holds before the run and after each of its operations. -/
def Always (step : σ → ω → σ) (holds : σ → Prop) : σ → List ω → Prop
  | s, [] => holds s
  | s, op :: ops => holds s ∧ Always step holds (step s op) ops

/-- No operation breaks the state that it starts from. -/
def Avoids (step : σ → ω → σ) (breaks : σ → ω → Prop) : σ → List ω → Prop
  | _, [] => True
  | s, op :: ops => ¬breaks s op ∧ Avoids step breaks (step s op) ops

theorem Always.now {ops : List ω} (always : Always step holds s ops) : holds s := by
  cases ops with
  | nil => exact always
  | cons op ops => exact always.1

theorem always_iff_avoids (one : ∀ s op, holds s → (holds (step s op) ↔ ¬breaks s op))
    (initial : holds s) (ops : List ω) : Always step holds s ops ↔ Avoids step breaks s ops := by
  induction ops generalizing s with
  | nil => exact iff_of_true initial trivial
  | cons op ops ih =>
    by_cases next : holds (step s op)
    · exact and_congr (iff_of_true initial ((one s op initial).mp next)) (ih next)
    · exact iff_of_false (fun always => next always.2.now) fun avoids =>
        next ((one s op initial).mpr avoids.1)

end Qemu
