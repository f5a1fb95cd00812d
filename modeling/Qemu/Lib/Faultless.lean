import Qemu.Lib.Prog

/-!
# Programs without faults

Where an access outside a buffer is an error of the program, `Faultless tolerated program state
post` says that the program ends, that every error it stops with is a tolerated one, and that a
normal return satisfies `post`.  A program may still leave the process.
-/

namespace Qemu.Prog

variable {σ ε α β : Type} {tolerated : ε → Prop} {state : σ} {post : α → σ → Prop}
variable {program : Prog σ ε α}

/-- The program ends, its errors are tolerated, and every normal return satisfies `post`. -/
def Faultless (tolerated : ε → Prop) (program : Prog σ ε α) (state : σ) (post : α → σ → Prop) : Prop :=
  match program state with
  | (.ok value, after) => post value after
  | (.error code, _) => tolerated code
  | (.abort, _) => True
  | (.hang, _) => False

theorem faultless_of_run {value : α} {after : σ} (run : program state = (.ok value, after)) :
    Faultless tolerated program state post ↔ post value after := by
  rw [Faultless, run]

theorem faultless_of_failure {program : Prog σ ε α} {code : ε} {after : σ}
    (failed : program state = (.error code, after)) :
    Faultless tolerated program state post ↔ tolerated code := by
  rw [Faultless, failed]

theorem Faultless.not_hang (faultless : Faultless tolerated program state post) :
    (program state).1 ≠ .hang := by
  intro hang
  have run : program state = (.hang, (program state).2) := Prod.ext hang rfl
  rwa [Faultless, run] at faultless

theorem Faultless.imp {post weaker : α → σ → Prop} {more : ε → Prop}
    (faultless : Faultless tolerated program state post)
    (widen : ∀ code, tolerated code → more code)
    (weaken : ∀ value after, post value after → weaker value after) :
    Faultless more program state weaker := by
  revert faultless
  unfold Faultless
  match program state with
  | (.ok value, after) => exact weaken value after
  | (.error code, _) => exact widen code
  | (.abort, _) | (.hang, _) => exact id

theorem Faultless.mono {post weaker : α → σ → Prop}
    (faultless : Faultless tolerated program state post)
    (weaken : ∀ value after, post value after → weaker value after) :
    Faultless tolerated program state weaker :=
  faultless.imp (fun _ => id) weaken

theorem Faultless.tolerate {more : ε → Prop} (faultless : Faultless tolerated program state post)
    (widen : ∀ code, tolerated code → more code) : Faultless more program state post :=
  faultless.imp widen fun _ _ => id

@[simp] theorem faultless_pure {value : α} :
    Faultless tolerated (pure value : Prog σ ε α) state post ↔ post value state :=
  faultless_of_run rfl

@[simp] theorem faultless_get {post : σ → σ → Prop} :
    Faultless tolerated (get : Prog σ ε σ) state post ↔ post state state :=
  faultless_of_run rfl

@[simp] theorem faultless_modify {update : σ → σ} {post : Unit → σ → Prop} :
    Faultless tolerated (modify update : Prog σ ε Unit) state post ↔ post () (update state) :=
  faultless_of_run rfl

@[simp] theorem faultless_throw {code : ε} :
    Faultless tolerated (throw code : Prog σ ε α) state post ↔ tolerated code :=
  faultless_of_failure rfl

@[simp] theorem faultless_abort : Faultless tolerated (abort : Prog σ ε α) state post := by
  trivial

@[simp] theorem faultless_bind {first : Prog σ ε α} {next : α → Prog σ ε β} {post : β → σ → Prop} :
    Faultless tolerated (first >>= next) state post ↔
      Faultless tolerated first state fun value middle =>
        Faultless tolerated (next value) middle post := by
  unfold Faultless
  rw [bind_apply]
  match first state with
  | (.ok _, _) | (.error _, _) | (.abort, _) | (.hang, _) => exact Iff.rfl

theorem Faultless.ite {cond : Prop} [Decidable cond] {yes no : Prog σ ε α}
    (pos : cond → Faultless tolerated yes state post)
    (neg : ¬ cond → Faultless tolerated no state post) :
    Faultless tolerated (if cond then yes else no) state post := by
  by_cases holds : cond
  · rw [if_pos holds]
    exact pos holds
  · rw [if_neg holds]
    exact neg holds

theorem Faultless.bind {first : Prog σ ε α} {next : α → Prog σ ε β} {middle : α → σ → Prop}
    {post : β → σ → Prop} (head : Faultless tolerated first state middle)
    (rest : ∀ value after, middle value after → Faultless tolerated (next value) after post) :
    Faultless tolerated (first >>= next) state post :=
  faultless_bind.mpr (head.mono rest)

attribute [irreducible] Faultless

end Qemu.Prog
