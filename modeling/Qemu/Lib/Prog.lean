import Mathlib

/-!
# Fallible state-passing programs

A `Prog σ ε α` is a deterministic computation over a state `σ` which returns a value, returns an
error of type `ε`, aborts the process, or runs forever.  As in C, the state survives an error
return.  The inversion lemmas below take a completed run of a composite program apart into runs of
its parts.
-/

namespace Qemu

variable {bad : Prop}

/-- How a call ends. -/
inductive Outcome (ε α : Type) where
  /-- Normal return. -/
  | ok (value : α)
  /-- Return of an error code. -/
  | error (code : ε)
  /-- Failed assertion or explicit `abort()`. -/
  | abort
  /-- No return at all: the recursion or loop never ends. -/
  | hang
  deriving DecidableEq, Repr

/-- A state transformer with the four C-level outcomes. -/
def Prog (σ ε α : Type) : Type := σ → Outcome ε α × σ

namespace Prog

variable {σ ε α β : Type}

/-- Return a value without touching the state. -/
protected def pure (value : α) : Prog σ ε α := fun state => (.ok value, state)

/-- Run one program and continue with its value. -/
protected def bind (first : Prog σ ε α) (next : α → Prog σ ε β) : Prog σ ε β := fun state =>
  match first state with
  | (.ok value, after) => next value after
  | (.error code, after) => (.error code, after)
  | (.abort, after) => (.abort, after)
  | (.hang, after) => (.hang, after)

instance : Monad (Prog σ ε) where
  pure := Prog.pure
  bind := Prog.bind

def throw (code : ε) : Prog σ ε α := fun state => (.error code, state)

/-- Leave the process through `abort()`. -/
def abort : Prog σ ε α := fun state => (.abort, state)

/-- Never return. -/
def hang : Prog σ ε α := fun state => (.hang, state)

def get : Prog σ ε σ := fun state => (.ok state, state)

def modify (update : σ → σ) : Prog σ ε Unit := fun state => (.ok (), update state)

/-- Run a program and hand its error code, if any, to the caller as a value. -/
def attempt (program : Prog σ ε α) : Prog σ ε (Except ε α) := fun state =>
  match program state with
  | (.ok value, after) => (.ok (.ok value), after)
  | (.error code, after) => (.ok (.error code), after)
  | (.abort, after) => (.abort, after)
  | (.hang, after) => (.hang, after)

/-- Run a program on one component of a larger state. -/
def lift {τ : Type} (view : τ → σ) (put : τ → σ → τ) (program : Prog σ ε α) : Prog τ ε α :=
  fun state =>
    match program (view state) with
    | (outcome, part) => (outcome, put state part)

/-- Compute a value from the state, or fail. -/
def inspect (read : σ → Except ε α) : Prog σ ε α := fun state =>
  match read state with
  | .ok value => (.ok value, state)
  | .error code => (.error code, state)

/-- Return an error code if a condition holds. -/
def throwIf (bad : Prop) [Decidable bad] (code : ε) : Prog σ ε Unit :=
  if bad then throw code else Prog.pure ()

/-- Run a program for every element of a list. -/
def forEach {ι : Type} (program : ι → Prog σ ε Unit) : List ι → Prog σ ε Unit
  | [] => Prog.pure ()
  | i :: rest => Prog.bind (program i) fun _ => forEach program rest

@[simp] theorem pure_apply (value : α) (state : σ) :
    (pure value : Prog σ ε α) state = (.ok value, state) := rfl

@[simp] theorem throw_apply (code : ε) (state : σ) :
    (throw code : Prog σ ε α) state = (.error code, state) := rfl

@[simp] theorem abort_apply (state : σ) : (abort : Prog σ ε α) state = (.abort, state) := rfl

@[simp] theorem hang_apply (state : σ) : (hang : Prog σ ε α) state = (.hang, state) := rfl

@[simp] theorem get_apply (state : σ) : (get : Prog σ ε σ) state = (.ok state, state) := rfl

@[simp] theorem modify_apply (update : σ → σ) (state : σ) :
    (modify update : Prog σ ε Unit) state = (.ok (), update state) := rfl

theorem bind_apply (first : Prog σ ε α) (next : α → Prog σ ε β) (state : σ) :
    (first >>= next) state =
      match first state with
      | (.ok value, after) => next value after
      | (.error code, after) => (.error code, after)
      | (.abort, after) => (.abort, after)
      | (.hang, after) => (.hang, after) := rfl

variable {first program : Prog σ ε α} {next : α → Prog σ ε β} {state after : σ}
  {post : α → σ → Prop}

theorem ok_inj {value result : α}
    (same : ((.ok value, state) : Outcome ε α × σ) = (.ok result, after)) :
    value = result ∧ state = after := by
  simpa using same

variable {value : α}

/-- Continue after a first part whose successful run is known. -/
theorem bind_of_ok (run : first state = (.ok value, after)) :
    (first >>= next) state = next value after := by
  rw [bind_apply, run]

@[simp] theorem get_bind (next : σ → Prog σ ε β) (state : σ) :
    ((get : Prog σ ε σ) >>= next) state = next state state := rfl

@[simp] theorem modify_bind (update : σ → σ) (next : Unit → Prog σ ε β) (state : σ) :
    ((modify update : Prog σ ε Unit) >>= next) state = next () (update state) := rfl

@[simp] theorem pure_bind_apply (value : α) (next : α → Prog σ ε β) (state : σ) :
    ((pure value : Prog σ ε α) >>= next) state = next value state := rfl

variable {code : ε}

theorem throwIf_bind_of [Decidable bad] {next : Unit → Prog σ ε β} (holds : bad) :
    ((throwIf bad code : Prog σ ε Unit) >>= next) state = (.error code, state) := by
  rw [bind_apply, throwIf, if_pos holds]
  rfl

theorem throwIf_bind_of_not [Decidable bad] {next : Unit → Prog σ ε β} (fine : ¬ bad) :
    ((throwIf bad code : Prog σ ε Unit) >>= next) state = next () state := by
  rw [bind_apply, throwIf, if_neg fine]
  rfl

/-- What holds of the state after the first part, and is kept by the second one. -/
theorem bind_state {holds : σ → Prop} (before : holds (first state).2)
    (rest : ∀ value after, holds after → holds (next value after).2) :
    holds ((first >>= next) state).2 := by
  rw [bind_apply]
  rcases run : first state with ⟨value | code | _ | _, after⟩
  all_goals rw [run] at before
  · exact rest value after before
  all_goals exact before

theorem bind_of_error (run : first state = (.error code, after)) :
    (first >>= next) state = (.error code, after) := by
  rw [bind_apply, run]

/-- A first part that never returns keeps the rest from running. -/
theorem bind_of_hang (stuck : (first state).1 = .hang) : ((first >>= next) state).1 = .hang := by
  obtain ⟨after, run⟩ : ∃ after, first state = (.hang, after) :=
    ⟨(first state).2, Prod.ext stuck rfl⟩
  rw [bind_apply, run]

/-- A successful composite run is a successful run of both parts. -/
theorem bind_eq_ok {result : β} :
    (first >>= next) state = (.ok result, after) ↔
      ∃ value middle, first state = (.ok value, middle) ∧
        next value middle = (.ok result, after) := by
  rw [bind_apply]
  constructor
  · intro run
    match firstRun : first state with
    | (.ok value, middle) =>
      rw [firstRun] at run
      exact ⟨value, middle, rfl, run⟩
    | (.error _, _) | (.abort, _) | (.hang, _) => simp [firstRun] at run
  · rintro ⟨value, middle, firstRun, nextRun⟩
    rw [firstRun]
    exact nextRun

theorem attempt_of_ok (run : program state = (.ok value, after)) :
    attempt program state = (.ok (.ok value), after) := by
  rw [attempt, run]

theorem attempt_of_error (run : program state = (.error code, after)) :
    attempt program state = (.ok (.error code), after) := by
  rw [attempt, run]

theorem attempt_eq_ok {result : Except ε α} :
    attempt program state = (.ok result, after) ↔
      (∃ value, result = .ok value ∧ program state = (.ok value, after)) ∨
        ∃ code, result = .error code ∧ program state = (.error code, after) := by
  rw [attempt]
  match run : program state with
  | (.ok _, _) | (.error _, _) => simp [eq_comm]
  | (.abort, _) | (.hang, _) => simp

/-- A lifted program succeeds exactly when the program succeeds on the component. -/
theorem lift_eq_ok {τ : Type} {view : τ → σ} {put : τ → σ → τ} {state after : τ} :
    lift view put program state = (.ok value, after) ↔
      ∃ part, program (view state) = (.ok value, part) ∧ after = put state part := by
  rw [lift]
  match run : program (view state) with
  | (outcome, part) => simp [eq_comm, and_comm]

section

variable {ι : Type} {program : ι → Prog σ ε Unit}

theorem forEach_append (first second : List ι) (state : σ) :
    forEach program (first ++ second) state =
      (forEach program first >>= fun _ => forEach program second) state := by
  induction first generalizing state with
  | nil => rfl
  | cons i rest induction =>
    show (program i >>= fun _ => forEach program (rest ++ second)) state =
      ((program i >>= fun _ => forEach program rest) >>= fun _ => forEach program second) state
    rw [bind_apply, bind_apply, bind_apply]
    match program i state with
    | (.ok value, after) => exact induction after
    | (.error _, _) | (.abort, _) | (.hang, _) => rfl

theorem forEach_append_of_ok {first second : List ι} (run : (forEach program first state).1 = .ok ()) :
    forEach program (first ++ second) state =
      forEach program second (forEach program first state).2 := by
  rw [forEach_append, bind_of_ok (Prod.ext run rfl)]

/-- A step that succeeds below a limit and fails there, repeated often enough. -/
theorem forEach_replicate_error {i : ι} {holds : Nat → σ → Prop} {limit n count : Nat}
    (goes : ∀ {n state}, holds n state → n < limit →
      ∃ after, program i state = (.ok (), after) ∧ holds (n + 1) after)
    (fails : ∀ {state}, holds limit state → (program i state).1 = .error code)
    (start : holds n state) (total : n + count = limit) :
    (forEach program (List.replicate (count + 1) i) state).1 = .error code := by
  induction count generalizing n state with
  | zero =>
    obtain rfl : n = limit := total
    have failed : program i state = (.error code, (program i state).2) :=
      Prod.ext (fails start) rfl
    exact congrArg Prod.fst (bind_of_error failed)
  | succ count induction =>
    obtain ⟨after, run, further⟩ := goes start (by omega)
    exact (congrArg Prod.fst (bind_of_ok run)).trans (induction further (by omega))

end

/-! ## Postconditions

`Ensures program state post` says that whatever the program returns normally satisfies `post`.  The
rules turn a composite program into its parts from left to right.
-/

/-- Every normal return from `state` satisfies `post`. -/
def Ensures (program : Prog σ ε α) (state : σ) (post : α → σ → Prop) : Prop :=
  ∀ value after, program state = (.ok value, after) → post value after

theorem Ensures.mono {post post' : α → σ → Prop} (ensures : Ensures program state post)
    (weaker : ∀ value after, post value after → post' value after) : Ensures program state post' :=
  fun value after run => weaker value after (ensures value after run)

theorem ensures_bind {post : β → σ → Prop} :
    Ensures (first >>= next) state post ↔
      Ensures first state fun value middle => Ensures (next value) middle post := by
  constructor
  · intro ensures value middle firstRun result after nextRun
    exact ensures result after (bind_eq_ok.mpr ⟨value, middle, firstRun, nextRun⟩)
  · intro ensures result after run
    obtain ⟨value, middle, firstRun, nextRun⟩ := bind_eq_ok.mp run
    exact ensures value middle firstRun result after nextRun

theorem ensures_of_ok (run : program state = (.ok value, after)) :
    Ensures program state post ↔ post value after := by
  constructor
  · intro ensures
    exact ensures value after run
  · intro holds result final run'
    obtain ⟨rfl, rfl⟩ := ok_inj (run.symm.trans run')
    exact holds

theorem ensures_pure : Ensures (pure value : Prog σ ε α) state post ↔ post value state :=
  ensures_of_ok rfl

theorem ensures_get {post : σ → σ → Prop} :
    Ensures (get : Prog σ ε σ) state post ↔ post state state :=
  ensures_of_ok rfl

theorem ensures_modify {update : σ → σ} {post : Unit → σ → Prop} :
    Ensures (modify update : Prog σ ε Unit) state post ↔ post () (update state) :=
  ensures_of_ok rfl

theorem ensures_throw : Ensures (throw code : Prog σ ε α) state post :=
  fun _ _ run => by simp at run

theorem ensures_abort : Ensures (abort : Prog σ ε α) state post := fun _ _ run => by simp at run

theorem ensures_inspect {read : σ → Except ε α} :
    Ensures (inspect read) state post ↔ ∀ value, read state = .ok value → post value state := by
  constructor
  · intro ensures value found
    exact ensures value state (by rw [inspect, found])
  · intro holds result after run
    match found : read state with
    | .ok value =>
      rw [inspect, found] at run
      obtain ⟨rfl, rfl⟩ := ok_inj run
      exact holds value found
    | .error code => simp [inspect, found] at run

theorem ensures_throwIf [Decidable bad] {post : Unit → σ → Prop} :
    Ensures (throwIf bad code : Prog σ ε Unit) state post ↔ (¬ bad → post () state) := by
  by_cases holds : bad
  · rw [throwIf, if_pos holds]
    exact iff_of_true ensures_throw fun fine => absurd holds fine
  · rw [throwIf, if_neg holds]
    exact ensures_pure.trans ⟨fun result _ => result, fun result => result holds⟩

theorem ensures_ite {cond : Prop} [Decidable cond] {yes no : Prog σ ε α} :
    Ensures (if cond then yes else no) state post ↔
      (cond → Ensures yes state post) ∧ (¬ cond → Ensures no state post) := by
  by_cases holds : cond <;> simp [holds]

/-! ## Total correctness

`Achieves program state post` says that the program returns normally and that what it returns
satisfies `post`.  As runs are deterministic, every rule is an equivalence.
-/

/-- The program returns normally with `post`. -/
def Achieves (program : Prog σ ε α) (state : σ) (post : α → σ → Prop) : Prop :=
  ∃ value after, program state = (.ok value, after) ∧ post value after

theorem achieves_of_ok (run : program state = (.ok value, after)) :
    Achieves program state post ↔ post value after := by
  constructor
  · rintro ⟨value', after', run', holds⟩
    obtain ⟨rfl, rfl⟩ := ok_inj (run.symm.trans run')
    exact holds
  · intro holds
    exact ⟨value, after, run, holds⟩

theorem achieves_pure : Achieves (pure value : Prog σ ε α) state post ↔ post value state :=
  achieves_of_ok rfl

theorem achieves_get {post : σ → σ → Prop} :
    Achieves (get : Prog σ ε σ) state post ↔ post state state :=
  achieves_of_ok rfl

theorem achieves_modify {update : σ → σ} {post : Unit → σ → Prop} :
    Achieves (modify update : Prog σ ε Unit) state post ↔ post () (update state) :=
  achieves_of_ok rfl

theorem achieves_throw : ¬ Achieves (throw code : Prog σ ε α) state post := by
  rintro ⟨value, after, run, -⟩
  simp at run

theorem achieves_bind {post : β → σ → Prop} :
    Achieves (first >>= next) state post ↔
      Achieves first state fun value middle => Achieves (next value) middle post := by
  constructor
  · rintro ⟨result, after, run, holds⟩
    obtain ⟨value, middle, firstRun, nextRun⟩ := bind_eq_ok.mp run
    exact ⟨value, middle, firstRun, result, after, nextRun, holds⟩
  · rintro ⟨value, middle, firstRun, result, after, nextRun, holds⟩
    exact ⟨result, after, bind_eq_ok.mpr ⟨value, middle, firstRun, nextRun⟩, holds⟩

theorem achieves_throwIf [Decidable bad] {post : Unit → σ → Prop} :
    Achieves (throwIf bad code : Prog σ ε Unit) state post ↔ ¬ bad ∧ post () state := by
  by_cases holds : bad
  · rw [throwIf, if_pos holds]
    exact iff_of_false achieves_throw fun both => both.1 holds
  · rw [throwIf, if_neg holds]
    exact (achieves_of_ok rfl).trans (and_iff_right holds).symm

theorem achieves_forEach {ι : Type} {program : ι → Prog σ ε Unit} {accepts : ι → σ → Prop}
    {effect : σ → ι → σ}
    (step : ∀ i state (post : Unit → σ → Prop), Achieves (program i) state post ↔
      accepts i state ∧ post () (effect state i))
    (kept : ∀ i j state, accepts j (effect state i) ↔ accepts j state)
    (list : List ι) (state : σ) {post : Unit → σ → Prop} :
    Achieves (forEach program list) state post ↔
      (∀ i ∈ list, accepts i state) ∧ post () (list.foldl effect state) := by
  induction list generalizing state with
  | nil => exact achieves_pure.trans (by simp)
  | cons i rest ih =>
    refine achieves_bind.trans ?_
    rw [step, ih]
    simp only [kept, List.forall_mem_cons, List.foldl_cons, and_assoc]

end Prog

end Qemu
