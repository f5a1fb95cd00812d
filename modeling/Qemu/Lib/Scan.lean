import Mathlib

/-!
# Counting loops over half-open spans

`loop start stop body` is `for (x = start; x < stop; x++)` with the state passed through.  A test of
every index against a second span can be moved into the bounds of the loop.
-/

namespace Qemu.Scan

open List

variable {σ : Type} {start stop : Int} {body : Int → σ → σ} {s : σ}

/-- `for (x = start; x < stop; x++) s = body(x, s)`. -/
def loop (start stop : Int) (body : Int → σ → σ) (s : σ) : σ :=
  (Int.range start stop).foldl (fun s x => body x s) s

theorem loop_empty (empty : stop ≤ start) : loop start stop body s = s := by
  have none : (stop - start).toNat = 0 := by omega
  rw [loop, Int.range, none]
  rfl

theorem loop_head (more : start < stop) :
    loop start stop body s = loop (start + 1) stop body (body start s) := by
  have count : (stop - start).toNat = (stop - (start + 1)).toNat + 1 := by omega
  have shift : ∀ r, start + ((r + 1 : Nat) : Int) = start + 1 + r := by
    omega
  have first : start + ((0 : Nat) : Int) = start := by omega
  rw [loop, loop, Int.range, Int.range, count, range_succ_eq_map, map_cons, map_map, foldl_cons]
  simp only [Function.comp_def, Nat.succ_eq_add_one, shift, first]

/-- Two loops with bodies that agree on the span do the same. -/
theorem loop_congr {body' : Int → σ → σ} (same : ∀ x, start ≤ x → x < stop → body x = body' x) :
    loop start stop body s = loop start stop body' s := by
  obtain ⟨count, isCount⟩ : ∃ count, (stop - start).toNat = count := ⟨_, rfl⟩
  induction count generalizing start s with
  | zero => rw [loop_empty (by omega), loop_empty (by omega)]
  | succ count ih =>
    have more : start < stop := by omega
    have first : body start = body' start := same start (le_refl start) more
    rw [loop_head more, loop_head more, first]
    exact ih (fun x above below => same x (by omega) below) (by omega)

theorem loop_skip (skips : ∀ x s, start ≤ x → x < stop → body x s = s) :
    loop start stop body s = s := by
  have same : loop start stop body s = loop start stop (fun _ s => s) s :=
    loop_congr fun x above below => funext fun s => skips x s above below
  rw [same, loop]
  induction Int.range start stop with
  | nil => rfl
  | cons x rest ih => exact ih

theorem loop_append {middle : Int} (early : start ≤ middle) (late : middle ≤ stop) :
    loop middle stop body (loop start middle body s) = loop start stop body s := by
  obtain ⟨count, isCount⟩ : ∃ count, (middle - start).toNat = count := ⟨_, rfl⟩
  induction count generalizing start s with
  | zero =>
    obtain rfl : start = middle := by omega
    rw [loop_empty (le_refl start)]
  | succ count ih =>
    rw [loop_head (by omega : start < middle), loop_head (by omega : start < stop)]
    exact ih (by omega) (by omega)

/-- A test against a second span in the body is the same as a loop over the common span. -/
theorem loop_clip (left right : Int) :
    loop start stop (fun x s => if left ≤ x ∧ x < right then body x s else s) s =
      loop (max start left) (min stop right) body s := by
  obtain ⟨count, isCount⟩ : ∃ count, (stop - start).toNat = count := ⟨_, rfl⟩
  induction count generalizing start s with
  | zero => rw [loop_empty (by omega), loop_empty (by omega)]
  | succ count ih =>
    rw [loop_head (by omega), ih (by omega)]
    by_cases inside : left ≤ start ∧ start < right
    · have next : max (start + 1) left = max start left + 1 := by omega
      have first : max start left = start := by omega
      rw [if_pos inside, next, loop_head (by omega : max start left < min stop right), first]
    · rw [if_neg inside]
      by_cases before : start < left
      · have next : max (start + 1) left = max start left := by omega
        rw [next]
      · rw [loop_empty (by omega), loop_empty (by omega)]

theorem mem_loop {α : Type} {body : Int → List α → List α} {entry : α} {hit : Int → Prop}
    (records : ∀ x s, entry ∈ body x s ↔ entry ∈ s ∨ hit x) (s : List α) :
    entry ∈ loop start stop body s ↔ entry ∈ s ∨ ∃ x, start ≤ x ∧ x < stop ∧ hit x := by
  obtain ⟨count, isCount⟩ : ∃ count, (stop - start).toNat = count := ⟨_, rfl⟩
  induction count generalizing start s with
  | zero =>
    rw [loop_empty (by omega)]
    refine ⟨Or.inl, ?_⟩
    rintro (member | ⟨x, above, below, -⟩)
    · exact member
    · omega
  | succ count ih =>
    rw [loop_head (by omega), ih _ (by omega), records, or_assoc]
    refine or_congr_right ⟨?_, ?_⟩
    · rintro (first | ⟨x, above, below, isHit⟩)
      · exact ⟨start, le_refl start, by omega, first⟩
      · exact ⟨x, by omega, below, isHit⟩
    · rintro ⟨x, above, below, isHit⟩
      by_cases first : x = start
      · exact Or.inl (first ▸ isHit)
      · exact Or.inr ⟨x, by omega, below, isHit⟩

/-- Single steps up to a multiple of four. -/
def headLoop (body : Int → σ → σ) (stop x : Int) (s : σ) : Int × σ :=
  if x < stop ∧ x % 4 ≠ 0 then headLoop body stop (x + 1) (body x s) else (x, s)
termination_by (stop - x).toNat

/-- Steps of four. -/
def groupLoop (body : Int → σ → σ) (stop x : Int) (s : σ) : Int × σ :=
  if x < stop - stop % 4 then
    groupLoop body stop (x + 4) (body (x + 3) (body (x + 2) (body (x + 1) (body x s))))
  else (x, s)
termination_by (stop - x).toNat

/-- `for ( ; x < stop && (x & 3) != 0; x++)`, then steps of four, then the rest. -/
def rowLoop (start stop : Int) (body : Int → σ → σ) (s : σ) : σ :=
  let head := headLoop body stop start s
  let groups := groupLoop body stop head.1 head.2
  loop groups.1 stop body groups.2

theorem headLoop_run (body : Int → σ → σ) (stop x : Int) (s : σ) :
    (stop ≤ (headLoop body stop x s).1 ∨ (headLoop body stop x s).1 % 4 = 0) ∧
      loop (headLoop body stop x s).1 stop body (headLoop body stop x s).2 =
        loop x stop body s := by
  fun_induction headLoop body stop x s with
  | case1 x s more ih =>
    rw [loop_head more.1]
    exact ih
  | case2 x s done => exact ⟨by omega, rfl⟩

theorem groupLoop_run (body : Int → σ → σ) (stop x : Int) (s : σ) (aligned : stop ≤ x ∨ x % 4 = 0) :
    loop (groupLoop body stop x s).1 stop body (groupLoop body stop x s).2 = loop x stop body s := by
  fun_induction groupLoop body stop x s with
  | case1 x s more ih =>
    rw [ih (by omega)]
    rw [loop_head (by omega : x < stop), loop_head (by omega : x + 1 < stop),
      loop_head (by omega : x + 1 + 1 < stop), loop_head (by omega : x + 1 + 1 + 1 < stop)]
    simp only [add_assoc]
    rfl
  | case2 x s done => rfl

/-- Filling a row in steps of four visits every index of the span once, in order. -/
theorem rowLoop_eq_loop : rowLoop start stop body s = loop start stop body s := by
  obtain ⟨aligned, head⟩ := headLoop_run body stop start s
  rw [rowLoop, groupLoop_run body stop _ _ aligned, head]

end Qemu.Scan
