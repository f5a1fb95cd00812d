import Qemu.Lib.Disk

/-!
# Committing an overlay

`bdrv_commit` of `block.c` copies the sectors that are allocated in an overlay to its backing image.
Drivers and host answer through `Env`; a write that fails may leave anything in its sectors.
-/

namespace Qemu.Block.Commit

open Disk

variable {α : Type}

def eIo : Int := 5

def eAcces : Int := 13

def eNotSup : Int := 95

def eNoMedium : Int := 123

structure BackingHd (α : Type) where
  readOnly : Bool
  keepReadOnly : Bool
  totalSectors : Nat
  data : Nat → α

/-- The overlay, with the sectors its driver stores. -/
structure BlockDriverState (α : Type) where
  hasDrv : Bool
  backingHd : Option (BackingHd α)
  totalSectors : Nat
  allocated : Nat → Bool
  data : Nat → α

/-- The runs that `drv->bdrv_is_allocated` reports through `pnum`; the last one may go past the end
of the overlay. -/
structure IsAllocated (bs : BlockDriverState α) where
  pnum : Nat → Nat
  pos : ∀ sector, 0 < pnum sector
  same : ∀ sector x, sector ≤ x → x < sector + pnum sector → x < bs.totalSectors →
    bs.allocated x = bs.allocated sector

/-- How the requests of a commit end. -/
structure Env (α : Type) where
  /-- `bdrv_open` with and without `BDRV_O_RDWR`. -/
  openRw : Int
  openRo : Int
  /-- The drivers' reads and writes of the run at a sector. -/
  read : Nat → Int
  write : Nat → Int
  /-- What a failed write leaves behind. -/
  torn : Nat → α
  /-- `drv->bdrv_make_empty`, if there is one, and the sectors it leaves allocated. -/
  makeEmpty : Option (Int × (Nat → Bool))

section Model

variable [Zero α]

/-- A sector as it is read from the overlay. -/
def BlockDriverState.sector (bs : BlockDriverState α) (x : Nat) : α :=
  if bs.allocated x then bs.data x
  else
    match bs.backingHd with
    | some hd => if x < hd.totalSectors then hd.data x else 0
    | none => 0

/-- `bdrv_read` of the overlay: the result and the buffer. -/
def bdrvRead (env : Env α) (bs : BlockDriverState α) (sectorNum nbSectors : Nat) :
    Int × (Nat → α) :=
  if ¬ bs.hasDrv then (-eNoMedium, fun _ => 0)
  else if bs.totalSectors < sectorNum + nbSectors then (-eIo, fun _ => 0)
  else (env.read sectorNum, fun i => bs.sector (sectorNum + i))

def bdrvWrite (env : Env α) (hd : BackingHd α) (sectorNum : Nat) (buf : Nat → α) (nbSectors : Nat) : Int × BackingHd α :=
  if hd.readOnly then (-eAcces, hd)
  else if hd.totalSectors < sectorNum + nbSectors then (-eIo, hd)
  else
    let left := if env.write sectorNum = 0 then buf else fun i => env.torn (sectorNum + i)
    (env.write sectorNum, { hd with data := patch hd.data sectorNum nbSectors left })

def copyLoop (env : Env α) (bs : BlockDriverState α) (pnum : Nat → Nat) :
    Nat → Nat → BackingHd α → Int × BackingHd α
  | 0, _, hd => (0, hd)
  | fuel + 1, sector, hd =>
    if sector < bs.totalSectors then
      let n := pnum sector
      if bs.allocated sector then
        let (failed, buf) := bdrvRead env { bs with backingHd := some hd } sector n
        if failed ≠ 0 then (-eIo, hd)
        else
          let (failed, hd) := bdrvWrite env hd sector buf n
          if failed ≠ 0 then (-eIo, hd) else copyLoop env bs pnum fuel (sector + n) hd
      else copyLoop env bs pnum fuel (sector + n) hd
    else (0, hd)

/-- The copy, and `bdrv_make_empty` after it. -/
def copyAndEmpty (env : Env α) (bs : BlockDriverState α) (pnum : Nat → Nat) (hd : BackingHd α) :
    Int × BlockDriverState α :=
  let (ret, hd) := copyLoop env bs pnum bs.totalSectors 0 hd
  if ret ≠ 0 then (ret, { bs with backingHd := some hd })
  else
    match env.makeEmpty with
    | none => (ret, { bs with backingHd := some hd })
    | some (ret, stays) =>
      (ret, { bs with backingHd := some hd, allocated := fun x => bs.allocated x && stays x })

/-- Opening the backing image read-only again. -/
def reopen (env : Env α) (bs : BlockDriverState α) : Int × BlockDriverState α :=
  if env.openRo < 0 then (env.openRo, { bs with hasDrv := false, backingHd := none })
  else
    (env.openRo, { bs with backingHd := bs.backingHd.map fun hd =>
      { hd with readOnly := true, keepReadOnly := false } })

def bdrvCommit (env : Env α) (bs : BlockDriverState α) (runs : IsAllocated bs) :
    Int × BlockDriverState α :=
  if ¬ bs.hasDrv then (-eNoMedium, bs)
  else
    match bs.backingHd with
    | none => (-eNotSup, bs)
    | some hd =>
      if hd.keepReadOnly then (-eAcces, bs)
      else if hd.readOnly then
        if env.openRw < 0 then
          if env.openRo < 0 then (env.openRo, { bs with hasDrv := false, backingHd := none })
          else (env.openRw, { bs with backingHd := some { hd with keepReadOnly := true } })
        else
          reopen env (copyAndEmpty env bs runs.pnum { hd with readOnly := false }).2
      else copyAndEmpty env bs runs.pnum hd

end Model

/-! ## What is copied -/

section Copy

variable {env : Env α} {bs : BlockDriverState α} {runs : IsAllocated bs}

/-- The run at a sector is read and written. -/
def Copied (env : Env α) (bs : BlockDriverState α) (pnum : Nat → Nat) (sector : Nat) : Prop :=
  sector + pnum sector ≤ bs.totalSectors ∧ env.read sector = 0 ∧ env.write sector = 0

/-- `StopsAt env bs pnum sector t`: from `sector` on the first allocated run that cannot be copied is
the one at `t`. -/
inductive StopsAt (env : Env α) (bs : BlockDriverState α) (pnum : Nat → Nat) : Nat → Nat → Prop
  | here {sector : Nat} (inside : sector < bs.totalSectors) (own : bs.allocated sector = true)
      (fails : ¬ Copied env bs pnum sector) : StopsAt env bs pnum sector sector
  | next {sector t : Nat} (inside : sector < bs.totalSectors)
      (copied : bs.allocated sector = true → Copied env bs pnum sector)
      (later : StopsAt env bs pnum (sector + pnum sector) t) : StopsAt env bs pnum sector t

/-- The backing image after the run at `t` could not be copied. -/
def leaves (env : Env α) (bs : BlockDriverState α) (pnum : Nat → Nat) (t : Nat) (disk : Nat → α)
    (x : Nat) : α :=
  if (t + pnum t ≤ bs.totalSectors ∧ env.read t = 0) ∧ t ≤ x ∧ x < t + pnum t then env.torn x
  else disk x

/-- `after` is `disk` with the allocated sectors from `start` to `stop` copied. -/
def Moved (bs : BlockDriverState α) (start stop : Nat) (disk after : Nat → α) : Prop :=
  ∀ x < bs.totalSectors, after x =
    if start ≤ x ∧ x < stop ∧ bs.allocated x = true then bs.data x else disk x

theorem StopsAt.bounds {pnum : Nat → Nat} {sector t : Nat} (stops : StopsAt env bs pnum sector t) :
    sector ≤ t ∧ t < bs.totalSectors ∧ bs.allocated t = true := by
  induction stops with
  | here inside own => exact ⟨le_refl _, inside, own⟩
  | next _ _ _ ih => exact ⟨by omega, ih.2⟩

theorem StopsAt.unique {pnum : Nat → Nat} {sector t u : Nat} (stops : StopsAt env bs pnum sector t)
    (other : StopsAt env bs pnum sector u) : t = u := by
  induction stops with
  | here inside own fails =>
    cases other with
    | here => rfl
    | next _ copied _ => exact absurd (copied own) fails
  | next inside copied later ih =>
    cases other with
    | here _ own fails => exact absurd (copied own) fails
    | next _ _ later => exact ih later

theorem Moved.trans {first second third : Nat} {disk middle after : Nat → α}
    (head : Moved bs first second disk middle) (lower : first ≤ second)
    (upper : second ≤ third ∨ bs.totalSectors ≤ third) (rest : Moved bs second third middle after) : Moved bs first third disk after := by
  intro x inside
  rw [rest x inside, head x inside]
  by_cases own : bs.allocated x = true
  · simp only [own, and_true]
    split_ifs <;> first | rfl | omega
  · simp [own]

theorem Moved.leaves {pnum : Nat → Nat} {start stop t : Nat} {disk after : Nat → α}
    (before : stop ≤ t) (moved : Moved bs start stop disk after) :
    Moved bs start stop (leaves env bs pnum t disk) (leaves env bs pnum t after) := by
  intro x inside
  rw [Commit.leaves, Commit.leaves, moved x inside]
  split_ifs with torn copied
  · omega
  · rfl
  · rfl
  · rfl

variable [Zero α] {hd : BackingHd α} {sector : Nat}

theorem bdrvRead_run (drv : bs.hasDrv = true) (own : bs.allocated sector = true) :
    (sector + runs.pnum sector ≤ bs.totalSectors ∧ env.read sector = 0 ∧ ∃ buf,
      bdrvRead env { bs with backingHd := some hd } sector (runs.pnum sector) = (0, buf) ∧
        ∀ i < runs.pnum sector, buf i = bs.data (sector + i)) ∨
    (¬ (sector + runs.pnum sector ≤ bs.totalSectors ∧ env.read sector = 0) ∧
      (bdrvRead env { bs with backingHd := some hd } sector (runs.pnum sector)).1 ≠ 0) := by
  rw [bdrvRead, if_neg (not_not.mpr drv)]
  by_cases fits : sector + runs.pnum sector ≤ bs.totalSectors
  · rw [if_neg (not_lt.mpr fits)]
    by_cases good : env.read sector = 0
    · refine .inl ⟨fits, good, _, Prod.ext good rfl, fun i inside => ?_⟩
      have owned : bs.allocated (sector + i) = true :=
        (runs.same sector _ (by omega) (by omega) (by omega)).trans own
      exact if_pos owned
    · exact .inr ⟨fun both => good both.2, good⟩
  · rw [if_pos (Nat.lt_of_not_le fits)]
    exact .inr ⟨fun both => fits both.1, show -eIo ≠ 0 by decide⟩

omit [Zero α] in
/-- The loop copies every allocated sector, or stops at a run that cannot be copied. -/
inductive Ends (env : Env α) (bs : BlockDriverState α) (pnum : Nat → Nat) (sector : Nat)
    (hd : BackingHd α) : Int × BackingHd α → Prop
  | done {after : Nat → α} (never : ∀ t, ¬ StopsAt env bs pnum sector t)
      (moved : Moved bs sector bs.totalSectors hd.data after) :
      Ends env bs pnum sector hd (0, { hd with data := after })
  | stopped {after : Nat → α} {t : Nat} (stops : StopsAt env bs pnum sector t)
      (moved : Moved bs sector t (leaves env bs pnum t hd.data) after) :
      Ends env bs pnum sector hd (-eIo, { hd with data := after })

theorem copyLoop_ends (drv : bs.hasDrv = true) (writable : hd.readOnly = false)
    (long : bs.totalSectors ≤ hd.totalSectors) {fuel : Nat}
    (enough : bs.totalSectors ≤ sector + fuel) :
    Ends env bs runs.pnum sector hd (copyLoop env bs runs.pnum fuel sector hd) := by
  have behind {sector : Nat} {hd : BackingHd α} (outside : bs.totalSectors ≤ sector) :
      Ends env bs runs.pnum sector hd (0, hd) := by
    refine .done (fun t stops => ?_) fun x inside => (if_neg (by omega)).symm
    have bounds := stops.bounds
    omega
  induction fuel generalizing sector hd with
  | zero => exact behind enough
  | succ fuel ih =>
    rw [copyLoop]
    by_cases inside : sector < bs.totalSectors
    · have pos := runs.pos sector
      have goOn {middle : Nat → α}
          (pass : bs.allocated sector = true → Copied env bs runs.pnum sector)
          (head : Moved bs sector (sector + runs.pnum sector) hd.data middle) :
          Ends env bs runs.pnum sector hd (copyLoop env bs runs.pnum fuel
            (sector + runs.pnum sector) { hd with data := middle }) := by
        have rest := @ih { hd with data := middle } (sector + runs.pnum sector) writable long
          (by omega)
        generalize copyLoop env bs runs.pnum fuel _ _ = ended at rest
        cases rest with
        | done never moved =>
          refine .done (fun t stops => ?_) (head.trans (by omega) (.inr (le_refl _)) moved)
          cases stops with
          | here _ own fails => exact fails (pass own)
          | next _ _ later => exact never t later
        | stopped stops moved =>
          have far := stops.bounds.1
          exact .stopped (.next inside pass stops)
            ((head.leaves far).trans (by omega) (.inl far) moved)
      rw [if_pos inside]
      by_cases own : bs.allocated sector = true
      · simp only [own, if_true]
        rcases @bdrvRead_run α env bs runs _ hd sector drv own with
          ⟨fits, good, buf, read, copy⟩ | ⟨fails, read⟩
        · have allowed : ¬hd.readOnly = true := by simp [writable]
          have room : ¬hd.totalSectors < sector + runs.pnum sector := by omega
          rw [read, if_neg (by simp)]
          simp only [bdrvWrite, if_neg allowed, if_neg room]
          by_cases stored : env.write sector = 0
          · simp only [stored, if_true, ne_eq, not_true_eq_false, if_false]
            refine goOn (fun _ => ⟨fits, good, stored⟩) fun x _ => ?_
            by_cases inRun : sector ≤ x ∧ x < sector + runs.pnum sector
            · rw [patch_inside inRun.1 inRun.2, copy _ (by omega), Nat.add_sub_cancel' inRun.1,
                if_pos ⟨inRun.1, inRun.2, (runs.same sector x inRun.1 inRun.2 (by omega)).trans own⟩]
            · rw [patch_outside (by omega), if_neg (by omega)]
          · simp only [stored, if_false, ne_eq, not_false_eq_true, if_true]
            refine .stopped (.here inside own fun all => stored all.2.2) fun x _ => ?_
            rw [if_neg (by omega), leaves]
            by_cases inRun : sector ≤ x ∧ x < sector + runs.pnum sector
            · rw [if_pos ⟨⟨fits, good⟩, inRun⟩, patch_inside inRun.1 inRun.2,
                Nat.add_sub_cancel' inRun.1]
            · rw [if_neg fun all => inRun all.2, patch_outside (by omega)]
        · rw [if_pos read]
          refine .stopped (.here inside own fun all => fails ⟨all.1, all.2.1⟩) fun x _ => ?_
          rw [if_neg (by omega), leaves, if_neg fun all => fails all.1]
      · simp only [own]
        refine goOn (fun owned => absurd owned own) fun x within => ?_
        by_cases inRun : sector ≤ x ∧ x < sector + runs.pnum sector
        · rw [if_neg fun all => own ((runs.same sector x inRun.1 inRun.2 within).symm.trans all.2.2)]
        · rw [if_neg (by omega)]
    · rw [if_neg inside]
      exact behind (Nat.le_of_not_lt inside)

end Copy

/-! ## What a result of zero means -/

section Result

variable [Zero α] {env : Env α} {bs : BlockDriverState α} {runs : IsAllocated bs}
variable {hd : BackingHd α}

/-- The backing image holds what was read from the overlay before, which reads as before. -/
def Commits (bs after : BlockDriverState α) : Prop :=
  (∃ hd, after.backingHd = some hd ∧ ∀ x < bs.totalSectors, hd.data x = bs.sector x) ∧
    ∀ x < bs.totalSectors, after.sector x = bs.sector x

/-- From `t` on the allocated sectors are in the backing image although they were not copied. -/
def Spared (env : Env α) (bs : BlockDriverState α) (pnum : Nat → Nat) (disk : Nat → α) (t : Nat) : Prop :=
  ∀ x, t ≤ x → x < bs.totalSectors → bs.allocated x = true →
    leaves env bs pnum t disk x = bs.data x

/-- Where the backing image changed only in allocated sectors, these decide. -/
theorem commits_iff {stays : Nat → Bool} {new : Nat → α} (backing : bs.backingHd = some hd)
    (long : bs.totalSectors ≤ hd.totalSectors) (less : ∀ x, stays x = true → bs.allocated x = true)
    (kept : ∀ x < bs.totalSectors, bs.allocated x ≠ true → new x = hd.data x) :
    Commits bs { bs with
        allocated := stays
        backingHd := some { hd with readOnly := false, data := new } } ↔
      ∀ x < bs.totalSectors, bs.allocated x = true → new x = bs.data x := by
  have old {x : Nat} (inside : x < bs.totalSectors) :
      bs.sector x = if bs.allocated x = true then bs.data x else hd.data x := by
    rw [BlockDriverState.sector, backing]
    simp only [if_pos (lt_of_lt_of_le inside long)]
  constructor
  · rintro ⟨⟨hd', same, equal⟩, -⟩ x inside own
    obtain rfl := Option.some.inj same
    exact (equal x inside).trans ((old inside).trans (if_pos own))
  · intro all
    have here (x : Nat) (inside : x < bs.totalSectors) : new x = bs.sector x := by
      rw [old inside]
      split_ifs with own
      · exact all x inside own
      · exact kept x inside own
    refine ⟨⟨_, rfl, here⟩, fun x inside => ?_⟩
    rw [BlockDriverState.sector]
    simp only [if_pos (lt_of_lt_of_le inside long)]
    split_ifs with stay
    · rw [old inside, if_pos (less x stay)]
    · exact here x inside

/-- The copy commits unless it stops in front of sectors that differ. -/
theorem copyAndEmpty_ends (drv : bs.hasDrv = true) (backing : bs.backingHd = some hd)
    (long : bs.totalSectors ≤ hd.totalSectors) :
    ((∀ t, ¬ StopsAt env bs runs.pnum 0 t) ∧
      Commits bs (copyAndEmpty env bs runs.pnum { hd with readOnly := false }).2) ∨
    ∃ t, StopsAt env bs runs.pnum 0 t ∧
      (copyAndEmpty env bs runs.pnum { hd with readOnly := false }).1 ≠ 0 ∧
      (Commits bs (copyAndEmpty env bs runs.pnum { hd with readOnly := false }).2 ↔
        Spared env bs runs.pnum hd.data t) := by
  have ends := @copyLoop_ends α env bs runs _ { hd with readOnly := false } 0 drv rfl long
    bs.totalSectors (by omega)
  rw [copyAndEmpty]
  generalize copyLoop env bs runs.pnum _ _ _ = ended at ends
  cases ends with
  | @done after never moved =>
    have all (x : Nat) (inside : x < bs.totalSectors) (own : bs.allocated x = true) :
        after x = bs.data x := (moved x inside).trans (if_pos ⟨Nat.zero_le x, inside, own⟩)
    have kept (x : Nat) (inside : x < bs.totalSectors) (free : bs.allocated x ≠ true) :
        after x = hd.data x := (moved x inside).trans (if_neg fun held => free held.2.2)
    refine .inl ⟨never, ?_⟩
    cases env.makeEmpty with
    | none => exact (commits_iff backing long (fun _ => id) kept).mpr all
    | some emptied =>
      refine (commits_iff backing long ?_ kept).mpr all
      exact fun x both => (Bool.and_eq_true_iff.mp both).1
  | @stopped after t stops moved =>
    obtain ⟨-, last, owned⟩ := stops.bounds
    refine .inr ⟨t, stops, show -eIo ≠ 0 by decide, ?_⟩
    have kept (x : Nat) (inside : x < bs.totalSectors) (free : bs.allocated x ≠ true) :
        after x = hd.data x := by
      rw [moved x inside, if_neg fun held => free held.2.2, leaves, if_neg fun torn => ?_]
      exact free ((runs.same t x torn.2.1 torn.2.2 inside).trans owned)
    refine (commits_iff backing long (fun _ => id) kept).trans ?_
    constructor
    · intro all x late inside own
      rw [← all x inside own]
      exact ((moved x inside).trans (if_neg (by omega))).symm
    · intro spared x inside own
      refine (moved x inside).trans ?_
      split_ifs with copied
      · rfl
      · exact spared x (Nat.le_of_not_lt fun early => copied ⟨Nat.zero_le x, early, own⟩) inside own

theorem commits_reopen {after : BlockDriverState α} (opened : ¬ env.openRo < 0) :
    Commits bs (reopen env after).2 ↔ Commits bs after := by
  rw [reopen, if_neg opened]
  cases hdAfter : after.backingHd with
  | none | some hd => simp [Commits, BlockDriverState.sector, hdAfter]

/-- The backing image was opened read-only, and can be opened for writing and again. -/
def Masks (env : Env α) (hd : BackingHd α) : Prop :=
  hd.keepReadOnly = false ∧ hd.readOnly = true ∧ 0 ≤ env.openRw ∧ env.openRo = 0

/-- A commit that returns 0 has committed everything exactly if no failure of the copy is masked by
the result of opening the backing image again. -/
theorem bdrvCommit_complete_iff (env : Env α) (bs : BlockDriverState α) (runs : IsAllocated bs)
    (hd : BackingHd α) (drv : bs.hasDrv = true) (backing : bs.backingHd = some hd)
    (long : bs.totalSectors ≤ hd.totalSectors) :
    ((bdrvCommit env bs runs).1 = 0 → Commits bs (bdrvCommit env bs runs).2) ↔
      (Masks env hd → ∀ t, StopsAt env bs runs.pnum 0 t → Spared env bs runs.pnum hd.data t) := by
  have refused {ended : Int × BlockDriverState α} (nonzero : ended.1 ≠ 0)
      (plain : ¬ Masks env hd) : (ended.1 = 0 → Commits bs ended.2) ↔
        (Masks env hd → ∀ t, StopsAt env bs runs.pnum 0 t → Spared env bs runs.pnum hd.data t) :=
    iff_of_true (fun zero => absurd zero nonzero) fun masks => absurd masks plain
  have ends := @copyAndEmpty_ends α _ env bs runs hd drv backing long
  rw [bdrvCommit, if_neg (not_not.mpr drv), backing]
  simp only
  split_ifs with keep ro noWrite noRead
  · exact refused (show -eAcces ≠ 0 by decide) fun masks => by simp [masks.1] at keep
  · exact refused (Int.ne_of_lt noRead) fun masks => by have := masks.2.2.1; omega
  · exact refused (Int.ne_of_lt noWrite) fun masks => by have := masks.2.2.1; omega
  · by_cases reopened : env.openRo = 0
    · have masks : Masks env hd :=
        ⟨Bool.eq_false_iff.mpr keep, ro, Int.not_lt.mp noWrite, reopened⟩
      have result : (reopen env (copyAndEmpty env bs runs.pnum { hd with readOnly := false }).2).1 =
          0 := by simp [reopen, reopened]
      rw [commits_reopen (by omega), imp_iff_right result, imp_iff_right masks]
      rcases ends with ⟨never, commits⟩ | ⟨t, stops, -, commits⟩
      · exact iff_of_true commits fun t stops => absurd stops (never t)
      · refine commits.trans ⟨fun spared u other => ?_, fun all => all t stops⟩
        exact stops.unique other ▸ spared
    · refine refused ?_ fun masks => reopened masks.2.2.2
      rw [reopen]
      split_ifs
      · exact reopened
      · exact reopened
  · have same : { hd with readOnly := false } = hd := by
      rw [← Bool.eq_false_iff.mpr ro]
    rw [same] at ends
    refine iff_of_true (fun zero => ?_) fun masks => absurd masks.2.1 ro
    rcases ends with ⟨-, commits⟩ | ⟨t, -, failed, -⟩
    · exact commits
    · exact absurd zero failed

/-- One sector over a backing image of one sector. -/
def small (readOnly : Bool) : BlockDriverState Nat where
  hasDrv := true
  backingHd := some ⟨readOnly, false, 1, fun _ => 0⟩
  totalSectors := 1
  allocated := fun _ => true
  data := fun _ => 7

def smallRun (readOnly : Bool) : IsAllocated (small readOnly) where
  pnum := fun _ => 1
  pos := fun _ => Nat.one_pos
  same := fun _ _ _ _ _ => rfl

/-- A host where reading the overlay ends with `code`. -/
def reading (code : Int) : Env Nat where
  openRw := 0
  openRo := 0
  read := fun _ => code
  write := fun _ => 0
  torn := fun _ => 0
  makeEmpty := none

theorem writable_small_complete :
    (bdrvCommit (reading 0) (small false) (smallRun false)).1 = 0 ∧
      Commits (small false) (bdrvCommit (reading 0) (small false) (smallRun false)).2 :=
  ⟨by decide, (bdrvCommit_complete_iff (reading 0) (small false) (smallRun false)
    ⟨false, false, 1, fun _ => 0⟩ rfl rfl (le_refl 1)).mpr
      (fun masks => absurd masks.2.1 (by decide)) (by decide)⟩

/-- The overlay cannot be read, nothing is written, and the commit returns 0. -/
theorem readOnly_small_lost :
    (bdrvCommit (reading (-eIo)) (small true) (smallRun true)).1 = 0 ∧
      ¬ Commits (small true) (bdrvCommit (reading (-eIo)) (small true) (smallRun true)).2 := by
  refine ⟨by decide, fun commits => ?_⟩
  obtain ⟨⟨hd, backing, equal⟩, -⟩ := commits
  obtain rfl := Option.some.inj backing
  exact absurd (equal 0 Nat.one_pos) (by decide)

end Result

end Qemu.Block.Commit
