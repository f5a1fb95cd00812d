import Mathlib

/-!
# Intrusive lists

Pointers live in slots: the head of a list is a slot, and every node `x` has a slot `link x` for the
pointer to its successor.  A memory `mem` gives the pointer each slot holds.  Lists are walked by
slot, as C code does with a pointer to a pointer, so that the same walk serves heads and links, and
circular lists as well as lists that end in a null pointer.
-/

namespace Qemu.Links

open List Links
open Function (update update_of_ne update_self)

variable {ς ν κ : Type} {before after : List ν} {hit : ν → Bool} {slot : ς} {fuel : Nat}
variable {nodes : List ν} {k : κ} {x : ν}

/-- From `slot` on, the pointers visit `nodes` in order; the last of them is followed by `stop`. -/
def Chain (mem : ς → Option ν) (link : ν → ς) (stop : Option ν) : List ν → ς → Prop
  | [], slot => mem slot = stop
  | x :: rest, slot => mem slot = some x ∧ Chain mem link stop rest (link x)

/-- The slot that a walk from `slot` over `nodes` has reached. -/
def slotAfter (link : ν → ς) : List ν → ς → ς
  | [], slot => slot
  | x :: rest, _ => slotAfter link rest (link x)

/-- Walk from `slot` to the first slot whose pointer is null or hits; `none` if there is none within
`fuel` slots. -/
def search (mem : ς → Option ν) (link : ν → ς) (hit : ν → Bool) : Nat → ς → Option (ς × Option ν)
  | 0, _ => none
  | fuel + 1, slot =>
    match mem slot with
    | none => some (slot, none)
    | some x => if hit x then some (slot, some x) else search mem link hit fuel (link x)

variable [DecidableEq ς]

/-- Let `slot` skip the node `x`. -/
def unlink (mem : ς → Option ν) (link : ν → ς) (slot : ς) (x : ν) : ς → Option ν :=
  update mem slot (mem (link x))

/-- Put `x` in front of what `slot` points to. -/
def push (mem : ς → Option ν) (link : ν → ς) (slot : ς) (x : ν) : ς → Option ν :=
  update (update mem (link x) (mem slot)) slot (some x)

section Walks

omit [DecidableEq ς]

variable {mem mem' : ς → Option ν} {link : ν → ς} {stop : Option ν}

theorem Chain.congr (chain : Chain mem link stop nodes slot) (sameSlot : mem' slot = mem slot)
    (sameLinks : ∀ x ∈ nodes, mem' (link x) = mem (link x)) : Chain mem' link stop nodes slot := by
  induction nodes generalizing slot with
  | nil => exact sameSlot.trans chain
  | cons x rest ih =>
    exact ⟨sameSlot.trans chain.1, ih chain.2 (sameLinks x mem_cons_self)
      fun y member => sameLinks y (mem_cons_of_mem x member)⟩

theorem chain_append {first second : List ν} :
    Chain mem link stop (first ++ second) slot ↔
      Chain mem link (mem (slotAfter link first slot)) first slot ∧
        Chain mem link stop second (slotAfter link first slot) := by
  induction first generalizing slot with
  | nil => simp [Chain, slotAfter]
  | cons x rest ih => simp only [cons_append, Chain, slotAfter, ih, and_assoc]

theorem slotAfter_append (first second : List ν) (slot : ς) :
    slotAfter link (first ++ second) slot = slotAfter link second (slotAfter link first slot) := by
  induction first generalizing slot with
  | nil => rfl
  | cons x rest ih => exact ih (link x)

theorem slotAfter_mem (nodes : List ν) (slot : ς) :
    slotAfter link nodes slot ∈ slot :: nodes.map link := by
  induction nodes generalizing slot with
  | nil => exact mem_cons_self
  | cons x rest ih => exact mem_cons_of_mem slot (ih (link x))

/-- The pointers determine the list, up to the node that the walk stops at. -/
theorem Chain.unique {first second : List ν} (chain : Chain mem link stop first slot)
    (other : Chain mem link stop second slot) (firstStops : ∀ x ∈ first, stop ≠ some x)
    (secondStops : ∀ x ∈ second, stop ≠ some x) : first = second := by
  induction first generalizing slot second with
  | nil =>
    cases second with
    | nil => rfl
    | cons y rest =>
      exact absurd (Eq.trans (symm chain) other.1) (secondStops y mem_cons_self)
  | cons x rest ih =>
    cases second with
    | nil => exact absurd (Eq.trans (symm other) chain.1) (firstStops x mem_cons_self)
    | cons y rest' =>
      obtain rfl : x = y := Option.some.inj (chain.1.symm.trans other.1)
      rw [ih chain.2 other.2 (fun z member => firstStops z (mem_cons_of_mem x member))
        fun z member => secondStops z (mem_cons_of_mem x member)]

/-- A search passes over the nodes that do not hit. -/
theorem search_skip (chain : Chain mem link stop nodes slot) (misses : ∀ y ∈ nodes, hit y = false) :
    search mem link hit (nodes.length + fuel) slot =
      search mem link hit fuel (slotAfter link nodes slot) := by
  induction nodes generalizing slot with
  | nil => rw [length_nil, Nat.zero_add, slotAfter]
  | cons y rest ih =>
    have missed : hit y = false := misses y mem_cons_self
    rw [length_cons, Nat.add_right_comm]
    simp only [search, chain.1, missed, slotAfter]
    exact ih chain.2 fun z member => misses z (mem_cons_of_mem y member)

theorem search_hit (chain : Chain mem link stop (before ++ x :: after) slot)
    (misses : ∀ y ∈ before, hit y = false) (hits : hit x = true) (enough : before.length < fuel) :
    search mem link hit fuel slot = some (slotAfter link before slot, some x) := by
  obtain ⟨fuel, rfl⟩ := Nat.exists_eq_add_of_lt enough
  obtain ⟨walk, found, -⟩ := chain_append.mp chain
  rw [Nat.add_assoc, search_skip walk misses]
  simp only [search, found, hits, if_true]

theorem search_miss (chain : Chain mem link none nodes slot) (misses : ∀ y ∈ nodes, hit y = false)
    (enough : nodes.length < fuel) :
    search mem link hit fuel slot = some (slotAfter link nodes slot, none) := by
  obtain ⟨fuel, rfl⟩ := Nat.exists_eq_add_of_lt enough
  rw [← append_nil nodes, chain_append] at chain
  have null : mem (slotAfter link nodes slot) = none := chain.2
  rw [Nat.add_assoc, search_skip chain.1 misses]
  simp only [search, null]

theorem search_reads {slot found : ς} {result : Option ν}
    (ends : search mem link hit fuel slot = some (found, result)) : mem found = result := by
  fun_induction search mem link hit fuel slot with
  | case1 => simp at ends
  | case2 fuel slot null =>
    obtain ⟨rfl, rfl⟩ : slot = found ∧ none = result := by simpa using ends
    exact null
  | case3 fuel slot x read hits =>
    obtain ⟨rfl, rfl⟩ : slot = found ∧ some x = result := by simpa using ends
    exact read
  | case4 fuel slot x read misses ih => exact ih ends

theorem Chain.rotate {mem : ν → Option ν} {owner x : ν}
    (chain : Chain mem id (some owner) (before ++ x :: after) owner) :
    Chain mem id (mem x) (after ++ owner :: before ++ [x]) x := by
  obtain ⟨fromOwner, toX, fromX⟩ := chain_append.mp chain
  rw [append_assoc, chain_append]
  rw [← append_nil after, chain_append] at fromX
  obtain ⟨overAfter, closes⟩ := fromX
  exact ⟨overAfter, closes, chain_append.mpr ⟨fromOwner, toX, rfl⟩⟩

end Walks

section Updates

variable {mem : ς → Option ν} {link : ν → ς} {stop : Option ν}

theorem Chain.push (chain : Chain mem link stop nodes slot)
    (fresh : link x ∉ slot :: nodes.map link) (apart : slot ∉ nodes.map link) :
    Chain (push mem link slot x) link stop (x :: nodes) slot := by
  have notSlot : link x ≠ slot := fun same => fresh (same ▸ mem_cons_self)
  refine ⟨update_self .., ?_⟩
  have moved : Links.push mem link slot x (link x) = mem slot := by
    rw [Links.push, update_of_ne notSlot, update_self]
  have kept : ∀ y ∈ nodes, Links.push mem link slot x (link y) = mem (link y) := by
    intro y member
    have member' : link y ∈ nodes.map link := mem_map_of_mem member
    have notX : link y ≠ link x := fun same => fresh (mem_cons_of_mem slot (same ▸ member'))
    have notHead : link y ≠ slot := fun same => apart (same ▸ member')
    rw [Links.push, update_of_ne notHead, update_of_ne notX]
  cases nodes with
  | nil => exact moved.trans chain
  | cons y rest =>
    refine ⟨moved.trans chain.1, chain.2.congr (kept y mem_cons_self) fun z member => ?_⟩
    exact kept z (mem_cons_of_mem y member)

theorem Chain.unlink (chain : Chain mem link stop (before ++ x :: after) slot)
    (apart : (slot :: (before ++ x :: after).map link).Nodup) :
    Chain (unlink mem link (slotAfter link before slot) x) link stop (before ++ after)
      slot := by
  induction before generalizing slot with
  | nil =>
    have kept : ∀ y ∈ after, unlink mem link slot x (link y) = mem (link y) := by
      intro y member
      refine update_of_ne (fun same => (nodup_cons.mp apart).1 ?_) ..
      exact same ▸ mem_map_of_mem (mem_cons_of_mem x member)
    have skipped : unlink mem link slot x slot = mem (link x) := update_self ..
    cases after with
    | nil => exact skipped.trans chain.2
    | cons y rest =>
      refine ⟨skipped.trans chain.2.1, chain.2.2.congr (kept y mem_cons_self) ?_⟩
      exact fun z member => kept z (mem_cons_of_mem y member)
  | cons y rest ih =>
    obtain ⟨outside, apart'⟩ := nodup_cons.mp apart
    refine ⟨?_, ih chain.2 apart'⟩
    have reached : slotAfter link rest (link y) ∈ (y :: rest).map link := slotAfter_mem rest (link y)
    have notHead : slot ≠ slotAfter link rest (link y) := by
      rintro same
      refine outside (same ▸ ?_)
      rw [cons_append, map_cons, map_append]
      exact mem_append_left _ reached
    exact (update_of_ne notHead ..).trans chain.1

end Updates

/-! ## Families of lists

A family has one list for every active key.  Which nodes a list holds is given by `belongs`; the
order is left open.
-/

/-- The memory holds, for every active key, a list of exactly the nodes that belong to it. -/
structure Filed (mem : ς → Option ν) (link : ν → ς) (head : κ → ς) (stop : κ → Option ν)
    (active : κ → Prop) (belongs : κ → ν → Prop) : Prop where
  lists : ∀ k, active k → ∃ nodes, Chain mem link (stop k) nodes (head k) ∧ nodes.Nodup ∧
    ∀ x, x ∈ nodes ↔ belongs k x
  unique : ∀ k k' x, belongs k x → belongs k' x → k = k'
  apart : ∀ k k' x, belongs k x → head k' ≠ link x

namespace Filed

variable {mem mem' : ς → Option ν} {link : ν → ς} {head : κ → ς} {stop : κ → Option ν}
  {active active' : κ → Prop} {belongs belongs' : κ → ν → Prop}

section

omit [DecidableEq ς]

/-- Lists that are all empty. -/
theorem empty (heads : ∀ k, active k → mem (head k) = stop k) (none : ∀ k x, ¬belongs k x) :
    Filed mem link head stop active belongs where
  lists k on := ⟨[], heads k on, nodup_nil, fun x => iff_of_false not_mem_nil (none k x)⟩
  unique k _ x here := absurd here (none k x)
  apart k _ x here := absurd here (none k x)

theorem slots_nodup (linkInj : Function.Injective link)
    (filed : Filed mem link head stop active belongs) (nodup : nodes.Nodup)
    (members : ∀ x, x ∈ nodes ↔ belongs k x) : (head k :: nodes.map link).Nodup := by
  refine nodup_cons.mpr ⟨fun member => ?_, nodup.map linkInj⟩
  obtain ⟨x, inside, same⟩ := mem_map.mp member
  exact filed.apart k k x ((members x).mp inside) same.symm

theorem of_iff (filed : Filed mem link head stop active belongs)
    (same : ∀ k x, belongs' k x ↔ belongs k x) : Filed mem link head stop active belongs' := by
  have equal : belongs' = belongs := funext₂ fun k x => propext (same k x)
  exact equal ▸ filed

/-- A memory that agrees on the slots of the lists still in use files the same lists. -/
theorem frame (filed : Filed mem link head stop active belongs)
    (fewer : ∀ k, active' k → active k) (same : ∀ k, active' k → ∀ x, belongs' k x ↔ belongs k x)
    (less : ∀ k x, belongs' k x → belongs k x)
    (heads : ∀ k, active' k → mem' (head k) = mem (head k))
    (links : ∀ k x, active' k → belongs k x → mem' (link x) = mem (link x)) :
    Filed mem' link head stop active' belongs' where
  lists k on := by
    obtain ⟨nodes, chain, nodup, members⟩ := filed.lists k (fewer k on)
    refine ⟨nodes, ?_, nodup, fun x => (members x).trans (same k on x).symm⟩
    exact chain.congr (heads k on) fun x member => links k x on ((members x).mp member)
  unique k k' x here there := filed.unique k k' x (less k x here) (less k' x there)
  apart k k' x here := filed.apart k k' x (less k x here)

/-- A further key whose head already holds the end of its list gets an empty list. -/
theorem activate (filed : Filed mem link head stop active belongs) (empty : ∀ x, ¬ belongs k x)
    (more : ∀ k', active' k' → k' = k ∨ active k') (ends : mem' (head k) = stop k)
    (heads : ∀ k', k' ≠ k → mem' (head k') = mem (head k'))
    (links : ∀ k' x, belongs k' x → mem' (link x) = mem (link x)) :
    Filed mem' link head stop active' belongs where
  lists k' on := by
    by_cases same : k' = k
    · subst same
      exact ⟨[], ends, nodup_nil, fun x => iff_of_false not_mem_nil (empty x)⟩
    · obtain ⟨nodes, chain, nodup, members⟩ :=
        filed.lists k' ((more k' on).resolve_left same)
      refine ⟨nodes, chain.congr (heads k' same) fun x member => ?_, nodup, members⟩
      exact links k' x ((members x).mp member)
  unique := filed.unique
  apart := filed.apart

/-- Walking a list from its head without a hit ends at a null slot of that list. -/
theorem search_none [Fintype ν] (filed : Filed mem link head (fun _ => none) active belongs)
    (on : active k) (no_hit : ∀ x, belongs k x → hit x = false) (enough : Fintype.card ν < fuel) :
    ∃ slot, search mem link hit fuel (head k) = some (slot, none) ∧ mem slot = none ∧
      (slot = head k ∨ ∃ x, belongs k x ∧ slot = link x) := by
  obtain ⟨nodes, chain, nodup, members⟩ := filed.lists k on
  refine ⟨_, search_miss chain (fun x member => no_hit x ((members x).mp member))
    (nodup.length_le_card.trans_lt enough), ?_, ?_⟩
  · rw [← append_nil nodes, chain_append] at chain
    exact chain.2
  · rcases mem_cons.mp (@slotAfter_mem ς ν link nodes (head k)) with atHead | inside
    · exact Or.inl atHead
    · obtain ⟨x, member, same⟩ := mem_map.mp inside
      exact Or.inr ⟨x, (members x).mp member, same.symm⟩

end

section

variable (headInj : Function.Injective head) (linkInj : Function.Injective link)
  (filed : Filed mem link head stop active belongs)

include headInj linkInj filed

theorem push (fresh : ∀ k', ¬ belongs k' x) (notHead : ∀ k', head k' ≠ link x)
    (added : ∀ k' y, belongs' k' y ↔ belongs k' y ∨ k' = k ∧ y = x) :
    Filed (push mem link (head k) x) link head stop active belongs' where
  lists k' on := by
    obtain ⟨nodes, chain, nodup, members⟩ := filed.lists k' on
    have slots := filed.slots_nodup linkInj nodup members
    have notIn : x ∉ nodes := fun member => fresh k' ((members x).mp member)
    by_cases sameKey : k' = k
    · subst sameKey
      have notSlot : link x ∉ head k' :: nodes.map link := by
        rw [mem_cons, mem_map]
        rintro (same | ⟨y, member, same⟩)
        · exact notHead k' same.symm
        · exact notIn (linkInj same ▸ member)
      refine ⟨x :: nodes, chain.push notSlot (nodup_cons.mp slots).1,
        nodup_cons.mpr ⟨notIn, nodup⟩, fun y => ?_⟩
      rw [mem_cons, added, members, or_comm]
      simp
    · refine ⟨nodes, chain.congr ?_ fun y member => ?_, nodup, fun y => ?_⟩
      · rw [Links.push, update_of_ne fun same => sameKey (headInj same), update_of_ne (notHead k')]
      · have notX : link y ≠ link x := fun same => notIn (linkInj same ▸ member)
        rw [Links.push, update_of_ne (filed.apart k' k y ((members y).mp member)).symm,
          update_of_ne notX]
      · rw [members, added]
        simp [sameKey]
  unique k₁ k₂ y here there := by
    rcases (added k₁ y).mp here with here | ⟨rfl, rfl⟩ <;>
      rcases (added k₂ y).mp there with there | ⟨rfl, same⟩
    · exact filed.unique k₁ k₂ y here there
    · exact absurd (same ▸ here) (fresh k₁)
    · exact absurd there (fresh k₂)
    · rfl
  apart k₁ k₂ y here := by
    rcases (added k₁ y).mp here with here | ⟨-, rfl⟩
    · exact filed.apart k₁ k₂ y here
    · exact notHead k₂

/-- Unlinking a node of one list, at the slot that points to it, takes it out of the family. -/
theorem unlink (chain : Chain mem link (stop k) (before ++ x :: after) (head k))
    (nodup : (before ++ x :: after).Nodup) (members : ∀ y, y ∈ before ++ x :: after ↔ belongs k y)
    (removed : ∀ k' y, belongs' k' y ↔ belongs k' y ∧ y ≠ x) :
    Filed (unlink mem link (slotAfter link before (head k)) x) link head stop active
      belongs' where
  lists k' on := by
    have slots := filed.slots_nodup linkInj nodup members
    by_cases sameKey : k' = k
    · subst sameKey
      have middle := nodup_middle.mp nodup
      refine ⟨before ++ after, chain.unlink slots, (nodup_cons.mp middle).2, fun y => ?_⟩
      rw [removed, ← members, mem_append, mem_append, mem_cons]
      constructor
      · intro inside
        refine ⟨inside.imp id Or.inr, ?_⟩
        rintro rfl
        exact (nodup_cons.mp middle).1 (mem_append.mpr inside)
      · rintro ⟨inside | rfl | inside, other⟩
        · exact Or.inl inside
        · exact absurd rfl other
        · exact Or.inr inside
    · obtain ⟨nodes, chain', nodup', members'⟩ := filed.lists k' on
      have reached := @slotAfter_mem ς ν link before (head k)
      have elsewhere : ∀ y, belongs k' y → y ∉ before := fun y here member =>
        sameKey (filed.unique k' k y here ((members y).mp (mem_append_left _ member)))
      have keptHead : head k' ≠ slotAfter link before (head k) := by
        intro same
        rcases mem_cons.mp reached with atHead | inBefore
        · exact sameKey (headInj (same.trans atHead))
        · obtain ⟨y, member, atY⟩ := mem_map.mp inBefore
          exact filed.apart k k' y ((members y).mp (mem_append_left _ member))
            (same.trans atY.symm)
      have keptLink : ∀ y, belongs k' y → link y ≠ slotAfter link before (head k) := by
        intro y here same
        rcases mem_cons.mp reached with atHead | inBefore
        · exact filed.apart k' k y here (same.trans atHead).symm
        · obtain ⟨z, member, atZ⟩ := mem_map.mp inBefore
          exact elsewhere y here (linkInj (same.trans atZ.symm) ▸ member)
      refine ⟨nodes, chain'.congr (update_of_ne keptHead ..) fun y member => ?_, nodup',
        fun y => ?_⟩
      · exact update_of_ne (keptLink y ((members' y).mp member)) ..
      · rw [members', removed, iff_self_and]
        rintro here rfl
        exact sameKey (filed.unique k' k y here
          ((members y).mp (mem_append_right before mem_cons_self)))
  unique k₁ k₂ y here there :=
    filed.unique k₁ k₂ y ((removed k₁ y).mp here).1 ((removed k₂ y).mp there).1
  apart k₁ k₂ y here := filed.apart k₁ k₂ y ((removed k₁ y).mp here).1

/-- Walking a list from its head finds the first node that hits; unlinking it there takes it out. -/
theorem search_unlink [Fintype ν] (on : active k) (some_hit : ∃ x, belongs k x ∧ hit x = true)
    (enough : Fintype.card ν < fuel) :
    ∃ slot x, search mem link hit fuel (head k) = some (slot, some x) ∧ belongs k x ∧
      hit x = true ∧ ∀ belongs', (∀ k' y, belongs' k' y ↔ belongs k' y ∧ y ≠ x) →
        Filed (Links.unlink mem link slot x) link head stop active belongs' := by
  obtain ⟨nodes, chain, nodup, members⟩ := filed.lists k on
  obtain ⟨x, before, after, hits, split, misses⟩ :
      ∃ x before after, hit x = true ∧ nodes = before ++ x :: after ∧
        ∀ y ∈ before, hit y = false := by
    obtain ⟨x, here, hits⟩ := some_hit
    have found : (nodes.find? hit).isSome :=
      find?_isSome.mpr ⟨x, (members x).mpr here, hits⟩
    obtain ⟨y, foundY⟩ := Option.isSome_iff_exists.mp found
    obtain ⟨hitsY, before, after, split, misses⟩ := find?_eq_some_iff_append.mp foundY
    exact ⟨y, before, after, hitsY, split, fun z member => by simpa using misses z member⟩
  subst split
  have short : before.length < fuel := by
    have bound := nodup.length_le_card
    rw [length_append] at bound
    omega
  refine ⟨_, x, search_hit chain misses hits short,
    (members x).mp (mem_append_right before mem_cons_self), hits, fun _ removed => ?_⟩
  exact filed.unlink headInj linkInj chain nodup members removed

end

end Filed

/-- In a family of circular lists a node is found by walking from its own slot; unlinking it there
and clearing its slot takes it out. -/
theorem Filed.search_unlink_self [DecidableEq ν] [Fintype ν] {mem : ν → Option ν} {head : κ → ν}
    {active : κ → Prop} {belongs belongs' : κ → ν → Prop} (headInj : Function.Injective head)
    (filed : Filed mem id head (fun k => some (head k)) active belongs) (on : active k)
    (here : belongs k x) (enough : Fintype.card ν < fuel)
    (removed : ∀ k' y, belongs' k' y ↔ belongs k' y ∧ y ≠ x) :
    ∃ slot, search mem id (fun y => y = x) fuel x = some (slot, some x) ∧
      Filed (update (Links.unlink mem id slot x) x none) id head
        (fun k => some (head k)) active belongs' := by
  obtain ⟨nodes, chain, nodup, members⟩ := filed.lists k on
  obtain ⟨before, after, rfl⟩ := append_of_mem ((members x).mpr here)
  have slots := filed.slots_nodup Function.injective_id nodup members
  rw [map_id] at slots
  have circle : (after ++ head k :: before ++ [x]).Perm (head k :: (before ++ x :: after)) := by
    grind
  have circleNodup := circle.nodup_iff.mpr slots
  have misses : ∀ y ∈ after ++ head k :: before, decide (y = x) = false := by
    intro y member
    rw [decide_eq_false_iff_not]
    rintro rfl
    exact (nodup_append.mp circleNodup).2.2 y member y (mem_singleton_self y) rfl
  have short : (after ++ head k :: before).length < fuel := by
    have bound := circleNodup.length_le_card
    rw [length_append, length_singleton] at bound
    omega
  have found := search_hit chain.rotate misses (decide_eq_true rfl) short
  have reached : slotAfter id (after ++ head k :: before) x = slotAfter id before (head k) := by
    rw [slotAfter_append]
    rfl
  refine ⟨slotAfter id before (head k), reached ▸ found, ?_⟩
  have unlinked := filed.unlink headInj Function.injective_id chain nodup members removed
  refine unlinked.frame (fun _ => id) (fun _ _ _ => Iff.rfl) (fun _ _ => id) (fun k' _ => ?_)
    fun k' y _ inside => ?_
  · exact update_of_ne (filed.apart k k' x here) ..
  · exact update_of_ne ((removed k' y).mp inside).2 ..

end Qemu.Links
