import Mathlib.Data.List.Nodup
import Mathlib.Data.List.Perm.Basic

/-!
Slots handed out by number and recycled through a queue. A released slot joins
the back of the queue; only the prefix counted by `available` may be handed out
again, so a slot released during an epoch rests until the next one begins.
-/

namespace SailwindOnline

structure SlotPool (Holder : Type) where
  slots : List (Option Holder)
  free : List Nat
  available : Nat

namespace SlotPool
variable {Holder : Type}

def holder (pool : SlotPool Holder) (slot : Nat) : Option Holder := pool.slots[slot]?.join

/-- Slots released since the epoch began; none of them is handed out before the next one. -/
def resting (pool : SlotPool Holder) : List Nat := pool.free.drop pool.available

def beginEpoch (pool : SlotPool Holder) : SlotPool Holder :=
  { pool with available := pool.free.length }

def allocate (capacity : Nat) (pool : SlotPool Holder) : SlotPool Holder × Option Nat :=
  if pool.slots.length < capacity then
    ({ pool with slots := pool.slots ++ [none] }, some pool.slots.length)
  else if pool.available > 0 then
    ({ pool with available := pool.available - 1, free := pool.free.tail }, pool.free.head?)
  else (pool, none)

def occupy (pool : SlotPool Holder) (slot : Nat) (owner : Holder) : SlotPool Holder :=
  { pool with slots := pool.slots.set slot (some owner) }

def release (pool : SlotPool Holder) (slot : Nat) : SlotPool Holder :=
  { pool with slots := pool.slots.set slot none, free := pool.free ++ [slot] }

structure WellFormed (capacity : Nat) (pool : SlotPool Holder) : Prop where
  unique : pool.free.Nodup
  free_iff : ∀ slot, slot ∈ pool.free ↔ pool.slots[slot]? = some none
  bounded : pool.slots.length ≤ capacity
  within : pool.available ≤ pool.free.length

variable {capacity : Nat} {pool : SlotPool Holder}

theorem wellFormed_empty (capacity : Nat) :
    WellFormed capacity ({ slots := [], free := [], available := 0 } : SlotPool Holder) where
  unique := List.nodup_nil
  free_iff := by simp
  bounded := Nat.zero_le _
  within := Nat.le_refl _

theorem wellFormed_beginEpoch (formed : WellFormed capacity pool) :
    WellFormed capacity pool.beginEpoch where
  unique := formed.unique
  free_iff := formed.free_iff
  bounded := formed.bounded
  within := Nat.le_refl _

@[simp] theorem holder_beginEpoch (slot : Nat) : pool.beginEpoch.holder slot = pool.holder slot := rfl

@[simp] theorem resting_beginEpoch : pool.beginEpoch.resting = [] := by
  simp [resting, beginEpoch]

theorem holder_free (formed : WellFormed capacity pool) {slot : Nat} (member : slot ∈ pool.free) :
    pool.holder slot = none := by
  simp [holder, (formed.free_iff slot).mp member]

theorem holder_eq_some (pool : SlotPool Holder) {slot : Nat} {owner : Holder} :
    pool.holder slot = some owner ↔ pool.slots[slot]? = some (some owner) := by
  simp [holder, Option.join_eq_some_iff]

theorem lt_of_holder {slot : Nat} {owner : Holder} (held : pool.holder slot = some owner) :
    slot < pool.slots.length := by
  obtain ⟨bound, -⟩ := List.getElem?_eq_some_iff.mp ((holder_eq_some pool).mp held)
  exact bound

/-- What handing out `slot` and recording its owner does to the pool. -/
structure Issued (capacity : Nat) (pool : SlotPool Holder) (slot : Nat) (owner : Holder)
    (after : SlotPool Holder) : Prop where
  formed : WellFormed capacity after
  vacant : pool.holder slot = none
  rested : slot ∉ pool.resting
  below : slot < capacity
  holder_eq : ∀ other, after.holder other = if other = slot then some owner else pool.holder other
  resting_eq : after.resting = pool.resting
  balance : after.slots.length + pool.free.length = pool.slots.length + after.free.length + 1
  grows : pool.slots.length ≤ after.slots.length

theorem issued_new (formed : WellFormed capacity pool) (room : pool.slots.length < capacity)
    (owner : Holder) :
    Issued capacity pool pool.slots.length owner
      { pool with slots := (pool.slots ++ [none]).set pool.slots.length (some owner) } := by
  have slots_eq : (pool.slots ++ [none]).set pool.slots.length (some owner) =
      pool.slots ++ [some owner] := by simp
  have outside : ∀ slot ∈ pool.free, slot < pool.slots.length := by
    intro slot member
    exact (List.getElem?_eq_some_iff.mp ((formed.free_iff slot).mp member)).1
  rw [slots_eq]
  refine ⟨⟨formed.unique, ?_, ?_, formed.within⟩, ?_, ?_, room, ?_, rfl, ?_, ?_⟩
  · intro slot
    rw [formed.free_iff, List.getElem?_append]
    split <;> rename_i position
    · rfl
    · rcases Nat.eq_or_lt_of_le (Nat.le_of_not_lt position) with same | beyond
      · simp [same]
      · rw [List.getElem?_eq_none (by omega), List.getElem?_eq_none (by simp; omega)]
  · simpa using Nat.succ_le_of_lt room
  · simp [holder]
  · intro member
    exact Nat.lt_irrefl _ (outside _ (List.mem_of_mem_drop member))
  · intro other
    simp only [holder, List.getElem?_append]
    split <;> rename_i position
    · rw [if_neg (by omega)]
    · rcases Nat.eq_or_lt_of_le (Nat.le_of_not_lt position) with same | beyond
      · simp [same]
      · rw [if_neg (by omega), List.getElem?_eq_none (by simp; omega),
          List.getElem?_eq_none (by omega)]
  · simp
    omega
  · simp

theorem issued_recycled (formed : WellFormed capacity pool) (ready : 0 < pool.available)
    (owner : Holder) :
    ∃ slot rest, pool.free = slot :: rest ∧
      Issued capacity pool slot owner
        { slots := pool.slots.set slot (some owner), free := rest, available := pool.available - 1 } := by
  cases queue : pool.free with
  | nil =>
      have within := formed.within
      simp only [queue, List.length_nil] at within
      omega
  | cons slot rest =>
      have unique := formed.unique
      rw [queue, List.nodup_cons] at unique
      have vacantSlot : pool.slots[slot]? = some none := (formed.free_iff slot).mp (by simp [queue])
      have inside : slot < pool.slots.length := (List.getElem?_eq_some_iff.mp vacantSlot).1
      obtain ⟨before, counted⟩ : ∃ before, pool.available = before + 1 :=
        ⟨pool.available - 1, by omega⟩
      -- The front of the queue is ready, so taking it leaves the resting tail as it was.
      have resting_eq : rest.drop (pool.available - 1) = pool.resting := by
        simp [resting, queue, counted]
      refine ⟨slot, rest, rfl, ⟨⟨unique.2, ?_, ?_, ?_⟩, ?_, ?_, ?_, ?_, resting_eq, ?_, ?_⟩⟩
      · intro other
        have free_iff := formed.free_iff other
        rw [queue, List.mem_cons] at free_iff
        rw [List.getElem?_set]
        by_cases same : slot = other
        · subst same
          simp [inside, unique.1]
        · simp only [same, if_false, ← free_iff]
          constructor
          · exact Or.inr
          · rintro (equal | member)
            · exact absurd equal.symm same
            · exact member
      · simpa using formed.bounded
      · have within := formed.within
        simp only [queue, List.length_cons] at within
        show pool.available - 1 ≤ rest.length
        omega
      · simp [holder, vacantSlot]
      · rw [← resting_eq]
        exact fun member => unique.1 (List.mem_of_mem_drop member)
      · exact Nat.lt_of_lt_of_le inside formed.bounded
      · intro other
        simp only [holder, List.getElem?_set]
        by_cases same : slot = other
        · subst same
          simp [inside]
        · simp [same, Ne.symm same]
      · simp [queue]
        omega
      · simp

/-- A pool either hands out a vacant slot that is not resting, or is left as it was. -/
theorem allocate_spec (formed : WellFormed capacity pool) (owner : Holder) :
    (∃ slot, (pool.allocate capacity).2 = some slot ∧
      Issued capacity pool slot owner ((pool.allocate capacity).1.occupy slot owner)) ∨
    (pool.allocate capacity = (pool, none) ∧ pool.slots.length = capacity) := by
  by_cases room : pool.slots.length < capacity
  · left
    refine ⟨pool.slots.length, by simp [allocate, room], ?_⟩
    simpa [allocate, room, occupy] using issued_new formed room owner
  · by_cases ready : pool.available > 0
    · left
      obtain ⟨slot, rest, queue, issued⟩ := issued_recycled formed ready owner
      refine ⟨slot, by simp [allocate, room, ready, queue], ?_⟩
      simpa [allocate, room, ready, occupy, queue] using issued
    · right
      have bounded := formed.bounded
      exact ⟨by simp [allocate, room, ready], by omega⟩

/-- What returning an occupied slot does to the pool. -/
structure Released (capacity : Nat) (pool : SlotPool Holder) (slot : Nat) : Prop where
  formed : WellFormed capacity (pool.release slot)
  holder_eq : ∀ other,
    (pool.release slot).holder other = if other = slot then none else pool.holder other
  resting_eq : (pool.release slot).resting = pool.resting ++ [slot]

theorem release_spec (formed : WellFormed capacity pool) {slot : Nat} {owner : Holder}
    (held : pool.holder slot = some owner) : Released capacity pool slot := by
  have inside := lt_of_holder held
  have occupied : slot ∉ pool.free := by
    intro member
    rw [holder_free formed member] at held
    cases held
  refine ⟨⟨?_, ?_, ?_, ?_⟩, ?_, ?_⟩
  · simp only [release]
    exact formed.unique.append (List.nodup_singleton slot) (by simpa using occupied)
  · intro other
    simp only [release, List.mem_append, List.mem_singleton, List.getElem?_set]
    by_cases same : slot = other
    · subst same
      simp [inside]
    · simp [same, Ne.symm same, formed.free_iff]
  · simpa [release] using formed.bounded
  · have within := formed.within
    simp only [release, List.length_append, List.length_singleton]
    omega
  · intro other
    simp only [release, holder, List.getElem?_set]
    by_cases same : slot = other
    · subst same
      simp [inside]
    · simp [same, Ne.symm same]
  · simp only [release, resting]
    exact List.drop_append_of_le_length formed.within

end SlotPool
end SailwindOnline
