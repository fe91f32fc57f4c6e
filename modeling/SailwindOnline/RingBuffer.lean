import Mathlib.Data.List.Basic

/-!
A ring of slots with the place of the next write and a count that stops at the
size. Slot `place % size` keeps what was written at `place` for as long as
fewer than a whole turn has been written since, so counting from the oldest
slot reads the last items in the order they came.
-/

namespace SailwindOnline.RingBuffer

variable {α : Type} {ring : Array α} {head count : Nat} {written : List α}

/-- The ring after everything in `written` went in, one item at a time. -/
structure Holds (ring : Array α) (head count : Nat) (written : List α) : Prop where
  head : head = written.length % ring.size
  count : count = min written.length ring.size
  slot : ∀ place, place < written.length → written.length ≤ place + ring.size →
    ring[place % ring.size]? = written[place]?

theorem Holds.empty (ring : Array α) : Holds ring 0 0 [] where
  head := by simp
  count := by simp
  slot := by simp

/-- Two places less than a turn apart share a slot only if they are one place. -/
theorem same_slot {size before after : Nat} (order : before ≤ after) (near : after < before + size)
    (same : before % size = after % size) : before = after := by
  have apart : (after - before) % size = 0 := Nat.sub_mod_eq_zero_of_mod_eq same.symm
  rw [Nat.mod_eq_of_lt (by omega)] at apart
  omega

theorem Holds.push (holds : Holds ring head count written) (positive : 0 < ring.size) (item : α) :
    Holds (ring.setIfInBounds head item) ((head + 1) % ring.size)
      (if count < ring.size then count + 1 else count) (written ++ [item]) := by
  have counted := holds.count
  have inside : head < ring.size := by
    rw [holds.head]
    exact Nat.mod_lt _ positive
  constructor
  · rw [Array.size_setIfInBounds, List.length_append, List.length_singleton, holds.head, Nat.mod_add_mod]
  · rw [Array.size_setIfInBounds, List.length_append, List.length_singleton]
    split <;> omega
  · intro place old recent
    rw [Array.size_setIfInBounds] at recent ⊢
    rw [List.length_append, List.length_singleton] at old recent
    by_cases newest : place = written.length
    · -- The slot that was overwritten.
      subst newest
      rw [← holds.head, Array.getElem?_setIfInBounds_self_of_lt inside, List.getElem?_concat_length]
    · have earlier : place < written.length := by omega
      have elsewhere : head ≠ place % ring.size := by
        intro same
        have meet : place % ring.size = written.length % ring.size := by rw [← same, holds.head]
        exact newest (same_slot (by omega) (by omega) meet)
      rw [Array.getElem?_setIfInBounds_ne elsewhere, holds.slot place earlier (by omega),
        List.getElem?_append_left earlier]

/-- Counting `count` slots back from the head reaches the oldest item still there. -/
theorem Holds.oldest (holds : Holds ring head count written) (index : Nat) :
    ((head + ring.size - count) % ring.size + index) % ring.size =
      (written.length - count + index) % ring.size := by
  have counted := holds.count
  rw [Nat.mod_add_mod]
  by_cases filling : written.length < ring.size
  · have all : count = written.length := by omega
    have unwrapped : head = written.length := by rw [holds.head, Nat.mod_eq_of_lt filling]
    rw [all, unwrapped, Nat.sub_self, Nat.add_sub_cancel_left, Nat.zero_add, Nat.add_mod_left]
  · have full : count = ring.size := by omega
    have turn : written.length - ring.size + index + ring.size = written.length + index := by omega
    rw [full, Nat.add_sub_cancel, holds.head, Nat.mod_add_mod, ← turn, Nat.add_mod_right]

theorem Holds.read (holds : Holds ring head count written) {index : Nat} (retained : index < count) :
    ring[((head + ring.size - count) % ring.size + index) % ring.size]? =
      (written.drop (written.length - count))[index]? := by
  have counted := holds.count
  rw [holds.oldest, List.getElem?_drop]
  exact holds.slot _ (by omega) (by omega)

end SailwindOnline.RingBuffer
