import Mathlib.Data.Finset.Basic
import Mathlib.Data.List.Nodup

/-!
A set kept in step by deltas. One side holds the set, the other replays the
deltas it was sent; a log is faithful when every delta is exact against the
view the earlier ones add up to, so that it never adds what is held, removes
what is not, or says one thing twice.
-/

namespace SailwindOnline.SetDeltas

section Deltas
variable {Item : Type} [DecidableEq Item]

structure Delta (Item : Type) where
  added : List Item
  removed : List Item

def Delta.apply (view : Finset Item) (delta : Delta Item) : Finset Item :=
  (view \ delta.removed.toFinset) ∪ delta.added.toFinset

structure Delta.Exact (limit : Nat) (view : Finset Item) (delta : Delta Item) : Prop where
  bounded : delta.added.length + delta.removed.length ≤ limit
  added_fresh : ∀ item ∈ delta.added, item ∉ view
  removed_held : ∀ item ∈ delta.removed, item ∈ view
  disjoint : delta.added.Disjoint delta.removed
  added_nodup : delta.added.Nodup
  removed_nodup : delta.removed.Nodup

/-- The view of a receiver that started with `start`. -/
def replay (start : Finset Item) (log : List (Delta Item)) : Finset Item := log.foldl Delta.apply start

def Faithful (limit : Nat) : Finset Item → List (Delta Item) → Prop
  | _, [] => True
  | view, delta :: rest => delta.Exact limit view ∧ Faithful limit (delta.apply view) rest

@[simp] theorem replay_append (start : Finset Item) (early late : List (Delta Item)) :
    replay start (early ++ late) = replay (replay start early) late := by
  simp [replay]

theorem faithful_append {limit : Nat} {start : Finset Item} {early late : List (Delta Item)} :
    Faithful limit start (early ++ late) ↔
      Faithful limit start early ∧ Faithful limit (replay start early) late := by
  induction early generalizing start with
  | nil => simp [Faithful, replay]
  | cons delta rest ih =>
      rw [List.cons_append, Faithful, ih, Faithful, and_assoc]
      rfl

/-- A delta drawn from the difference of two sets is exact against the first. -/
theorem exact_of_difference {limit : Nat} {view target : Finset Item} {delta : Delta Item}
    (bounded : delta.added.length + delta.removed.length ≤ limit)
    (added : ∀ item ∈ delta.added, item ∈ target \ view)
    (removed : ∀ item ∈ delta.removed, item ∈ view \ target)
    (added_nodup : delta.added.Nodup) (removed_nodup : delta.removed.Nodup) :
    delta.Exact limit view where
  bounded := bounded
  added_fresh := fun item member => (Finset.mem_sdiff.mp (added item member)).2
  removed_held := fun item member => (Finset.mem_sdiff.mp (removed item member)).1
  disjoint := fun item new old =>
    (Finset.mem_sdiff.mp (added item new)).2 (Finset.mem_sdiff.mp (removed item old)).1
  added_nodup := added_nodup
  removed_nodup := removed_nodup

end Deltas
end SailwindOnline.SetDeltas
