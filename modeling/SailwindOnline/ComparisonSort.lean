import Mathlib.Data.List.FinRange
import Mathlib.Logic.Equiv.Basic
import Mathlib.Order.Basic

/-!
Sorting with a comparison that may tie. A sort promises a sorted permutation and
sees its items through the comparison only, and it promises nothing about the
order of ties: what it returns depends on the input's order exactly where
different items tie.
-/

namespace SailwindOnline

/-- An unstable sort: ties keep some order that the outcomes of the comparison decide. -/
structure ListSort where
  sort : {α : Type} → (α → α → Ordering) → List α → List α
  perm : ∀ {α : Type} (cmp : α → α → Ordering) (items : List α), (sort cmp items).Perm items
  sorted : ∀ {α : Type} (cmp : α → α → Ordering) [Std.TransCmp cmp] (items : List α),
    (sort cmp items).Pairwise fun left right => (cmp left right).isLE
  natural : ∀ {α β : Type} (cmp : β → β → Ordering) (f : α → β) (items : List α),
    sort cmp (items.map f) = (sort (fun left right => cmp (f left) (f right)) items).map f

namespace ListSort

variable {α β : Type} {cmp : α → α → Ordering} [Std.TransCmp cmp] {items : List α}

theorem merge_sorted (cmp : α → α → Ordering) [Std.TransCmp cmp] (items : List α) :
    (items.mergeSort fun left right => (cmp left right).isLE).Pairwise fun left right => (cmp left right).isLE := by
  apply List.pairwise_mergeSort
  · intro first second third
    exact Std.TransCmp.isLE_trans
  · intro first second
    have swapped : cmp second first = (cmp first second).swap := Std.OrientedCmp.eq_swap
    rw [swapped]
    cases cmp first second <;> rfl

def merge : ListSort where
  sort cmp items := items.mergeSort fun left right => (cmp left right).isLE
  perm cmp items := List.mergeSort_perm items _
  sorted := merge_sorted
  natural cmp f items := by
    symm
    apply List.map_mergeSort
    intro left _ right _
    rfl

theorem sort_eq_of_perm (sorter : ListSort) {other : List α} (same : other.Perm items)
    (separated : ∀ left ∈ items, ∀ right ∈ items, cmp left right = .eq → left = right) :
    sorter.sort cmp other = sorter.sort cmp items := by
  have shuffled : (sorter.sort cmp other).Perm (sorter.sort cmp items) :=
    (sorter.perm cmp other).trans (same.trans (sorter.perm cmp items).symm)
  refine List.Perm.eq_of_pairwise ?_ (sorter.sorted cmp other) (sorter.sorted cmp items) shuffled
  intro left right inOther inItems before after
  have held := same.subset ((sorter.perm cmp other).subset inOther)
  have kept := (sorter.perm cmp items).subset inItems
  exact separated left held right kept (Std.OrientedCmp.isLE_antisymm before after)

def exchanged (items : List α) (i j : Fin items.length) : List α :=
  (List.finRange items.length).map fun place => items.get (Equiv.swap i j place)

theorem exchanged_perm (items : List α) (i j : Fin items.length) : (exchanged items i j).Perm items := by
  have shuffled := (Equiv.Perm.map_finRange_perm (Equiv.swap i j)).map items.get
  rw [List.map_map, List.map_get_finRange] at shuffled
  exact shuffled

theorem cmp_exchanged {i j : Fin items.length} (tie : cmp (items.get i) (items.get j) = .eq)
    (left right : Fin items.length) :
    cmp (items.get (Equiv.swap i j left)) (items.get (Equiv.swap i j right)) =
      cmp (items.get left) (items.get right) := by
  have alike : ∀ place, cmp (items.get (Equiv.swap i j place)) (items.get place) = .eq := by
    intro place
    by_cases first : place = i
    · rw [first, Equiv.swap_apply_left]
      exact Std.OrientedCmp.eq_symm tie
    · by_cases second : place = j
      · rw [second, Equiv.swap_apply_right]
        exact tie
      · rw [Equiv.swap_apply_of_ne_of_ne first second]
        exact Std.ReflCmp.compare_self
  rw [Std.TransCmp.congr_left (alike left), Std.TransCmp.congr_right (alike right)]

/-- With tied items exchanged the sort makes the same moves, so the two come out exchanged. -/
theorem sort_exchanged (sorter : ListSort) {i j : Fin items.length} (tie : cmp (items.get i) (items.get j) = .eq) :
    ∃ order : List (Fin items.length), order.Perm (List.finRange items.length) ∧
      sorter.sort cmp items = order.map items.get ∧
      sorter.sort cmp (exchanged items i j) = order.map fun place => items.get (Equiv.swap i j place) := by
  refine ⟨sorter.sort (fun left right => cmp (items.get left) (items.get right)) (List.finRange items.length),
    sorter.perm _ _, ?_, ?_⟩
  · rw [← sorter.natural, List.map_get_finRange]
  · rw [exchanged, sorter.natural]
    congr 2
    funext left right
    exact cmp_exchanged tie left right

/-- Where a view of the items tells two tied ones apart, the view shows the input's order. -/
theorem sort_shows_order (sorter : ListSort) (view : α → β) {i j : Fin items.length}
    (tie : cmp (items.get i) (items.get j) = .eq) (apart : view (items.get i) ≠ view (items.get j)) :
    (sorter.sort cmp (exchanged items i j)).map view ≠ (sorter.sort cmp items).map view := by
  obtain ⟨order, all, straight, crossed⟩ := sorter.sort_exchanged tie
  rw [straight, crossed, List.map_map, List.map_map]
  intro same
  have placed : i ∈ order := all.symm.subset (List.mem_finRange i)
  have moved := List.map_inj_left.mp same i placed
  simp only [Function.comp_apply, Equiv.swap_apply_left] at moved
  exact apart moved.symm

end ListSort

end SailwindOnline
