import Mathlib.Data.Finset.Sort
import Mathlib.Data.List.Rotate
import Mathlib.Data.List.Sort

/-!
Finite sets walked in ascending order. `ascending` lists a set as an ordered
set iterates over it, and evaluates; `orderedAfter` resumes the walk after a
cursor and wraps around once, as a round-robin scheduler does.
-/

namespace SailwindOnline.OrderedSet

section Walk
variable {Key : Type} [LinearOrder Key]

def ascending (keys : Finset Key) : List Key :=
  Quot.liftOn keys.val (fun list => list.insertionSort (· ≤ ·)) fun _ _ same =>
    List.Perm.eq_of_pairwise' (List.pairwise_insertionSort _ _) (List.pairwise_insertionSort _ _)
      (((List.perm_insertionSort _ _).trans same).trans (List.perm_insertionSort _ _).symm)

theorem ascending_perm (keys : Finset Key) : (ascending keys : Multiset Key) = keys.val := by
  rcases keys with ⟨members, unique⟩
  induction members using Quot.ind with
  | mk list => exact Quot.sound (List.perm_insertionSort _ _)

@[simp] theorem mem_ascending (keys : Finset Key) (key : Key) : key ∈ ascending keys ↔ key ∈ keys := by
  rw [← Multiset.mem_coe, ascending_perm, Finset.mem_val]

theorem ascending_nodup (keys : Finset Key) : (ascending keys).Nodup := by
  rw [← Multiset.coe_nodup, ascending_perm]
  exact keys.nodup

@[simp] theorem ascending_length (keys : Finset Key) : (ascending keys).length = keys.card := by
  rw [← Multiset.coe_card, ascending_perm, Finset.card_val]

theorem ascending_sorted (keys : Finset Key) : (ascending keys).Pairwise (· < ·) := by
  have weak : (ascending keys).Pairwise (· ≤ ·) := by
    rcases keys with ⟨members, unique⟩
    induction members using Quot.ind with
    | mk list => exact List.pairwise_insertionSort _ _
  exact (weak.and (ascending_nodup keys)).imp fun both => lt_of_le_of_ne both.1 both.2

theorem ascending_toFinset [DecidableEq Key] {list : List Key} (sorted : list.Pairwise (· < ·)) :
    ascending list.toFinset = list := by
  have same : (ascending list.toFinset).Perm list := by
    refine (List.perm_ext_iff_of_nodup (ascending_nodup _) (sorted.imp ne_of_lt)).mpr fun key => ?_
    rw [mem_ascending, List.mem_toFinset]
  exact same.eq_of_pairwise (fun _ _ _ _ below above => absurd (below.trans above) (lt_irrefl _))
    (ascending_sorted _) sorted

/-- The walk of `keys` after `cursor`, wrapping around once, of at most `limit` keys. -/
def orderedAfter (keys : Finset Key) (cursor : Option Key) (limit : Nat) : List Key :=
  let limit := min limit keys.card
  match cursor with
  | some cursor =>
    ((ascending keys).filter (cursor < ·) ++ (ascending keys).filter (· ≤ cursor)).take limit
  | none => (ascending keys).take limit

/-- All keys, in the order a walk resumed after `cursor` meets them. -/
def circle (keys : Finset Key) (cursor : Option Key) : List Key :=
  match cursor with
  | some cursor => (ascending keys).filter (cursor < ·) ++ (ascending keys).filter (· ≤ cursor)
  | none => ascending keys

theorem orderedAfter_eq_take (keys : Finset Key) (cursor : Option Key) (limit : Nat) :
    orderedAfter keys cursor limit = (circle keys cursor).take (min limit keys.card) := by
  cases cursor <;> rfl

/-! The circle only turns: a walk that takes `window` keys rotates it by `window`. -/

theorem filter_cut {list : List Key} {bound : Key} {cut : Nat}
    (low : ∀ key ∈ list.take cut, key ≤ bound) (high : ∀ key ∈ list.drop cut, bound < key) :
    list.filter (bound < ·) ++ list.filter (· ≤ bound) = list.drop cut ++ list.take cut := by
  have above : list.filter (bound < ·) = list.drop cut := by
    conv_lhs => rw [← List.take_append_drop cut list]
    rw [List.filter_append, List.filter_eq_nil_iff.mpr, List.filter_eq_self.mpr, List.nil_append]
    · simpa using high
    · simpa using low
  have below : list.filter (· ≤ bound) = list.take cut := by
    conv_lhs => rw [← List.take_append_drop cut list]
    rw [List.filter_append, List.filter_eq_self.mpr, List.filter_eq_nil_iff.mpr, List.append_nil]
    · simpa using high
    · simpa using low
  rw [above, below]

theorem exists_cut (list : List Key) (sorted : list.Pairwise (· < ·)) (bound : Key) :
    ∃ cut ≤ list.length, (∀ key ∈ list.take cut, key ≤ bound) ∧ ∀ key ∈ list.drop cut, bound < key := by
  induction list with
  | nil => exact ⟨0, Nat.le_refl 0, by simp, by simp⟩
  | cons head rest ih =>
      obtain ⟨lowest, tail⟩ := List.pairwise_cons.mp sorted
      by_cases below : head ≤ bound
      · obtain ⟨cut, inside, low, high⟩ := ih tail
        exact ⟨cut + 1, by simpa using inside, by simpa [below] using low, by simpa using high⟩
      · refine ⟨0, Nat.zero_le _, by simp, ?_⟩
        have first : bound < head := lt_of_not_ge below
        simpa [first] using fun key member => first.trans (lowest key member)

theorem circle_rotates (keys : Finset Key) (cursor : Option Key) :
    ∃ cut ≤ (ascending keys).length, circle keys cursor = (ascending keys).rotate cut := by
  cases cursor with
  | none => exact ⟨0, Nat.zero_le _, by simp [circle]⟩
  | some cursor =>
      obtain ⟨cut, inside, low, high⟩ := exists_cut (ascending keys) (ascending_sorted keys) cursor
      refine ⟨cut, inside, ?_⟩
      rw [List.rotate_eq_drop_append_take inside]
      exact filter_cut low high

theorem circle_after (keys : Finset Key) {position : Nat} (inside : position < (ascending keys).length) :
    circle keys (some ((ascending keys)[position])) = (ascending keys).rotate (position + 1) := by
  have sorted := ascending_sorted keys
  rw [List.rotate_eq_drop_append_take inside]
  refine filter_cut ?_ ?_
  · intro key member
    obtain ⟨index, bounded, rfl⟩ := List.mem_take_iff_getElem.mp member
    rcases Nat.lt_or_ge index position with before | here
    · exact (List.pairwise_iff_getElem.mp sorted _ _ _ _ before).le
    · exact le_of_eq (by congr; omega)
  · intro key member
    obtain ⟨index, bounded, rfl⟩ := List.mem_drop_iff_getElem.mp member
    exact List.pairwise_iff_getElem.mp sorted _ _ _ _ (by omega)

theorem circle_length (keys : Finset Key) (cursor : Option Key) :
    (circle keys cursor).length = keys.card := by
  obtain ⟨cut, -, turned⟩ := circle_rotates keys cursor
  rw [turned, List.length_rotate, ascending_length]

theorem circle_nodup (keys : Finset Key) (cursor : Option Key) : (circle keys cursor).Nodup := by
  obtain ⟨cut, -, turned⟩ := circle_rotates keys cursor
  rw [turned, List.nodup_rotate]
  exact ascending_nodup keys

@[simp] theorem mem_circle (keys : Finset Key) (cursor : Option Key) (key : Key) :
    key ∈ circle keys cursor ↔ key ∈ keys := by
  obtain ⟨cut, -, turned⟩ := circle_rotates keys cursor
  rw [turned, List.mem_rotate, mem_ascending]

/-- Resuming after the last key of a walk turns the circle by the length of the walk. -/
theorem circle_getLast (keys : Finset Key) (cursor : Option Key) {window : Nat} (positive : 0 < window)
    (fits : window ≤ keys.card) {last : Key}
    (ended : ((circle keys cursor).take window).getLast? = some last) :
    circle keys (some last) = (circle keys cursor).rotate window := by
  obtain ⟨cut, -, turned⟩ := circle_rotates keys cursor
  have size : (circle keys cursor).length = (ascending keys).length := by
    rw [circle_length, ascending_length]
  have inhabited : 0 < (ascending keys).length := by
    rw [ascending_length]
    omega
  have place : last = (ascending keys).get ⟨(window - 1 + cut) % (ascending keys).length,
      Nat.mod_lt _ inhabited⟩ := by
    rw [List.getLast?_eq_getElem?, List.length_take, circle_length, Nat.min_eq_left fits,
      List.getElem?_take_of_lt (by omega), List.getElem?_eq_some_iff] at ended
    obtain ⟨bounded, found⟩ := ended
    simp only [turned] at found
    rw [List.getElem_rotate] at found
    exact found.symm
  rw [place, List.get_eq_getElem, circle_after, turned, List.rotate_rotate,
    ← List.rotate_mod (ascending keys) (cut + window), ← List.rotate_mod (ascending keys) (_ + 1)]
  congr 1
  rw [Nat.mod_add_mod]
  congr 1
  omega

theorem idxOf_rotate {list : List Key} (unique : list.Nodup) {key : Key} (member : key ∈ list)
    {window : Nat} (fits : window ≤ list.length) :
    (list.rotate window).idxOf key = (list.idxOf key + (list.length - window)) % list.length := by
  have inside : list.idxOf key < list.length := List.idxOf_lt_length_iff.mpr member
  have shifted : (list.idxOf key + (list.length - window)) % list.length < (list.rotate window).length := by
    rw [List.length_rotate]
    exact Nat.mod_lt _ (by omega)
  have found : (list.rotate window)[(list.idxOf key + (list.length - window)) % list.length] = key := by
    rw [List.getElem_rotate]
    have back : ((list.idxOf key + (list.length - window)) % list.length + window) % list.length =
        list.idxOf key := by
      rw [Nat.mod_add_mod, show list.idxOf key + (list.length - window) + window =
        list.idxOf key + list.length by omega, Nat.add_mod_right, Nat.mod_eq_of_lt inside]
    simp only [back]
    exact List.getElem_idxOf inside
  conv_lhs => rw [← found]
  exact (List.nodup_rotate.mpr unique).idxOf_getElem _ shifted

end Walk

end SailwindOnline.OrderedSet
