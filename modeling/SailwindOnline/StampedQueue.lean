import SailwindOnline.FiniteMap

/-!
Marks looked up by key beside a queue of keys with the stamps they were given.
A mark that is dropped leaves its entry behind, so the queue may hold entries
of no mark; every mark still has the one entry of its stamp, and marks that
fall due in the order of their stamps fall due along the queue.
-/

namespace SailwindOnline.StampedQueue

variable {Key Stamp Mark : Type} {rank : Stamp → Nat} {stamp : Mark → Stamp} {due : Mark → Nat}
  {marks after : Key → Option Mark} {order : List (Key × Stamp)} {next limit : Nat}

structure Queued (rank : Stamp → Nat) (stamp : Mark → Stamp) (marks : Key → Option Mark)
    (order : List (Key × Stamp)) (next : Nat) : Prop where
  ascending : order.Pairwise fun early late => rank early.2 < rank late.2
  issued : ∀ entry ∈ order, rank entry.2 ≤ next
  listed : ∀ key mark, marks key = some mark → (key, stamp mark) ∈ order

/-- Nothing falls due after `limit`, and what was stamped first falls due first. -/
structure Timed (rank : Stamp → Nat) (stamp : Mark → Stamp) (due : Mark → Nat) (marks : Key → Option Mark)
    (limit : Nat) : Prop where
  within : ∀ key mark, marks key = some mark → due mark ≤ limit
  ordered : ∀ early late first second, marks early = some first → marks late = some second →
    rank (stamp first) < rank (stamp second) → due first ≤ due second

/-- No key gains a mark, and a mark keeps its stamp and when it falls due. -/
def Fewer (stamp : Mark → Stamp) (due : Mark → Nat) (marks after : Key → Option Mark) : Prop :=
  ∀ key mark, after key = some mark →
    ∃ earlier, marks key = some earlier ∧ stamp earlier = stamp mark ∧ due earlier = due mark

theorem Fewer.of_within (within : ∀ key mark, after key = some mark → marks key = some mark) :
    Fewer stamp due marks after :=
  fun key mark found => ⟨mark, within key mark found, rfl, rfl⟩

theorem Fewer.refl (marks : Key → Option Mark) : Fewer stamp due marks marks :=
  .of_within fun _ _ found => found

theorem Fewer.trans {middle : Key → Option Mark} (first : Fewer stamp due marks middle)
    (second : Fewer stamp due middle after) : Fewer stamp due marks after := by
  intro key mark found
  obtain ⟨between, held, stamped, timed⟩ := second key mark found
  obtain ⟨earlier, present, firstStamped, firstTimed⟩ := first key between held
  exact ⟨earlier, present, firstStamped.trans stamped, firstTimed.trans timed⟩

section Queues

theorem Queued.empty (none : ∀ key, marks key = none) (next : Nat) : Queued rank stamp marks [] next where
  ascending := .nil
  issued := by simp
  listed key mark found := by simp [none key] at found

theorem Queued.fewer (queued : Queued rank stamp marks order next) (fewer : Fewer stamp due marks after) :
    Queued rank stamp after order next where
  ascending := queued.ascending
  issued := queued.issued
  listed key mark found := by
    obtain ⟨earlier, held, stamped, -⟩ := fewer key mark found
    rw [← stamped]
    exact queued.listed key earlier held

/-- The front entry goes, and with it the mark it stood for, if there was one. -/
theorem Queued.popped {key : Key} {front : Stamp} {rest : List (Key × Stamp)}
    (queued : Queued rank stamp marks ((key, front) :: rest) next) (fewer : Fewer stamp due marks after)
    (gone : ∀ mark, after key = some mark → stamp mark ≠ front) : Queued rank stamp after rest next where
  ascending := queued.ascending.tail
  issued entry member := queued.issued entry (List.mem_cons_of_mem _ member)
  listed other mark found := by
    rcases List.mem_cons.mp ((queued.fewer fewer).listed other mark found) with first | later
    · obtain ⟨rfl, stamped⟩ := Prod.mk.inj first
      exact absurd stamped (gone mark found)
    · exact later

/-- A stamp above all before it goes to the back, beside the mark that carries it. -/
theorem Queued.pushed [DecidableEq Key] (queued : Queued rank stamp marks order next) {key : Key} {mark : Mark}
    (fresh : next < rank (stamp mark)) :
    Queued rank stamp (fun other => if other = key then some mark else marks other) (order ++ [(key, stamp mark)])
      (rank (stamp mark)) where
  ascending := by
    rw [List.pairwise_append]
    refine ⟨queued.ascending, List.pairwise_singleton _ _, ?_⟩
    intro entry member last final
    rw [List.mem_singleton.mp final]
    exact Nat.lt_of_le_of_lt (queued.issued entry member) fresh
  issued entry member := by
    rcases List.mem_append.mp member with earlier | last
    · exact Nat.le_of_lt (Nat.lt_of_le_of_lt (queued.issued entry earlier) fresh)
    · rw [List.mem_singleton.mp last]
  listed other found held := by
    split at held
    · rename_i same
      cases held
      rw [same]
      exact List.mem_append_right _ List.mem_cons_self
    · exact List.mem_append_left _ (queued.listed other found held)

/-- Stamps are never given twice, so each mark has the one entry of its stamp. -/
theorem Queued.unique [DecidableEq Stamp] (queued : Queued rank stamp marks order next) {key : Key} {mark : Mark}
    (found : marks key = some mark) :
    (order.filter fun entry => entry.2 = stamp mark) = [(key, stamp mark)] := by
  obtain ⟨before, behind, split⟩ := List.append_of_mem (queued.listed key mark found)
  have ascending := queued.ascending
  rw [split, List.pairwise_append, List.pairwise_cons] at ascending
  obtain ⟨-, ⟨above, -⟩, below⟩ := ascending
  have front : (before.filter fun entry => entry.2 = stamp mark) = [] := by
    rw [List.filter_eq_nil_iff]
    intro entry member
    have less := below entry member (key, stamp mark) List.mem_cons_self
    intro same
    rw [of_decide_eq_true same] at less
    exact Nat.lt_irrefl _ less
  have back : (behind.filter fun entry => entry.2 = stamp mark) = [] := by
    rw [List.filter_eq_nil_iff]
    intro entry member
    have less := above entry member
    intro same
    rw [of_decide_eq_true same] at less
    exact Nat.lt_irrefl _ less
  rw [split, List.filter_append, List.filter_cons_of_pos (by simp), front, back, List.nil_append]

/-- There are no more marks than entries. -/
theorem Queued.size_le [DecidableEq Key] {map : FiniteMap Key Mark} (queued : Queued rank stamp map.get? order next) :
    map.size ≤ order.length := by
  have covered : map.keys ⊆ (order.map Prod.fst).toFinset := by
    intro key member
    obtain ⟨mark, found⟩ := (FiniteMap.mem_keys_iff_exists map key).mp member
    rw [List.mem_toFinset]
    exact List.mem_map.mpr ⟨_, queued.listed key mark found, rfl⟩
  calc map.size ≤ (order.map Prod.fst).toFinset.card := Finset.card_le_card covered
    _ ≤ (order.map Prod.fst).length := List.toFinset_card_le _
    _ = order.length := List.length_map _

end Queues

section Times

theorem Timed.empty (none : ∀ key, marks key = none) (limit : Nat) : Timed rank stamp due marks limit where
  within key mark found := by simp [none key] at found
  ordered early late first second found := by simp [none early] at found

theorem Timed.fewer (timed : Timed rank stamp due marks limit) (fewer : Fewer stamp due marks after) :
    Timed rank stamp due after limit where
  within key mark found := by
    obtain ⟨earlier, held, -, same⟩ := fewer key mark found
    rw [← same]
    exact timed.within key earlier held
  ordered early late first second inEarly inLate less := by
    obtain ⟨before, held, firstStamp, firstDue⟩ := fewer early first inEarly
    obtain ⟨behind, kept, secondStamp, secondDue⟩ := fewer late second inLate
    rw [← firstStamp, ← secondStamp] at less
    rw [← firstDue, ← secondDue]
    exact timed.ordered early late before behind held kept less

theorem Timed.later {further : Nat} (timed : Timed rank stamp due marks limit) (grown : limit ≤ further) :
    Timed rank stamp due marks further where
  within key mark found := Nat.le_trans (timed.within key mark found) grown
  ordered := timed.ordered

theorem Timed.pushed [DecidableEq Key] (timed : Timed rank stamp due marks limit)
    (queued : Queued rank stamp marks order next) {key : Key} {mark : Mark} (fresh : next < rank (stamp mark))
    (falls : due mark = limit) :
    Timed rank stamp due (fun other => if other = key then some mark else marks other) limit where
  within other found held := by
    split at held
    · cases held
      exact Nat.le_of_eq falls
    · exact timed.within other found held
  ordered early late first second inEarly inLate less := by
    split at inEarly
    · cases inEarly
      split at inLate
      · cases inLate
        exact Nat.le_refl _
      · -- Nothing before carries a stamp above the new one.
        have issued := queued.issued _ (queued.listed late second inLate)
        exact absurd (Nat.lt_trans fresh less) (Nat.not_lt.mpr issued)
    · split at inLate
      · cases inLate
        rw [falls]
        exact timed.within early first inEarly
      · exact timed.ordered early late first second inEarly inLate less

/-- What stands in the queue before another falls due no later. -/
theorem Timed.along (timed : Timed rank stamp due marks limit) (queued : Queued rank stamp marks order next) :
    order.Pairwise fun early late => ∀ first second, marks early.1 = some first → stamp first = early.2 →
      marks late.1 = some second → stamp second = late.2 → due first ≤ due second := by
  apply queued.ascending.imp
  intro early late less first second inEarly stampedFirst inLate stampedSecond
  apply timed.ordered early.1 late.1 first second inEarly inLate
  rw [stampedFirst, stampedSecond]
  exact less

/-- A mark whose entry is in front falls due first of all. -/
theorem Timed.front {key : Key} {mark : Mark} {rest : List (Key × Stamp)} (timed : Timed rank stamp due marks limit)
    (queued : Queued rank stamp marks ((key, stamp mark) :: rest) next) (found : marks key = some mark)
    {other : Key} {second : Mark} (held : marks other = some second) : due mark ≤ due second := by
  rcases List.mem_cons.mp (queued.listed other second held) with same | later
  · obtain ⟨rfl, -⟩ := Prod.mk.inj same
    rw [found] at held
    cases held
    exact Nat.le_refl _
  · have less := (List.pairwise_cons.mp queued.ascending).1 _ later
    exact timed.ordered key other mark second found held less

end Times

end SailwindOnline.StampedQueue
