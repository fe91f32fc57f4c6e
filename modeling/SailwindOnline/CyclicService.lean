import Mathlib.Data.List.Chain
import SailwindOnline.OrderedSet

/-!
Service in turn of a set that changes between the calls. Every call serves the
first `limit` keys after its cursor and leaves the cursor at the last of them,
whatever has joined or left the set meanwhile. Among the keys from 1 to `bound`
a key that is passed over has come `limit` places closer to the cursor, so it
waits for no more than a round.
-/

namespace SailwindOnline.CyclicService
open OrderedSet

/-- How far `key` lies after the cursor on the circle of the keys from 1 to `bound`. -/
def distance (bound : Nat) (cursor : Option Nat) (key : Nat) : Nat :=
  match cursor with
  | none => key
  | some mark => if mark < key then key - mark else bound - mark + key

structure Call where
  keys : Finset Nat
  cursor : Option Nat

def Call.served (limit : Nat) (call : Call) : List Nat := orderedAfter call.keys call.cursor limit

def Call.next (limit : Nat) (call : Call) : Option Nat := (call.served limit).getLast?.or call.cursor

structure Call.Within (bound : Nat) (call : Call) : Prop where
  keys : ∀ key ∈ call.keys, 0 < key ∧ key ≤ bound
  cursor : ∀ mark ∈ call.cursor, mark ≤ bound

section Calls
variable {bound limit : Nat} {call : Call} {key : Nat}

theorem mem_served (member : key ∈ call.served limit) : key ∈ call.keys := by
  rw [Call.served, orderedAfter_eq_take] at member
  exact (mem_circle _ _ _).mp (List.mem_of_mem_take member)

/-- No call serves a key twice. -/
theorem served_nodup (limit : Nat) (call : Call) : (call.served limit).Nodup := by
  rw [Call.served, orderedAfter_eq_take]
  exact (circle_nodup _ _).sublist (List.take_sublist _ _)

theorem Call.Within.next (within : call.Within bound) : ∀ mark ∈ call.next limit, mark ≤ bound := by
  intro mark marked
  unfold Call.next at marked
  cases ended : (call.served limit).getLast? with
  | none =>
      rw [ended, Option.none_or] at marked
      exact within.cursor mark marked
  | some last =>
      rw [ended, Option.some_or] at marked
      cases marked
      exact (within.keys mark (mem_served (List.mem_of_getLast? ended))).2

theorem circle_distances (within : call.Within bound) :
    (circle call.keys call.cursor).Pairwise
      fun early late => distance bound call.cursor early < distance bound call.cursor late := by
  obtain ⟨keys, cursor⟩ := call
  have sorted := ascending_sorted keys
  cases cursor with
  | none => exact sorted
  | some mark =>
      -- Keys past the mark count up from it; the others come after the lap that ends at `bound`.
      have small : mark ≤ bound := within.cursor mark rfl
      have bounded : ∀ key ∈ ascending keys, 0 < key ∧ key ≤ bound := fun key member =>
        within.keys key ((mem_ascending _ _).mp member)
      refine List.pairwise_append.mpr ⟨?_, ?_, ?_⟩
      · refine (sorted.filter _).imp_of_mem fun {early late} first second below => ?_
        have above : mark < early := by simpa using (List.mem_filter.mp first).2
        simp only [distance, if_pos above, if_pos (above.trans below)]
        omega
      · refine (sorted.filter _).imp_of_mem fun {early late} first second below => ?_
        have under : ¬ mark < early := by simpa using (List.mem_filter.mp first).2
        have beneath : ¬ mark < late := by simpa using (List.mem_filter.mp second).2
        simp only [distance, if_neg under, if_neg beneath]
        omega
      · intro early first late second
        obtain ⟨listed, above⟩ := List.mem_filter.mp first
        obtain ⟨present, under⟩ := List.mem_filter.mp second
        have high : mark < early := by simpa using above
        have low : ¬ mark < late := by simpa using under
        have range := bounded early listed
        have positive := bounded late present
        simp only [distance, if_pos high, if_neg low]
        omega

theorem distance_positive (within : call.Within bound) (member : key ∈ call.keys) :
    0 < distance bound call.cursor key := by
  have range := within.keys key member
  obtain ⟨keys, cursor⟩ := call
  cases cursor with
  | none => exact range.1
  | some mark =>
      simp only [distance]
      split <;> omega

theorem distance_le (within : call.Within bound) (member : key ∈ call.keys) :
    distance bound call.cursor key ≤ bound := by
  have range := within.keys key member
  obtain ⟨keys, cursor⟩ := call
  cases cursor with
  | none => exact range.2
  | some mark =>
      have small : mark ≤ bound := within.cursor mark rfl
      simp only [distance]
      split <;> omega

theorem length_le_measure {measure : Nat → Nat} {list : List Nat} {last : Nat}
    (rising : list.Pairwise fun early late => measure early < measure late)
    (positive : ∀ key ∈ list, 0 < measure key) (ended : list.getLast? = some last) :
    list.length ≤ measure last := by
  induction list using List.reverseRecOn generalizing last with
  | nil => cases ended
  | append_singleton front final ih =>
      rw [List.getLast?_concat, Option.some.injEq] at ended
      subst ended
      obtain ⟨early, -, across⟩ := List.pairwise_append.mp rising
      cases before : front.getLast? with
      | none =>
          rw [List.getLast?_eq_none_iff.mp before]
          exact positive final (by simp)
      | some previous =>
          have short := ih early (fun key member => positive key (List.mem_append_left _ member)) before
          have below := across previous (List.mem_of_getLast? before) final List.mem_cons_self
          rw [List.length_append, List.length_singleton]
          omega

/-- A key that is passed over comes closer by the length of the call. -/
theorem passed_over (within : call.Within bound) (positive : 0 < limit) (member : key ∈ call.keys)
    (passed : key ∉ call.served limit) :
    distance bound (call.next limit) key + limit ≤ distance bound call.cursor key := by
  have walk := orderedAfter_eq_take call.keys call.cursor limit
  have listed : key ∈ circle call.keys call.cursor := (mem_circle _ _ _).mpr member
  have short : limit ≤ call.keys.card := by
    by_contra small
    refine passed ?_
    rw [Call.served, walk, Nat.min_eq_right (Nat.le_of_not_le small), ← circle_length call.keys call.cursor,
      List.take_length]
    exact listed
  have length : (call.served limit).length = limit := by
    rw [Call.served, walk, List.length_take, circle_length]
    omega
  -- Distances rise along the walk, so the last key served already lies `limit` away.
  have rising := circle_distances within
  rw [← List.take_append_drop (min limit call.keys.card) (circle call.keys call.cursor), ← walk] at rising listed
  obtain ⟨early, -, across⟩ := List.pairwise_append.mp rising
  have later := (List.mem_append.mp listed).resolve_left passed
  obtain ⟨last, ended⟩ : ∃ last, (call.served limit).getLast? = some last := by
    cases ended : (call.served limit).getLast? with
    | none =>
        rw [List.getLast?_eq_none_iff.mp ended] at length
        exact absurd length.symm (Nat.ne_of_gt positive)
    | some last => exact ⟨last, rfl⟩
  have served := List.mem_of_getLast? ended
  have beyond := across last served key later
  have counted := length_le_measure early
    (fun other present => distance_positive within (mem_served present)) ended
  have upper := (within.keys last (mem_served served)).2
  have range := within.keys key member
  replace counted : limit ≤ distance bound call.cursor last := length.symm.trans_le counted
  have next : call.next limit = some last := by rw [Call.next, ended, Option.some_or]
  rw [next]
  obtain ⟨keys, cursor⟩ := call
  cases cursor with
  | none =>
      have below : last < key := beyond
      have reached : limit ≤ last := counted
      simp only [distance, if_pos below]
      omega
  | some mark =>
      have small : mark ≤ bound := within.cursor mark rfl
      by_cases ahead : mark < last <;> by_cases after : mark < key <;>
        simp only [distance, ahead, after, if_true, if_false] at beyond counted ⊢ <;> split <;> omega

end Calls

/-! Consecutive calls, each resumed where the one before it stopped. -/
section Rounds
variable {bound limit : Nat} {key : Nat}

def Resumes (limit : Nat) (call next : Call) : Prop := next.cursor = call.next limit

theorem rounds_wait {calls : List Call} (resumes : calls.IsChain (Resumes limit)) (positive : 0 < limit)
    (within : ∀ call ∈ calls, call.Within bound) (waiting : ∀ call ∈ calls, key ∈ call.keys)
    (passed : ∀ call ∈ calls, key ∉ call.served limit) {last : Call} (ended : calls.getLast? = some last) :
    distance bound (last.next limit) key + limit * calls.length ≤ bound := by
  induction calls using List.reverseRecOn generalizing last with
  | nil => cases ended
  | append_singleton earlier final ih =>
      rw [List.getLast?_concat, Option.some.injEq] at ended
      subst ended
      have closer := passed_over (within final (by simp)) positive (waiting final (by simp)) (passed final (by simp))
      rw [List.length_append, List.length_singleton, Nat.mul_add, Nat.mul_one]
      cases before : earlier.getLast? with
      | none =>
          have far := distance_le (within final (by simp)) (waiting final (by simp))
          rw [List.getLast?_eq_none_iff.mp before]
          simp only [List.length_nil, Nat.mul_zero]
          omega
      | some previous =>
          obtain ⟨chain, -, across⟩ := List.isChain_append.mp resumes
          have resumed : final.cursor = previous.next limit := across previous before final rfl
          have waited := ih chain (fun call member => within call (List.mem_append_left _ member))
            (fun call member => waiting call (List.mem_append_left _ member))
            (fun call member => passed call (List.mem_append_left _ member)) before
          rw [← resumed] at waited
          omega

/-- A key that waits through a round of calls is served in one of them. -/
theorem served_within {calls : List Call} (resumes : calls.IsChain (Resumes limit)) (positive : 0 < limit)
    (within : ∀ call ∈ calls, call.Within bound) (waiting : ∀ call ∈ calls, key ∈ call.keys)
    (enough : bound ≤ limit * calls.length) (some : calls ≠ []) : ∃ call ∈ calls, key ∈ call.served limit := by
  by_contra never
  push Not at never
  obtain ⟨last, ended⟩ : ∃ last, calls.getLast? = .some last :=
    ⟨calls.getLast some, List.getLast?_eq_some_getLast some⟩
  have waited := rounds_wait resumes positive within waiting never ended
  -- No place is left between the cursor and the key once the distances are added up.
  have member := List.mem_of_getLast? ended
  have closer := passed_over (within last member) positive (waiting last member) (never last member)
  have mark : ∀ mark ∈ last.next limit, mark ≤ bound := (within last member).next
  have resumed : (Call.mk last.keys (last.next limit)).Within bound := ⟨(within last member).keys, mark⟩
  have ahead : 0 < distance bound (last.next limit) key := distance_positive resumed (waiting last member)
  omega

end Rounds
end SailwindOnline.CyclicService
