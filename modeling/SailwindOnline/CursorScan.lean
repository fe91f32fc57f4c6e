import SailwindOnline.OrderedSet

/-!
A counted walk over a changing ordered set. The walk resumes after its cursor,
in as many visits as it takes, and stops when it has met as many keys as the set
held when it started. It meets a key that stays in the set as long as the count
still covers the keys up to it: removals only help, an insertion before the key
costs one.
-/

namespace SailwindOnline.CursorScan
open OrderedSet

variable {Key : Type} [LinearOrder Key]

-- `key` lies after the cursor.
def Beyond (cursor : Option Key) (key : Key) : Prop := ∀ mark ∈ cursor, mark < key

instance (cursor : Option Key) (key : Key) : Decidable (Beyond cursor key) :=
  match cursor with
  | none => isTrue (by simp [Beyond])
  | some mark => decidable_of_iff (mark < key) (by simp [Beyond])

/-- The keys from the cursor up to `target`. -/
def upTo (keys : Finset Key) (cursor : Option Key) (target : Key) : Finset Key :=
  keys.filter fun key => Beyond cursor key ∧ key ≤ target

structure Scan (Key : Type) where
  cursor : Option Key
  remaining : Nat

namespace Scan

def start (keys : Finset Key) : Scan Key := ⟨none, keys.card⟩

/-- After a visit that met `taken`. -/
def past (scan : Scan Key) (taken : List Key) : Scan Key :=
  ⟨taken.getLast?.or scan.cursor, scan.remaining - taken.length⟩

/-- The count still covers the keys up to `target`. -/
structure Reaches (scan : Scan Key) (keys : Finset Key) (target : Key) : Prop where
  beyond : Beyond scan.cursor target
  counted : (upTo keys scan.cursor target).card ≤ scan.remaining

end Scan

section Walks
variable {keys : Finset Key} {cursor : Option Key} {target : Key} {scan : Scan Key}

@[simp] theorem mem_upTo {key : Key} :
    key ∈ upTo keys cursor target ↔ key ∈ keys ∧ Beyond cursor key ∧ key ≤ target := by
  simp [upTo]

theorem target_mem_upTo (member : target ∈ keys) (beyond : Beyond cursor target) :
    target ∈ upTo keys cursor target := by
  simp [member, beyond]

theorem sorted_split {list : List Key} (sorted : list.Pairwise (· < ·)) (bound : Key) :
    list.filter (· ≤ bound) ++ list.filter (bound < ·) = list := by
  induction list with
  | nil => rfl
  | cons head rest ih =>
      obtain ⟨lowest, tail⟩ := List.pairwise_cons.mp sorted
      by_cases below : head ≤ bound
      · have inside : ¬ bound < head := not_lt.mpr below
        simp [below, inside, ih tail]
      · have first : bound < head := not_le.mp below
        have none : rest.filter (· ≤ bound) = [] := by
          rw [List.filter_eq_nil_iff]
          intro key member
          simpa using first.trans (lowest key member)
        have all : rest.filter (bound < ·) = rest := by
          rw [List.filter_eq_self]
          intro key member
          simpa using first.trans (lowest key member)
        simp [below, first, none, all]

theorem circle_eq (keys : Finset Key) (cursor : Option Key) :
    circle keys cursor = (ascending keys).filter (Beyond cursor ·) ++
      (ascending keys).filter (¬ Beyond cursor ·) := by
  cases cursor with
  | none => simp [circle, Beyond]
  | some mark => simp [circle, Beyond]

/-- The walk meets the keys up to the target first. -/
theorem upTo_first (keys : Finset Key) (cursor : Option Key) (target : Key) :
    ascending (upTo keys cursor target) <+: circle keys cursor := by
  have later := (ascending_sorted keys).filter (Beyond cursor ·)
  have same : ascending (upTo keys cursor target) =
      ((ascending keys).filter (Beyond cursor ·)).filter (· ≤ target) := by
    have listed : upTo keys cursor target =
        (((ascending keys).filter (Beyond cursor ·)).filter (· ≤ target)).toFinset := by
      ext key
      simp [and_comm, and_left_comm]
    rw [listed]
    exact ascending_toFinset (later.filter _)
  rw [same, circle_eq]
  refine List.IsPrefix.trans ⟨_, sorted_split later target⟩ (List.prefix_append _ _)

theorem last_le {list : List Key} {last : Key} (sorted : list.Pairwise (· < ·))
    (ended : list.getLast? = some last) : ∀ key ∈ list, key ≤ last := by
  intro key member
  obtain ⟨front, rfl⟩ := List.getLast?_eq_some_iff.mp ended
  rw [List.pairwise_append] at sorted
  rcases List.mem_append.mp member with early | final
  · exact (sorted.2.2 key early last (List.mem_singleton_self last)).le
  · exact (List.mem_singleton.mp final).le

/-- After a visit short of the target, the keys up to it are those not met yet. -/
theorem upTo_past {taken rest : List Key} {last : Key} (split : ascending (upTo keys cursor target) = taken ++ rest)
    (ended : taken.getLast? = some last) : upTo keys (some last) target = rest.toFinset := by
  have sorted := ascending_sorted (upTo keys cursor target)
  have listed : ∀ key, key ∈ upTo keys cursor target ↔ key ∈ taken ∨ key ∈ rest := by
    intro key
    rw [← mem_ascending, split, List.mem_append]
  rw [split, List.pairwise_append] at sorted
  obtain ⟨front, -, across⟩ := sorted
  have final : last ∈ taken := List.mem_of_getLast? ended
  ext key
  rw [mem_upTo, List.mem_toFinset]
  constructor
  · rintro ⟨member, beyond, below⟩
    have after : last < key := beyond last rfl
    have reached := (mem_upTo.mp ((listed last).mpr (Or.inl final))).2.1
    have here : key ∈ upTo keys cursor target :=
      mem_upTo.mpr ⟨member, fun mark marked => (reached mark marked).trans after, below⟩
    rcases (listed key).mp here with met | left
    · exact absurd (last_le front ended key met) (not_le.mpr after)
    · exact left
  · intro left
    obtain ⟨member, -, below⟩ := mem_upTo.mp ((listed key).mpr (Or.inr left))
    refine ⟨member, ?_, below⟩
    rintro _ ⟨⟩
    exact across last final key left

/-- Resuming after the last row walked leaves exactly the rows not walked yet. -/
theorem filter_beyond {Row : Type} (keyOf : Row → Key) {walked rest : List Row}
    (sorted : (walked ++ rest).Pairwise fun early late => keyOf early < keyOf late) :
    (walked ++ rest).filter (fun row => Beyond (walked.getLast?.map keyOf) (keyOf row)) = rest := by
  obtain ⟨front, -, across⟩ := List.pairwise_append.mp sorted
  have met : walked.filter (fun row => Beyond (walked.getLast?.map keyOf) (keyOf row)) = [] := by
    apply List.filter_eq_nil_iff.mpr
    intro row member beyond
    rw [decide_eq_true_eq] at beyond
    obtain ⟨last, ended⟩ : ∃ last, walked.getLast? = some last :=
      ⟨_, List.getLast?_eq_some_getLast (List.ne_nil_of_mem member)⟩
    have past : keyOf last < keyOf row := beyond (keyOf last) (by simp [ended])
    obtain ⟨earlier, rfl⟩ := List.getLast?_eq_some_iff.mp ended
    rcases List.mem_append.mp member with early | final
    · have before := (List.pairwise_append.mp front).2.2 row early last (List.mem_singleton_self last)
      exact lt_irrefl _ (past.trans before)
    · rw [List.mem_singleton.mp final] at past
      exact lt_irrefl _ past
  have left : rest.filter (fun row => Beyond (walked.getLast?.map keyOf) (keyOf row)) = rest := by
    apply List.filter_eq_self.mpr
    intro row member
    rw [decide_eq_true_eq]
    intro mark marked
    rw [Option.mem_map] at marked
    obtain ⟨last, ended, rfl⟩ := marked
    exact across last (List.mem_of_getLast? ended) row member
  rw [List.filter_append, met, left, List.nil_append]

theorem circle_resumes {walked rest : List Key} (split : ascending keys = walked ++ rest) :
    rest <+: circle keys walked.getLast? := by
  have sorted : (walked ++ rest).Pairwise fun early late => id early < id late := split ▸ ascending_sorted keys
  have left := filter_beyond id sorted
  simp only [Option.map_id, id] at left
  rw [circle_eq, split, left]
  exact List.prefix_append _ _

namespace Scan

theorem reaches_start (keys : Finset Key) (target : Key) : (start keys).Reaches keys target := by
  refine ⟨by simp [start, Beyond], ?_⟩
  exact Finset.card_le_card (Finset.filter_subset _ _)

theorem Reaches.positive (reaches : scan.Reaches keys target) (member : target ∈ keys) : 0 < scan.remaining :=
  (Finset.card_pos.mpr ⟨target, target_mem_upTo member reaches.beyond⟩).trans_le reaches.counted

/-- A visit meets the target or leaves it within the count. -/
theorem Reaches.visit {taken : List Key} (reaches : scan.Reaches keys target) (member : target ∈ keys)
    (walked : taken <+: circle keys scan.cursor) (some : taken ≠ []) :
    target ∈ taken ∨ (scan.past taken).Reaches keys target := by
  by_cases met : target ∈ taken
  · exact Or.inl met
  right
  have listed : target ∈ ascending (upTo keys scan.cursor target) :=
    (mem_ascending _ _).mpr (target_mem_upTo member reaches.beyond)
  -- The visit stopped before the target, so it met nothing after it.
  have short : taken <+: ascending (upTo keys scan.cursor target) := by
    rcases List.prefix_or_prefix_of_prefix walked (upTo_first keys scan.cursor target) with short | whole
    · exact short
    · exact absurd (whole.subset listed) met
  obtain ⟨rest, split⟩ := short
  obtain ⟨last, ended⟩ : ∃ last, taken.getLast? = .some last :=
    ⟨taken.getLast some, List.getLast?_eq_some_getLast some⟩
  have left := upTo_past split.symm ended
  have unique := ascending_nodup (upTo keys scan.cursor target)
  rw [← split, List.nodup_append] at unique
  have counts := congrArg List.length split
  rw [List.length_append, ascending_length] at counts
  have counted := reaches.counted
  have cursor : (scan.past taken).cursor = .some last := by simp [past, ended]
  refine ⟨?_, ?_⟩
  · rw [cursor]
    have later : target ∈ rest := by
      rw [← split, List.mem_append] at listed
      exact listed.resolve_left met
    rw [← List.mem_toFinset, ← left, mem_upTo] at later
    exact later.2.1
  · rw [cursor, left, List.toFinset_card_of_nodup unique.2.1]
    show rest.length ≤ scan.remaining - taken.length
    omega

/-- A change of the set that inserts no key between the cursor and the target. -/
theorem Reaches.churn {later : Finset Key} (reaches : scan.Reaches keys target)
    (spared : ∀ key ∈ later, key ∉ keys → Beyond scan.cursor key → target < key) : scan.Reaches later target := by
  refine ⟨reaches.beyond, (Finset.card_le_card ?_).trans reaches.counted⟩
  intro key
  simp only [mem_upTo]
  rintro ⟨member, beyond, below⟩
  by_contra absent
  exact absurd below (not_le.mpr (spared key member (fun present => absent ⟨present, beyond, below⟩) beyond))

/-- One key more before the target needs one place of the count to spare. -/
theorem Reaches.insertion {later : Finset Key} {joined : Key} (reaches : scan.Reaches keys target)
    (single : ∀ key ∈ later, key = joined ∨ key ∈ keys) (spare : (upTo keys scan.cursor target).card < scan.remaining) :
    scan.Reaches later target := by
  refine ⟨reaches.beyond, ?_⟩
  have grown : upTo later scan.cursor target ⊆ insert joined (upTo keys scan.cursor target) := by
    intro key
    simp only [mem_upTo, Finset.mem_insert]
    rintro ⟨member, within⟩
    rcases single key member with own | old
    · exact Or.inl own
    · exact Or.inr ⟨old, within⟩
  have counted := (Finset.card_le_card grown).trans (Finset.card_insert_le _ _)
  omega

end Scan
end Walks
end SailwindOnline.CursorScan
