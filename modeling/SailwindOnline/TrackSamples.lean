import SailwindOnline.Interpolator
import SailwindOnline.RingBuffer

/-!
What a track keeps of the samples pushed into it. The ring, its moving head and
its count hold the last samples up to the capacity, whatever was pushed before
and however often the head came round, and an index from the oldest reads them
in the order they arrived.
-/

namespace SailwindOnline.Sync.EntityTrack

open RingBuffer

variable {F : Type} [Platform F] {capacity : Nat}

/-- A new track that took the samples in turn. -/
def pushed (id : UInt64) (capacity : Nat) (samples : List (EntitySample F)) : EntityTrack F :=
  samples.foldl push (new id capacity)

theorem pushed_concat (id : UInt64) (capacity : Nat) (samples : List (EntitySample F)) (sample : EntitySample F) :
    pushed id capacity (samples ++ [sample]) = (pushed id capacity samples).push sample := by
  simp [pushed]

omit [Platform F] in
@[simp] theorem push_size (track : EntityTrack F) (sample : EntitySample F) :
    (track.push sample).ring.size = track.ring.size := by
  simp [push]

theorem pushed_size (id : UInt64) (capacity : Nat) (samples : List (EntitySample F)) :
    (pushed id capacity samples).ring.size = capacity := by
  induction samples using List.reverseRecOn with
  | nil => simp [pushed, new]
  | append_singleton samples sample ih => rw [pushed_concat, push_size, ih]

theorem pushed_holds (id : UInt64) (positive : 0 < capacity) (samples : List (EntitySample F)) :
    Holds (pushed id capacity samples).ring (pushed id capacity samples).head
      (pushed id capacity samples).count samples := by
  induction samples using List.reverseRecOn with
  | nil => exact .empty _
  | append_singleton samples sample ih =>
      rw [pushed_concat]
      apply ih.push
      rw [pushed_size]
      exact positive

theorem pushed_count (id : UInt64) (positive : 0 < capacity) (samples : List (EntitySample F)) :
    (pushed id capacity samples).count = min samples.length capacity := by
  rw [(pushed_holds id positive samples).count, pushed_size]

theorem pushed_latest (id : UInt64) (capacity : Nat) {samples : List (EntitySample F)} {last : EntitySample F}
    (final : samples.getLast? = some last) : (pushed id capacity samples).latest = last := by
  obtain ⟨earlier, rfl⟩ := List.getLast?_eq_some_iff.mp final
  rw [pushed_concat]
  rfl

/-- Every sum the lookup computes stays below twice the capacity. -/
theorem pushed_sums (id : UInt64) (positive : 0 < capacity) (samples : List (EntitySample F)) {index : Nat}
    (retained : index < (pushed id capacity samples).count) :
    (pushed id capacity samples).head < capacity ∧ (pushed id capacity samples).count ≤ capacity ∧
      ((pushed id capacity samples).head + capacity - (pushed id capacity samples).count) % capacity + index <
        2 * capacity := by
  have held := pushed_holds id positive samples
  have counted := pushed_count id positive samples
  have start := Nat.mod_lt ((pushed id capacity samples).head + capacity - (pushed id capacity samples).count) positive
  refine ⟨?_, by omega, by omega⟩
  rw [held.head, pushed_size]
  exact Nat.mod_lt _ positive

theorem toInt_sum {left right : Int32} {sum : Nat} (exact : left.toInt + right.toInt = sum) (small : sum < 2 ^ 31) :
    (left + right).toInt = sum := by
  rw [Int32.toInt_add, exact]
  exact Int.bmod_eq_of_le (by omega) (by omega)

theorem toInt_remainder {value length : Int32} {dividend divisor : Nat} (divided : value.toInt = dividend)
    (ring : length.toInt = divisor) : (value % length).toInt = (dividend % divisor : Nat) := by
  rw [Int32.toInt_mod, divided, ring, Int.tmod_eq_emod_of_nonneg (by omega)]
  rfl

/-- Where the lookup starts: `int`s hold every value on the way. -/
theorem toInt_start {head count length : Nat} (inside : head < length) (counted : count ≤ length)
    (near : head ≤ count ∨ head + length < 2 ^ 31 + count) (small : length < 2 ^ 31) :
    ((Int32.ofNat head - Int32.ofNat count + Int32.ofNat length) % Int32.ofNat length).toInt =
      ((head + length - count) % length : Nat) := by
  have first := Int32.toInt_ofNat_of_lt (inside.trans small)
  have taken := Int32.toInt_ofNat_of_lt (counted.trans_lt small)
  have whole := Int32.toInt_ofNat_of_lt small
  have difference : (Int32.ofNat head - Int32.ofNat count).toInt = (head : Int) - count := by
    rw [Int32.toInt_sub, first, taken]
    exact Int.bmod_eq_of_le (by omega) (by omega)
  apply toInt_remainder _ whole
  apply toInt_sum
  · rw [difference, whole]
    omega
  · omega

/-- Up to 2^30 slots the lookup computes the slot it is meant to. -/
theorem toInt_slot {head count length index : Nat} (inside : head < length) (counted : count ≤ length)
    (sum : (head + length - count) % length + index < 2 * length) (small : length ≤ 2 ^ 30) :
    (((Int32.ofNat head - Int32.ofNat count + Int32.ofNat length) % Int32.ofNat length + Int32.ofNat index) %
      Int32.ofNat length).toInt = (((head + length - count) % length + index) % length : Nat) := by
  have start := toInt_start inside counted (by omega) (by omega)
  have whole := Int32.toInt_ofNat_of_lt (n := length) (by omega)
  have place := Int32.toInt_ofNat_of_lt (n := index) (by omega)
  apply toInt_remainder _ whole
  apply toInt_sum
  · rw [start, place]
    rfl
  · omega

theorem tryGetSample_outside {track : EntityTrack F} {index : Int32} (small : track.count < 2 ^ 31)
    (outside : ¬ (0 ≤ index.toInt ∧ index.toInt < track.count)) : track.tryGetSample index = some (false, .blank) := by
  have counted := Int32.toInt_ofNat_of_lt small
  rw [tryGetSample, if_pos]
  rw [Int32.lt_iff_toInt_lt, Int32.le_iff_toInt_le, counted, Int32.toInt_zero]
  omega

theorem tryGetSample_inside (id : UInt64) (positive : 0 < capacity) (small : capacity ≤ 2 ^ 30)
    (samples : List (EntitySample F)) {index : Nat} {sample : EntitySample F}
    (retained : index < (pushed id capacity samples).count)
    (placed : (samples.drop (samples.length - (pushed id capacity samples).count))[index]? = some sample) :
    (pushed id capacity samples).tryGetSample (Int32.ofNat index) = some (true, sample) := by
  obtain ⟨inside, counted, sum⟩ := pushed_sums id positive samples retained
  have stored := (pushed_holds id positive samples).read retained
  rw [placed, pushed_size] at stored
  have slot := toInt_slot inside counted sum small
  have total := Int32.toInt_ofNat_of_lt (n := (pushed id capacity samples).count) (by omega)
  have place := Int32.toInt_ofNat_of_lt (n := index) (by omega)
  rw [tryGetSample, if_neg]
  · simp only [pushed_size, Int32.lt_iff_toInt_lt, slot, Int32.toInt_zero, Int.toNat_natCast, stored, Option.map_some]
    exact if_neg (by omega)
  · rw [Int32.lt_iff_toInt_lt, Int32.le_iff_toInt_le, total, place, Int32.toInt_zero]
    omega

/-- The samples the interpolation reads are the last ones pushed, oldest first. -/
theorem retained_pushed (id : UInt64) (positive : 0 < capacity) (small : capacity ≤ 2 ^ 30)
    (samples : List (EntitySample F)) :
    Interpolator.retained (pushed id capacity samples) = samples.drop (samples.length - capacity) := by
  have counted := pushed_count id positive samples
  have same : samples.length - (pushed id capacity samples).count = samples.length - capacity := by omega
  apply List.ext_getElem?
  intro index
  by_cases inside : index < (pushed id capacity samples).count
  · have bound : index < (samples.drop (samples.length - capacity)).length := by
      rw [List.length_drop]
      omega
    obtain ⟨sample, placed⟩ : ∃ sample, (samples.drop (samples.length - capacity))[index]? = some sample :=
      ⟨_, List.getElem?_eq_getElem bound⟩
    have stored := placed
    rw [← same] at stored
    rw [Interpolator.retained_getElem inside, placed, Interpolator.sampleOf,
      tryGetSample_inside id positive small samples inside stored]
    rfl
  · have length : (Interpolator.retained (pushed id capacity samples)).length ≤ index := by
      simp only [Interpolator.retained, List.length_map, List.length_range]
      omega
    rw [List.getElem?_eq_none length, List.getElem?_eq_none]
    rw [List.length_drop]
    omega

/-- Up to a capacity of 2^30, whatever was pushed: the count is the number of samples up to the capacity, exactly the
indices below it are answered, each with the sample that far from the oldest retained one, and the latest is the last
pushed. -/
theorem pushed_samples (id : UInt64) (capacity : Nat) (positive : 0 < capacity) (small : capacity ≤ 2 ^ 30)
    (samples : List (EntitySample F)) :
    (pushed id capacity samples).count = min samples.length capacity ∧
      (∀ index : Int32, 0 ≤ index.toInt → index.toInt < (pushed id capacity samples).count →
        ∃ sample, (samples.drop (samples.length - min samples.length capacity))[index.toInt.toNat]? = some sample ∧
          (pushed id capacity samples).tryGetSample index = some (true, sample)) ∧
      (∀ index : Int32, ¬ (0 ≤ index.toInt ∧ index.toInt < (pushed id capacity samples).count) →
        ∃ unset, (pushed id capacity samples).tryGetSample index = some (false, unset)) ∧
      ∀ last, samples.getLast? = some last → (pushed id capacity samples).latest = last := by
  have counted := pushed_count id positive samples
  refine ⟨counted, ?_, ?_, fun last => pushed_latest id capacity⟩
  · intro index lower upper
    obtain ⟨place, whole⟩ := Int.eq_ofNat_of_zero_le lower
    rw [whole] at upper ⊢
    have inside : place < (pushed id capacity samples).count := by omega
    have bound : place < (samples.drop (samples.length - min samples.length capacity)).length := by
      rw [List.length_drop]
      omega
    have same : index = Int32.ofNat place := by
      rw [← Int32.toInt_inj, whole, Int32.toInt_ofNat_of_lt (by omega)]
    have placed := List.getElem?_eq_getElem bound
    rw [same]
    refine ⟨_, placed, tryGetSample_inside id positive small samples inside ?_⟩
    rw [counted]
    exact placed
  · intro index outside
    exact ⟨_, tryGetSample_outside (by omega) outside⟩

/-- Five samples into a ring of three. -/
theorem pushed_samples_wrapped :
    ∃ sample, ((([0, 50, 100, 150, 200].map fun tMs => { EntitySample.blank with tMs }) : List (EntitySample Int)).drop
        2)[1]? = some sample ∧
      (pushed 7 3 ([0, 50, 100, 150, 200].map fun tMs => { EntitySample.blank with tMs })).tryGetSample 1 =
        some (true, sample) := by
  have samples := pushed_samples (F := Int) 7 3 (by decide) (by decide)
    ([0, 50, 100, 150, 200].map fun tMs => { EntitySample.blank with tMs })
  exact samples.2.1 1 (by decide) (by rw [samples.1]; decide)

/-- A full ring with its oldest sample in the last slot. -/
theorem pushed_full (positive : 0 < capacity) (samples : List (EntitySample F))
    (length : samples.length = 2 * capacity - 1) :
    (pushed 7 capacity samples).head = capacity - 1 ∧ (pushed 7 capacity samples).count = capacity := by
  constructor
  · have turn : 2 * capacity - 1 = capacity - 1 + capacity := by omega
    rw [(pushed_holds 7 positive samples).head, pushed_size, length, turn, Nat.add_mod_right]
    exact Nat.mod_eq_of_lt (by omega)
  · rw [pushed_count 7 positive, length]
    omega

/-- With one slot more than 2^30 the sum wraps for the newest sample, and the index is negative. -/
theorem pushed_samples_overflow : ¬ ∀ (capacity : Nat), 0 < capacity → capacity < 2 ^ 31 →
    ∀ (samples : List (EntitySample Int)) (index : Int32), 0 ≤ index.toInt →
      index.toInt < (pushed 7 capacity samples).count →
        ∃ sample, (pushed 7 capacity samples).tryGetSample index = some (true, sample) := by
  intro answered
  obtain ⟨capacity, large⟩ : ∃ capacity : Nat, capacity = 2 ^ 30 + 1 := ⟨_, rfl⟩
  have positive : 0 < capacity := by omega
  obtain ⟨samples, length⟩ : ∃ samples : List (EntitySample Int), samples.length = 2 * capacity - 1 :=
    ⟨_, List.length_replicate (a := .blank)⟩
  obtain ⟨head, count⟩ := pushed_full positive samples length
  have newest : (Int32.ofNat (capacity - 1)).toInt = (capacity - 1 : Nat) := Int32.toInt_ofNat_of_lt (by omega)
  have whole : (Int32.ofNat capacity).toInt = capacity := Int32.toInt_ofNat_of_lt (by omega)
  have start := @toInt_start (capacity - 1) capacity capacity (by omega) le_rfl (by omega) (by omega)
  rw [Nat.add_sub_cancel, Nat.mod_eq_of_lt (by omega)] at start
  -- The oldest sample lies in slot 2^30 and the newest 2^30 further on, one past the largest `int`.
  obtain ⟨sample, read⟩ := answered capacity positive (by omega) samples (Int32.ofNat (capacity - 1)) (by omega) (by omega)
  have wrapped : (((Int32.ofNat (capacity - 1) - Int32.ofNat capacity + Int32.ofNat capacity) % Int32.ofNat capacity +
      Int32.ofNat (capacity - 1)) % Int32.ofNat capacity).toInt = -(2 ^ 30 - 1) := by
    rw [Int32.toInt_mod, Int32.toInt_add, start, newest, whole, large]
    decide
  rw [tryGetSample, if_neg] at read
  · simp only [pushed_size, head, count, Int32.lt_iff_toInt_lt, wrapped, Int32.toInt_zero] at read
    rw [if_pos (by decide)] at read
    cases read
  · rw [count, Int32.lt_iff_toInt_lt, Int32.le_iff_toInt_le, newest, whole, Int32.toInt_zero]
    omega

end SailwindOnline.Sync.EntityTrack
