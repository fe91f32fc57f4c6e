import SailwindOnline.Cooldowns
import SailwindOnline.RateLimiting

/-!
The throttles as cooldown gates. The process-wide one remembers its last
admission. The bounded one remembers the last admission of each key it
retains, and of a key it has let go it still knows this much: it was full, and
every key it retained had been admitted no earlier.
-/

namespace SailwindOnline.Throttles
open MachineInt OrderedSet RateLimiting Cooldowns

/-! One gate for all. -/
section Global
variable {limiter : GlobalRateLimiter}

theorem global_allow (positive : 0 < limiter.minIntervalMs) (now : Int64) :
    limiter.allow now = (limiter, false) ∨
      (limiter.allow now = ({ limiter with last := some now }, true) ∧
        ∀ last, limiter.last = some last → last.toInt + limiter.minIntervalMs.toInt ≤ now.toInt) := by
  unfold GlobalRateLimiter.allow
  simp only [not_le.mpr positive, if_false]
  cases held : limiter.last with
  | none => exact Or.inr ⟨rfl, by rintro _ ⟨⟩⟩
  | some last =>
      simp only
      split <;> rename_i early
      · exact Or.inl rfl
      · refine Or.inr ⟨rfl, ?_⟩
        rintro _ ⟨⟩
        exact add_le_of_le_saturatingSub positive (not_lt.mp early)

def globalCooldown (gap : Int) : Cooldown GlobalRateLimiter Unit Int64 where
  allow limiter _ now := limiter.allow now
  stamp := Int64.toInt
  gap
  Sound limiter := 0 < limiter.minIntervalMs ∧ limiter.minIntervalMs.toInt = gap
  Holds limiter _ time := ∃ last, limiter.last = some last ∧ time.toInt ≤ last.toInt
  sound_allow := by
    rintro limiter _ now ⟨positive, exact⟩
    rcases global_allow positive now with refused | ⟨admitted, -⟩
    · rw [refused]
      exact ⟨positive, exact⟩
    · rw [admitted]
      exact ⟨positive, exact⟩
  holds_charged := by
    rintro limiter _ now ⟨positive, exact⟩ charged
    rcases global_allow positive now with refused | ⟨admitted, -⟩
    · rw [refused] at charged
      cases charged
    · rw [admitted]
      exact ⟨now, rfl, le_rfl⟩
  holds_allow := by
    rintro limiter _ time _ now ⟨positive, exact⟩ ⟨last, held, later⟩
    rcases global_allow positive now with refused | ⟨admitted, rested⟩
    · rw [refused]
      exact ⟨last, held, later⟩
    · rw [admitted]
      have above := Int64.lt_iff_toInt_lt.mp positive
      have zero : (0 : Int64).toInt = 0 := rfl
      have elapsed := rested last held
      exact ⟨now, rfl, by omega⟩
  apart := by
    rintro limiter _ time now ⟨positive, rfl⟩ ⟨last, held, later⟩ charged
    rcases global_allow positive now with refused | ⟨-, rested⟩
    · rw [refused] at charged
      cases charged
    · have elapsed := rested last held
      omega

end Global

/-! A gate for each key. -/

theorem allow_fresh {limiter : RateLimiter} {key : UInt64} (fresh : limiter.last.get? key = none) (now : Int64) :
    (limiter.allow key now).2 = true := by
  unfold RateLimiter.allow
  split <;> simp [fresh]

/-! A gate for each of a bounded number of keys. -/
section Bounded
variable {Key : Type} [LinearOrder Key] {limiter : BoundedRateLimiter Key} {key : Key} {now : Int64}

def evicted (limiter : BoundedRateLimiter Key) (lastMs : Int64) (key : Key) : BoundedRateLimiter Key :=
  { limiter.forget lastMs key with last := limiter.last.erase key }

/-- Every way the bounded gate can answer. -/
inductive Answer (limiter : BoundedRateLimiter Key) (key : Key) (now : Int64) :
    BoundedRateLimiter Key × Bool → Prop
  | unthrottled (off : limiter.minIntervalMs ≤ 0) : Answer limiter key now (limiter, true)
  | refused : Answer limiter key now (limiter, false)
  | again {lastMs : Int64} (held : limiter.last.get? key = some lastMs)
      (elapsed : lastMs.toInt + limiter.minIntervalMs.toInt ≤ now.toInt) :
      Answer limiter key now ((limiter.forget lastMs key).record key now, true)
  | replaced {oldestMs : Int64} {oldestKey : Key} (unknown : limiter.last.get? key = none)
      (full : limiter.maxKeys ≤ limiter.last.size) (listed : toLex (oldestMs, oldestKey) ∈ limiter.oldest)
      (least : ∀ entry ∈ limiter.oldest, toLex (oldestMs, oldestKey) ≤ entry)
      (elapsed : oldestMs.toInt + limiter.minIntervalMs.toInt ≤ now.toInt) :
      Answer limiter key now ((evicted limiter oldestMs oldestKey).record key now, true)
  | fresh (unknown : limiter.last.get? key = none) (room : limiter.last.size < limiter.maxKeys) :
      Answer limiter key now (limiter.record key now, true)

theorem head_least {Item : Type} [LinearOrder Item] {items : Finset Item} {first : Item}
    (head : (ascending items).head? = some first) : first ∈ items ∧ ∀ item ∈ items, first ≤ item := by
  obtain ⟨rest, walk⟩ := List.head?_eq_some_iff.mp head
  have sorted := ascending_sorted items
  rw [walk] at sorted
  refine ⟨(mem_ascending items first).mp (walk ▸ List.mem_cons_self), fun item member => ?_⟩
  rw [← mem_ascending, walk] at member
  rcases List.mem_cons.mp member with rfl | later
  · exact le_rfl
  · exact (List.rel_of_pairwise_cons sorted later).le

theorem bounded_answer (limiter : BoundedRateLimiter Key) (key : Key) (now : Int64) :
    Answer limiter key now (limiter.allow key now) := by
  unfold BoundedRateLimiter.allow
  split <;> rename_i off
  · exact .unthrottled off
  have positive := not_le.mp off
  split <;> rename_i held
  · split <;> rename_i early
    · exact .refused
    · exact .again held (add_le_of_le_saturatingSub positive (not_lt.mp early))
  · split <;> rename_i full
    · split <;> rename_i head
      · exact .refused
      · obtain ⟨listed, least⟩ := head_least head
        simp only
        split <;> rename_i early
        · exact .refused
        · exact .replaced held full listed least (add_le_of_le_saturatingSub positive (not_lt.mp early))
    · exact .fresh held (not_le.mp full)

theorem bounded_keys_allow (limiter : BoundedRateLimiter Key) (key : Key) (now : Int64) :
    (∀ other ∈ (limiter.allow key now).1.last.keys, other = key ∨ other ∈ limiter.last.keys) ∧
      (limiter.allow key now).1.maxKeys = limiter.maxKeys := by
  have answer := bounded_answer limiter key now
  revert answer
  generalize limiter.allow key now = answered
  intro answer
  cases answer with
  | unthrottled | refused => exact ⟨fun _ held => Or.inr held, rfl⟩
  | again | fresh => exact ⟨by simp [BoundedRateLimiter.record, BoundedRateLimiter.forget], rfl⟩
  | replaced =>
      refine ⟨?_, rfl⟩
      simp only [BoundedRateLimiter.record, evicted, BoundedRateLimiter.forget, FiniteMap.keys_insert,
        FiniteMap.keys_erase, Finset.mem_insert, Finset.mem_erase]
      exact fun other held => held.imp_right And.right

theorem bounded_allow_fresh (fresh : key ∉ limiter.last.keys) (room : limiter.last.size < limiter.maxKeys)
    (now : Int64) : (limiter.allow key now).2 = true ∧ ((limiter.allow key now).1 = limiter ∨
      (limiter.allow key now).1 = limiter.record key now) := by
  unfold BoundedRateLimiter.allow
  split
  · exact ⟨rfl, Or.inl rfl⟩
  · simp only [(FiniteMap.not_mem_keys _ _).mp fresh, ge_iff_le, not_le.mpr room, if_false, or_true, and_self]

theorem size_record_le (limiter : BoundedRateLimiter Key) (key : Key) (now : Int64) :
    (limiter.record key now).last.size ≤ limiter.last.size + 1 := by
  simp only [BoundedRateLimiter.record, FiniteMap.size, FiniteMap.keys_insert]
  exact Finset.card_insert_le _ _

/-- The index by age lists what the table holds. -/
def InStep (limiter : BoundedRateLimiter Key) : Prop :=
  ∀ lastMs key, toLex (lastMs, key) ∈ limiter.oldest ↔ limiter.last.get? key = some lastMs

theorem InStep.record_over {lastMs : Int64} (inStep : InStep limiter) (held : limiter.last.get? key = some lastMs) :
    InStep ((limiter.forget lastMs key).record key now) := by
  intro time other
  simp only [BoundedRateLimiter.record, BoundedRateLimiter.forget, Finset.mem_insert, Finset.mem_erase,
    FiniteMap.get?_insert, EmbeddingLike.apply_eq_iff_eq, Prod.mk.injEq, inStep time other]
  split <;> rename_i same
  · subst same
    simp [held, eq_comm]
  · simp [same]

theorem InStep.record_fresh (inStep : InStep limiter) (unknown : limiter.last.get? key = none) :
    InStep (limiter.record key now) := by
  intro time other
  simp only [BoundedRateLimiter.record, Finset.mem_insert, FiniteMap.get?_insert,
    EmbeddingLike.apply_eq_iff_eq, Prod.mk.injEq, inStep time other]
  split <;> rename_i same
  · subst same
    simp [unknown, eq_comm]
  · simp [same]

theorem InStep.evicted {lastMs : Int64} (inStep : InStep limiter) (held : limiter.last.get? key = some lastMs) :
    InStep (evicted limiter lastMs key) := by
  intro time other
  simp only [Throttles.evicted, BoundedRateLimiter.forget, Finset.mem_erase, FiniteMap.get?_erase, ne_eq,
    EmbeddingLike.apply_eq_iff_eq, Prod.mk.injEq, inStep time other]
  split <;> rename_i same
  · subst same
    simp [held, eq_comm]
  · simp [same]

/-- A charge of `key` at `time` is on record, or was let go when everything retained was as recent. -/
def Remembers (limiter : BoundedRateLimiter Key) (key : Key) (time : Int64) : Prop :=
  (∃ lastMs, limiter.last.get? key = some lastMs ∧ time.toInt ≤ lastMs.toInt) ∨
    (limiter.maxKeys ≤ limiter.last.size ∧
      ∀ other lastMs, limiter.last.get? other = some lastMs → time.toInt ≤ lastMs.toInt)

theorem get_record (limiter : BoundedRateLimiter Key) (key other : Key) (now : Int64) :
    (limiter.record key now).last.get? other = if other = key then some now else limiter.last.get? other :=
  FiniteMap.get?_insert _ _ _ _

theorem get_evicted (limiter : BoundedRateLimiter Key) (lastMs : Int64) (key other : Key) :
    (evicted limiter lastMs key).last.get? other = if other = key then none else limiter.last.get? other :=
  FiniteMap.get?_erase _ _ _

theorem size_record_again {lastMs : Int64} (held : limiter.last.get? key = some lastMs) :
    ((limiter.forget lastMs key).record key now).last.size = limiter.last.size := by
  have member : key ∈ limiter.last.keys := (FiniteMap.mem_keys_iff_exists _ _).mpr ⟨lastMs, held⟩
  simp only [BoundedRateLimiter.record, BoundedRateLimiter.forget, FiniteMap.size, FiniteMap.keys_insert,
    Finset.insert_eq_of_mem member]

theorem size_replaced {oldestMs : Int64} {oldestKey : Key} (unknown : limiter.last.get? key = none)
    (held : limiter.last.get? oldestKey = some oldestMs) :
    ((evicted limiter oldestMs oldestKey).record key now).last.size = limiter.last.size := by
  have gone : (evicted limiter oldestMs oldestKey).last.get? key = none := by
    rw [get_evicted, unknown, ite_self]
  have smaller : (evicted limiter oldestMs oldestKey).last.size + 1 = limiter.last.size :=
    FiniteMap.size_erase_present _ _ _ held
  have regrown : ((evicted limiter oldestMs oldestKey).record key now).last.size =
      (evicted limiter oldestMs oldestKey).last.size + 1 := FiniteMap.size_insert_fresh _ _ now gone
  omega

section Keeping
variable {time : Int64} {other : Key}

theorem Remembers.again {lastMs : Int64} (remembers : Remembers limiter key time)
    (held : limiter.last.get? other = some lastMs) (later : lastMs.toInt ≤ now.toInt) :
    Remembers ((limiter.forget lastMs other).record other now) key time := by
  rcases remembers with ⟨ownMs, own, since⟩ | ⟨full, recent⟩
  · left
    simp only [get_record]
    split <;> rename_i same
    · subst same
      rw [held] at own
      cases own
      exact ⟨now, rfl, since.trans later⟩
    · exact ⟨ownMs, own, since⟩
  · right
    refine ⟨(size_record_again held).symm ▸ full, fun third thirdMs own => ?_⟩
    rw [get_record] at own
    split at own
    · cases own
      exact (recent other lastMs held).trans later
    · exact recent third thirdMs own

/-- Nothing retained is older than the key that goes, so what it was charged with is covered by the rest. -/
theorem Remembers.replaced {oldestMs : Int64} {oldestKey : Key} (remembers : Remembers limiter key time)
    (unknown : limiter.last.get? other = none) (full : limiter.maxKeys ≤ limiter.last.size)
    (held : limiter.last.get? oldestKey = some oldestMs)
    (least : ∀ third thirdMs, limiter.last.get? third = some thirdMs → oldestMs.toInt ≤ thirdMs.toInt)
    (later : oldestMs.toInt ≤ now.toInt) :
    Remembers ((evicted limiter oldestMs oldestKey).record other now) key time := by
  have covered : time.toInt ≤ oldestMs.toInt →
      Remembers ((evicted limiter oldestMs oldestKey).record other now) key time := by
    intro since
    right
    refine ⟨(size_replaced unknown held).symm ▸ full, fun third thirdMs own => ?_⟩
    rw [get_record, get_evicted] at own
    split at own
    · cases own
      exact since.trans later
    · split at own
      · cases own
      · exact since.trans (least third thirdMs own)
  rcases remembers with ⟨ownMs, own, since⟩ | ⟨-, recent⟩
  · by_cases leaving : key = oldestKey
    · subst leaving
      rw [held] at own
      cases own
      exact covered since
    · left
      have apart : key ≠ other := by
        rintro rfl
        rw [unknown] at own
        cases own
      exact ⟨ownMs, by rw [get_record, get_evicted, if_neg apart, if_neg leaving, own], since⟩
  · exact covered (recent oldestKey oldestMs held)

theorem Remembers.fresh (remembers : Remembers limiter key time) (unknown : limiter.last.get? other = none)
    (room : limiter.last.size < limiter.maxKeys) : Remembers (limiter.record other now) key time := by
  rcases remembers with ⟨ownMs, own, since⟩ | ⟨full, -⟩
  · left
    have apart : key ≠ other := by
      rintro rfl
      rw [unknown] at own
      cases own
    exact ⟨ownMs, by rw [get_record, if_neg apart, own], since⟩
  · exact absurd room (not_lt.mpr full)

end Keeping

theorem least_held {oldestMs : Int64} {oldestKey : Key} (inStep : InStep limiter)
    (least : ∀ entry ∈ limiter.oldest, toLex (oldestMs, oldestKey) ≤ entry) {other : Key} {lastMs : Int64}
    (held : limiter.last.get? other = some lastMs) : oldestMs.toInt ≤ lastMs.toInt :=
  Int64.le_iff_toInt_le.mp (Prod.Lex.monotone_fst _ _ (least _ ((inStep lastMs other).mpr held)))

structure Ready (gap : Int) (limiter : BoundedRateLimiter Key) : Prop where
  positive : 0 < limiter.minIntervalMs
  interval : limiter.minIntervalMs.toInt = gap
  inStep : InStep limiter

section Answers
variable {gap : Int} {answered : BoundedRateLimiter Key × Bool} {other : Key} {time : Int64}

theorem Answer.ready (answer : Answer limiter key now answered) (ready : Ready gap limiter) :
    Ready gap answered.1 := by
  cases answer with
  | unthrottled | refused => exact ready
  | again held elapsed => exact ⟨ready.positive, ready.interval, ready.inStep.record_over held⟩
  | replaced unknown full listed least elapsed =>
      have gone := ready.inStep.evicted ((ready.inStep _ _).mp listed)
      exact ⟨ready.positive, ready.interval, gone.record_fresh (by rw [get_evicted, unknown, ite_self])⟩
  | fresh unknown room => exact ⟨ready.positive, ready.interval, ready.inStep.record_fresh unknown⟩

theorem Answer.charged (answer : Answer limiter key now answered) (ready : Ready gap limiter)
    (charged : answered.2 = true) : Remembers answered.1 key now := by
  have recorded : answered.1.last.get? key = some now := by
    cases answer with
    | unthrottled off => exact absurd ready.positive (not_lt.mpr off)
    | refused => cases charged
    | again | replaced | fresh => simp only [get_record, if_true]
  exact Or.inl ⟨now, recorded, le_rfl⟩

theorem Answer.remembers (answer : Answer limiter key now answered) (ready : Ready gap limiter)
    (remembers : Remembers limiter other time) : Remembers answered.1 other time := by
  have ahead := Int64.lt_iff_toInt_lt.mp ready.positive
  have zero : (0 : Int64).toInt = 0 := rfl
  cases answer with
  | unthrottled | refused => exact remembers
  | again held elapsed => exact remembers.again held (by omega)
  | replaced unknown full listed least elapsed =>
      exact remembers.replaced unknown full ((ready.inStep _ _).mp listed)
        (fun third thirdMs held => least_held ready.inStep least held) (by omega)
  | fresh unknown room => exact remembers.fresh unknown room

theorem Answer.apart (answer : Answer limiter key now answered) (ready : Ready gap limiter)
    (remembers : Remembers limiter key time) (charged : answered.2 = true) : time.toInt + gap ≤ now.toInt := by
  have interval := ready.interval
  cases answer with
  | unthrottled off => exact absurd ready.positive (not_lt.mpr off)
  | refused => cases charged
  | @again lastMs held elapsed =>
      have since : time.toInt ≤ lastMs.toInt := by
        rcases remembers with ⟨ownMs, own, since⟩ | ⟨-, recent⟩
        · rw [held] at own
          cases own
          exact since
        · exact recent key _ held
      omega
  | @replaced oldestMs oldestKey unknown full listed least elapsed =>
      have since : time.toInt ≤ oldestMs.toInt := by
        rcases remembers with ⟨ownMs, own, -⟩ | ⟨-, recent⟩
        · rw [unknown] at own
          cases own
        · exact recent _ _ ((ready.inStep _ _).mp listed)
      omega
  | fresh unknown room =>
      rcases remembers with ⟨ownMs, own, -⟩ | ⟨full, -⟩
      · rw [unknown] at own
        cases own
      · exact absurd room (not_lt.mpr full)

end Answers

def boundedCooldown (Key : Type) [LinearOrder Key] (gap : Int) : Cooldown (BoundedRateLimiter Key) Key Int64 where
  allow := BoundedRateLimiter.allow
  stamp := Int64.toInt
  gap
  Sound := Ready gap
  Holds := Remembers
  sound_allow ready := (bounded_answer _ _ _).ready ready
  holds_charged ready charged := (bounded_answer _ _ _).charged ready charged
  holds_allow ready held := (bounded_answer _ _ _).remembers ready held
  apart ready held charged := (bounded_answer _ _ _).apart ready held charged

theorem Answer.within {answered : BoundedRateLimiter Key × Bool} (answer : Answer limiter key now answered)
    (inStep : InStep limiter) (within : limiter.last.size ≤ limiter.maxKeys) :
    answered.1.maxKeys = limiter.maxKeys ∧ answered.1.last.size ≤ limiter.maxKeys := by
  cases answer with
  | unthrottled | refused => exact ⟨rfl, within⟩
  | again held _ => exact ⟨rfl, (size_record_again held).trans_le within⟩
  | replaced unknown _ listed _ _ =>
      exact ⟨rfl, (size_replaced unknown ((inStep _ _).mp listed)).trans_le within⟩
  | fresh _ room => exact ⟨rfl, (size_record_le limiter key now).trans room⟩

theorem Answer.kept {answered : BoundedRateLimiter Key × Bool} (answer : Answer limiter key now answered)
    (refused : answered.2 = false) : answered.1 = limiter := by
  cases answer with
  | unthrottled | again | replaced | fresh => cases refused
  | refused => rfl

end Bounded

/-! Runs of calls, at whatever times the caller's clock gives. -/
section Calls
variable {Key : Type} [LinearOrder Key]

structure Call (Key : Type) where
  key : Key
  now : Int64
  admitted : Bool

def afterCalls (limiter : BoundedRateLimiter Key) (asked : List (Key × Int64)) : BoundedRateLimiter Key :=
  asked.foldl (fun limiter call => (limiter.allow call.1 call.2).1) limiter

def calls (limiter : BoundedRateLimiter Key) : List (Key × Int64) → List (Call Key)
  | [] => []
  | (key, now) :: rest =>
      let answered := limiter.allow key now
      ⟨key, now, answered.2⟩ :: calls answered.1 rest

theorem calls_snoc (limiter : BoundedRateLimiter Key) (asked : List (Key × Int64)) (key : Key) (now : Int64) :
    calls limiter (asked ++ [(key, now)]) =
      calls limiter asked ++ [⟨key, now, ((afterCalls limiter asked).allow key now).2⟩] := by
  induction asked generalizing limiter with
  | nil => rfl
  | cons call rest ih =>
      rw [List.cons_append, calls, ih]
      rfl

def Admits (call : Call Key) (key : Key) (now : Int64) : Prop :=
  call.key = key ∧ call.now = now ∧ call.admitted = true

theorem calls_spaced {gap : Int} {limiter : BoundedRateLimiter Key} (ready : Ready gap limiter)
    (within : limiter.last.size ≤ limiter.maxKeys) (asked : List (Key × Int64)) :
    Spaced (boundedCooldown Key gap) Admits (calls limiter asked) (afterCalls limiter asked) ∧
      (afterCalls limiter asked).maxKeys = limiter.maxKeys ∧
      (afterCalls limiter asked).last.size ≤ limiter.maxKeys := by
  induction asked using List.reverseRecOn with
  | nil => exact ⟨spaced_nil ready, rfl, within⟩
  | append_singleton asked call ih =>
      obtain ⟨key, now⟩ := call
      obtain ⟨spaced, budget, bounded⟩ := ih
      have answer := bounded_answer (afterCalls limiter asked) key now
      obtain ⟨sameBudget, size⟩ := answer.within spaced.sound.inStep (budget ▸ bounded)
      have next : afterCalls limiter (asked ++ [(key, now)]) = ((afterCalls limiter asked).allow key now).1 := by
        simp [afterCalls]
      rw [calls_snoc, next]
      refine ⟨spaced.snoc (.asked key now ?_), sameBudget.trans budget, size.trans_eq budget⟩
      rintro other time ⟨rfl, rfl, admitted⟩
      exact ⟨rfl, rfl, admitted⟩

/-- The retained keys stay within the budget and in step with their index by age, and a key's
admissions keep the interval even across its eviction. -/
theorem bounded_limiter_spaces (minIntervalMs : Int64) (maxKeys : Nat) (positive : 0 < minIntervalMs)
    (asked : List (Key × Int64)) :
    (∀ lastMs key, toLex (lastMs, key) ∈ (afterCalls { minIntervalMs, maxKeys } asked).oldest ↔
        (afterCalls { minIntervalMs, maxKeys } asked).last.get? key = some lastMs) ∧
      (afterCalls { minIntervalMs, maxKeys } asked).last.size ≤ maxKeys ∧
      (∀ key now, ((afterCalls { minIntervalMs, maxKeys } asked).allow key now).2 = false →
        ((afterCalls { minIntervalMs, maxKeys } asked).allow key now).1 = afterCalls { minIntervalMs, maxKeys } asked) ∧
      (calls { minIntervalMs, maxKeys } asked).Pairwise fun earlier later => earlier.key = later.key →
        earlier.admitted = true → later.admitted = true →
        minIntervalMs.toInt ≤ later.now.toInt - earlier.now.toInt := by
  have ready : Ready minIntervalMs.toInt ({ minIntervalMs, maxKeys } : BoundedRateLimiter Key) :=
    ⟨positive, rfl, by simp [InStep]⟩
  have empty : ({ minIntervalMs, maxKeys } : BoundedRateLimiter Key).last.size ≤ maxKeys := by simp
  obtain ⟨spaced, -, within⟩ := calls_spaced ready empty asked
  refine ⟨spaced.sound.inStep, within, fun key now => (bounded_answer _ key now).kept, ?_⟩
  refine spaced.apart.imp fun {earlier later} apart same first second => ?_
  have gap : earlier.now.toInt + minIntervalMs.toInt ≤ later.now.toInt :=
    apart later.key earlier.now later.now ⟨same, rfl, first⟩ ⟨rfl, rfl, second⟩
  omega

/-- Key 1 is evicted for key 3 and waits for its turn again. -/
theorem bounded_limiter_spaces_evicted :
    let asked : List (Nat × Int64) := [(1, 1000), (2, 1001), (3, 1249), (3, 1250), (1, 1300), (1, 1251)]
    (afterCalls { minIntervalMs := 250, maxKeys := 2 } asked).last.size ≤ 2 ∧
      (calls { minIntervalMs := 250, maxKeys := 2 } asked).map Call.admitted =
        [true, true, false, true, true, false] := by
  refine ⟨(bounded_limiter_spaces 250 2 (by decide) _).2.1, by decide +kernel⟩

end Calls
end SailwindOnline.Throttles
