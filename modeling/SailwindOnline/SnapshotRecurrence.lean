import SailwindOnline.SnapshotFreshness

/-!
The recurrence bound of the configuration against the broadcaster. The bound
counts whole rounds of the circle: a recipient comes round every `rounds` calls
and is due every `intervals` of its visits. The window wraps around the circle, so
visits are often closer than that, and one that comes too early is skipped.
-/

namespace SailwindOnline.SnapshotLane.Stage

/-- The calls that the bound allows a recipient's turn to come round. -/
def rounds (stage : Stage) : Nat := (stage.crowd + (snapshotPacketsPerTick - 1)) / snapshotPacketsPerTick

def intervals (stage : Stage) : Nat := (stage.cadence.toNat + (stage.rounds - 1)) / stage.rounds

def recurrence (stage : Stage) : Nat := stage.intervals * stage.rounds * packets stage.visible

end SailwindOnline.SnapshotLane.Stage

namespace SailwindOnline.SnapshotRecurrence
open Server RoundRobin SnapshotLane SnapshotSchedule SnapshotFreshness

/-! The bound. -/
section Bound
variable {stage : Stage}

theorem rounds_pos (inhabited : 0 < stage.crowd) : 0 < stage.rounds := by
  unfold Stage.rounds snapshotPacketsPerTick
  omega

theorem window_rounds (stage : Stage) : stage.crowd ≤ stage.window * stage.rounds := by
  unfold Stage.rounds Stage.window snapshotPacketsPerTick
  rcases Nat.le_total 32 stage.crowd with large | small
  · rw [Nat.min_eq_left large]
    omega
  · rw [Nat.min_eq_right small]
    rcases Nat.eq_zero_or_pos stage.crowd with empty | inhabited
    · omega
    · have one : (stage.crowd + (32 - 1)) / 32 = 1 := by omega
      rw [one, Nat.mul_one]

/-- Where the turns that the bound counts last as long as the cadence, the bound is kept. -/
theorem returns_of_full_rounds (inhabited : 0 < stage.crowd)
    (full : stage.window * stage.cadence.toNat ≤ stage.intervals * stage.crowd) (visits : Nat) :
    stage.ReturnsWithin visits (stage.intervals * stage.rounds * visits + 1) := by
  intro place inside
  have turns := stage.window_pos inhabited
  have bounded : ∀ visits, duePosition stage.crowd stage.window stage.cadence.toNat place visits ≤
      place + visits * (stage.intervals * stage.crowd) := by
    intro visits
    induction visits with
    | zero => simp [duePosition]
    | succ visits ih =>
        have target := Nat.mul_div_le (duePosition stage.crowd stage.window stage.cadence.toNat place visits)
          stage.window
        simp only [duePosition, firstFrom]
        generalize duePosition stage.crowd stage.window stage.cadence.toNat place visits = last at ih target ⊢
        have wait : stage.window * (last / stage.window + stage.cadence.toNat) - last ≤
            stage.intervals * stage.crowd := by
          rw [Nat.mul_add]
          omega
        have laps : (stage.window * (last / stage.window + stage.cadence.toNat) - last + (stage.crowd - 1)) /
            stage.crowd ≤ stage.intervals := by
          rw [← Nat.lt_succ_iff, Nat.div_lt_iff_lt_mul inhabited, Nat.succ_mul]
          omega
        have moved := Nat.mul_le_mul_right stage.crowd laps
        rw [Nat.succ_mul]
        omega
  have covered : visits * (stage.intervals * stage.crowd) ≤
      stage.window * (stage.intervals * stage.rounds * visits) := by
    calc visits * (stage.intervals * stage.crowd)
        ≤ visits * (stage.intervals * (stage.window * stage.rounds)) := by
          gcongr
          exact window_rounds stage
      _ = stage.window * (stage.intervals * stage.rounds * visits) := by ring
  have last := bounded visits
  rw [Stage.dueCalls, Nat.div_lt_iff_lt_mul turns, Nat.succ_mul, Nat.mul_comm _ stage.window]
  omega

theorem full_rounds (inhabited : 0 < stage.crowd)
    (fills : stage.crowd ≤ snapshotPacketsPerTick ∨ snapshotPacketsPerTick ∣ stage.crowd) :
    stage.window * stage.cadence.toNat ≤ stage.intervals * stage.crowd := by
  have exact : stage.crowd = stage.window * stage.rounds := by
    unfold Stage.rounds Stage.window snapshotPacketsPerTick at *
    rcases fills with small | ⟨windows, whole⟩
    · rw [Nat.min_eq_right small]
      have one : (stage.crowd + (32 - 1)) / 32 = 1 := by omega
      rw [one, Nat.mul_one]
    · rw [Nat.min_eq_left (by omega)]
      omega
  have enough : stage.cadence.toNat ≤ stage.intervals * stage.rounds := by
    have positive := rounds_pos inhabited
    have rounded := Nat.lt_div_mul_add (a := stage.cadence.toNat + (stage.rounds - 1)) positive
    unfold Stage.intervals
    omega
  calc stage.window * stage.cadence.toNat
      ≤ stage.window * (stage.intervals * stage.rounds) := Nat.mul_le_mul_left _ enough
    _ = stage.intervals * (stage.window * stage.rounds) := by ring
    _ = stage.intervals * stage.crowd := by rw [← exact]

theorem checkedU64_eq {value : Nat} (small : value < 2 ^ 64) : checkedU64 value = some value := if_pos small

theorem checkedDivCeil_eq {value divisor : Nat} (positive : 0 < divisor) (small : value + (divisor - 1) < 2 ^ 64) :
    checkedDivCeil value divisor = some ((value + (divisor - 1)) / divisor) := by
  rw [checkedDivCeil, if_neg (Nat.ne_of_gt positive), checkedU64_eq small, Option.map_some]

theorem recurrence_small (fits : stage.crowd ≤ 1024) (sees : stage.visible ≤ snapshotVisibilityCeiling) :
    stage.intervals * stage.rounds ≤ (stage.cadence.toNat + 31) * 32 ∧
      stage.recurrence ≤ (stage.cadence.toNat + 31) * 32 * 3 := by
  have rounds : stage.rounds ≤ 32 := by
    unfold Stage.rounds snapshotPacketsPerTick
    omega
  have intervals : stage.intervals ≤ stage.cadence.toNat + 31 := (Nat.div_le_self _ _).trans (by omega)
  have chunks : packets stage.visible ≤ 3 := by
    unfold packets snapshotVisibilityCeiling snapshotEntitiesPerPacket at *
    omega
  exact ⟨Nat.mul_le_mul intervals rounds, Nat.mul_le_mul (Nat.mul_le_mul intervals rounds) chunks⟩

theorem snapshotRecurrenceTicks_eq (several : 2 ≤ stage.crowd) (fits : stage.crowd ≤ 1024)
    (sees : stage.visible = min (stage.crowd - 1) snapshotVisibilityCeiling) (positive : 0 < stage.cadence.toNat) :
    snapshotRecurrenceTicks (UInt32.ofNat stage.crowd) stage.cadence.toNat = some stage.recurrence := by
  have counted : (UInt32.ofNat stage.crowd).toNat = stage.crowd := by
    rw [UInt32.toNat_ofNat']
    omega
  have short := stage.cadence.toNat_lt
  obtain ⟨aligned, whole⟩ := recurrence_small fits (sees.trans_le (Nat.min_le_right _ _))
  have turns : 0 < stage.rounds := rounds_pos (by omega)
  have few : stage.rounds ≤ stage.crowd := by
    unfold Stage.rounds snapshotPacketsPerTick
    omega
  have round : checkedDivCeil stage.crowd snapshotPacketsPerTick = some stage.rounds :=
    checkedDivCeil_eq (by decide) (by unfold snapshotPacketsPerTick; omega)
  have chunks : checkedDivCeil stage.visible snapshotEntitiesPerPacket = some (packets stage.visible) :=
    checkedDivCeil_eq (by decide) (by unfold snapshotEntitiesPerPacket; omega)
  have waits : checkedDivCeil stage.cadence.toNat stage.rounds = some stage.intervals :=
    checkedDivCeil_eq turns (by omega)
  unfold Stage.recurrence at whole ⊢
  rw [snapshotRecurrenceTicks, counted, if_neg (by omega), if_neg (Nat.ne_of_gt positive), round, ← sees]
  simp only [Option.bind_eq_bind, Option.bind_some, chunks, waits]
  rw [checkedU64_eq (by omega), Option.bind_some, checkedU64_eq (by omega)]

end Bound

/-! Runs. -/
section Runs
variable {F : Type} [Platform F] [Codec F] {peer : PeerId} {session : Session F}

/-- Two advertisements of a player to a recipient are within the computed recurrence of each other
in every run in which the recipient's due visits are. -/
theorem recurrence_bounds (fit : SnapshotsFit F) (run : Run F)
    (found : (run.server 0).sessions.get? peer = some session)
    (returns : (stageOf (run.server 0)).ReturnsWithin
      ((laneOf (run.server 0) peer session).repeatVisits (stageOf (run.server 0)).visible)
      ((stageOf (run.server 0)).recurrence + 1))
    (player : UInt64) (call : Nat) (listed : player ∈ advertised (run.server call) peer) :
    ∃ bound, snapshotRecurrenceTicks (UInt32.ofNat (run.server 0).sessions.size)
        (run.server 0).cfg.ticksPerSnapshot = some bound ∧
      (∃ later, NextShown run peer player call later) ∧
        ∀ later, NextShown run peer player call later → later - call ≤ bound := by
  have crowd := crowd_le (run.gathered 0)
  have selected := run_advertised run fit found call
  have several : 2 ≤ (run.server 0).sessions.size := by
    rw [selected, List.mem_filterMap] at listed
    obtain ⟨_, -, at_place⟩ := listed
    have visible := List.length_pos_of_mem (List.mem_of_getElem? at_place)
    rw [visible_eq (run.gathered 0) found] at visible
    have others : 0 < min ((run.server 0).sessions.size - 1) snapshotVisibilityCeiling := visible
    omega
  have paced : (stageOf (run.server 0)).cadence.toNat = (run.server 0).cfg.ticksPerSnapshot := cadence_eq _
  have cadence : 0 < (stageOf (run.server 0)).cadence.toNat := by
    rw [paced]
    exact Nat.lt_of_lt_of_le Nat.zero_lt_one (Nat.le_max_right _ _)
  have ticks : (run.server 0).cfg.ticksPerSnapshot ≤ 255 := ticksPerSnapshot_le _
  have sees : (stageOf (run.server 0)).visible ≤ snapshotVisibilityCeiling := Nat.min_le_right _ _
  obtain ⟨-, small⟩ := recurrence_small crowd sees
  obtain ⟨later, after, soon, again⟩ := shown_within run fit found (Nat.le_refl _) returns (by omega) listed
  obtain ⟨following, first⟩ := nextShown_of after again
  refine ⟨(stageOf (run.server 0)).recurrence, ?_, following, ?_⟩
  · rw [← paced]
    exact snapshotRecurrenceTicks_eq several crowd rfl cadence
  · intro next shown
    have before := first next shown
    omega

theorem recurrence_bounds_crowd :
    ∃ peer player later, player ∈ advertised ((crowdRun 64 (by omega)).server 0) peer ∧
      NextShown (crowdRun 64 (by omega)) peer player 0 later ∧ later ≤ 12 := by
  have fits : 64 ≤ 80 := by omega
  have crowd := crowdRun_crowd fits
  obtain ⟨peer, session, player, found, fresh, -, shown⟩ := crowd_shows (by omega) fits
  have listed : player ∈ advertised ((crowdRun 64 fits).server 0) peer := by
    rw [shown]
    decide +kernel
  have returns : (stageOf ((crowdRun 64 fits).server 0)).ReturnsWithin
      ((laneOf ((crowdRun 64 fits).server 0) peer session).repeatVisits (stageOf ((crowdRun 64 fits).server 0)).visible)
      ((stageOf ((crowdRun 64 fits).server 0)).recurrence + 1) := by
    rw [fresh, crowd_stage fits]
    exact returns_of_full_rounds (by decide) (full_rounds (by decide) (Or.inr (by decide))) 3
  obtain ⟨bound, computed, ⟨later, next⟩, within⟩ := recurrence_bounds snapshots_fit (crowdRun 64 fits) found
    returns player 0 listed
  have twelve : snapshotRecurrenceTicks (UInt32.ofNat ((crowdRun 64 fits).server 0).sessions.size)
      ((crowdRun 64 fits).server 0).cfg.ticksPerSnapshot = some 12 := by
    rw [crowd.size, crowd.cfg]
    decide
  rw [twelve, Option.some.injEq] at computed
  have soon := within later next
  exact ⟨peer, player, later, listed, next, by omega⟩

/-- Eighty sessions at a nominal cadence of three ticks: the bound says nine calls, the broadcaster
takes fifteen. -/
theorem recurrence_exceeded :
    ∃ run : Run Int, (run.server 0).sessions.size = 80 ∧ (run.server 0).cfg.ticksPerSnapshot = 3 ∧
      snapshotRecurrenceTicks 80 3 = some 9 ∧
      ∃ peer session player, (run.server 0).sessions.get? peer = some session ∧
        player ∈ selection (run.server 0).playerOrder session.playerId ∧
        player ∈ advertised (run.server 0) peer ∧ NextShown run peer player 0 15 := by
  have fits : 80 ≤ 80 := Nat.le_refl 80
  have crowd := crowdRun_crowd fits
  refine ⟨crowdRun 80 fits, crowd.size, ?_, by decide, crowd_skips fits⟩
  rw [crowd.cfg]
  decide

end Runs
end SailwindOnline.SnapshotRecurrence
