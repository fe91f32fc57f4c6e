import SailwindOnline.Config
import SailwindOnline.RoundRobin

/-!
The snapshot schedule of one recipient while the same players stay in view: its
place in the round-robin circle, when it was last due, and how far the sweep over
its selection has come. Players are positions in that selection. A sweep left over
from an earlier selection ends with a short packet, which costs one due visit.
-/

namespace SailwindOnline.SnapshotLane
open RoundRobin

structure Stage where
  crowd : Nat
  visible : Nat
  cadence : UInt32

structure Lane where
  place : Nat
  tick : UInt32
  lastVisit : UInt32
  position : Option Nat
  remaining : Nat
deriving DecidableEq

namespace Lane

def planned (visible : Nat) (lane : Lane) : Nat :=
  if lane.remaining = 0 ∨ lane.position = none then visible else min lane.remaining visible

def start (visible : Nat) (lane : Lane) : Nat :=
  match lane.position with
  | none => 0
  | some position => (position + 1) % visible

def emitted (visible : Nat) (lane : Lane) : Nat := min (lane.planned visible) snapshotEntitiesPerPacket

def advertised (visible : Nat) (lane : Lane) : List Nat :=
  (List.range (lane.emitted visible)).map fun offset => (lane.start visible + offset) % visible

end Lane

namespace Stage

def window (stage : Stage) : Nat := min snapshotPacketsPerTick stage.crowd

def works (stage : Stage) (lane : Lane) : Bool :=
  decide (lane.place < stage.window) &&
    !(lane.lastVisit ≠ 0 && decide (lane.tick + 1 - lane.lastVisit < stage.cadence))

def moved (stage : Stage) (lane : Lane) : Lane :=
  { lane with place := advance stage.crowd stage.window lane.place, tick := lane.tick + 1 }

def swept (stage : Stage) (lane : Lane) : Lane :=
  { stage.moved lane with
    lastVisit := lane.tick + 1
    position :=
      if stage.visible = 0 then none
      else some ((lane.start stage.visible + lane.emitted stage.visible - 1) % stage.visible)
    remaining := lane.planned stage.visible - lane.emitted stage.visible }

/-- One call of the broadcaster. -/
def next (stage : Stage) (lane : Lane) : Lane :=
  if stage.works lane then stage.swept lane else stage.moved lane

def shows (stage : Stage) (lane : Lane) : List Nat :=
  if stage.works lane then lane.advertised stage.visible else []

end Stage

/-! Calls. -/
section Calls
variable (stage : Stage) (lane : Lane)

theorem next_place : (stage.next lane).place = advance stage.crowd stage.window lane.place := by
  unfold Stage.next
  split <;> rfl

theorem next_tick : (stage.next lane).tick = lane.tick + 1 := by
  unfold Stage.next
  split <;> rfl

theorem iterate_place (calls : Nat) :
    (stage.next^[calls] lane).place = (advance stage.crowd stage.window)^[calls] lane.place := by
  induction calls with
  | zero => rfl
  | succ calls ih => rw [Function.iterate_succ_apply', Function.iterate_succ_apply', next_place, ih]

theorem iterate_tick (calls : Nat) :
    (stage.next^[calls] lane).tick.toNat = (lane.tick.toNat + calls) % 2 ^ 32 := by
  induction calls with
  | zero => exact (Nat.mod_eq_of_lt lane.tick.toNat_lt).symm
  | succ calls ih =>
      rw [Function.iterate_succ_apply', next_tick, UInt32.toNat_add, ih]
      simp only [UInt32.reduceToNat]
      omega

variable {stage lane}

/-- The sweep stands still from one piece of work to the next. -/
theorem idle_kept {last next : Nat} (later : last < next)
    (idle : ∀ between, last < between → between < next → ¬ stage.works (stage.next^[between] lane) = true) :
    (stage.next^[next] lane).lastVisit = (stage.next^[last + 1] lane).lastVisit ∧
      (stage.next^[next] lane).position = (stage.next^[last + 1] lane).position ∧
      (stage.next^[next] lane).remaining = (stage.next^[last + 1] lane).remaining := by
  induction next, (show last + 1 ≤ next from later) using Nat.le_induction with
  | base => exact ⟨rfl, rfl, rfl⟩
  | succ next inside ih =>
      have resting := idle next (by omega) (by omega)
      obtain ⟨visit, position, remaining⟩ := ih (by omega) fun between after before =>
        idle between after (by omega)
      have still : stage.next^[next + 1] lane = stage.moved (stage.next^[next] lane) := by
        rw [Function.iterate_succ_apply', Stage.next, if_neg resting]
      rw [still]
      exact ⟨visit, position, remaining⟩

theorem after_work {call : Nat} (worked : stage.works (stage.next^[call] lane) = true) :
    stage.next^[call + 1] lane = stage.swept (stage.next^[call] lane) := by
  rw [Function.iterate_succ_apply', Stage.next, if_pos worked]

/-- The tick counter may wrap and zero stands for no visit at all: both make a recipient due
earlier, never later. -/
theorem lane_paced (stage : Stage) (lane : Lane) (positive : 0 < stage.cadence.toNat) :
    Paced stage.crowd stage.window stage.cadence.toNat lane.place (2 ^ 32)
      (fun call => stage.works (stage.next^[call] lane) = true) := by
  intro last turn worked due near served
  by_contra idle
  have resting : ∀ between, last < between → between ≤ turn →
      ¬ stage.works (stage.next^[between] lane) = true := by
    intro between after before works
    exact idle ⟨between, after, before, works⟩
  have later : last < turn := by omega
  have visit := (idle_kept later fun between after before => resting between after (by omega)).1
  rw [after_work worked] at visit
  -- Wrapping subtraction counts the calls since the visit as long as they stay below the horizon.
  have elapsed : ((stage.next^[turn] lane).tick + 1 - (stage.next^[turn] lane).lastVisit).toNat =
      turn - last := by
    rw [visit]
    simp only [Stage.swept, UInt32.toNat_sub, UInt32.toNat_add, iterate_tick, UInt32.reduceToNat]
    omega
  have spaced : ¬ (stage.next^[turn] lane).tick + 1 - (stage.next^[turn] lane).lastVisit < stage.cadence := by
    rw [UInt32.lt_iff_toNat_lt, elapsed]
    omega
  rw [← iterate_place] at served
  exact resting turn later (Nat.le_refl turn) (by simp [Stage.works, served, spaced])

end Calls

/-! Sweeps. -/
section Sweeps

def packets (entities : Nat) : Nat :=
  (entities + (snapshotEntitiesPerPacket - 1)) / snapshotEntitiesPerPacket

/-- Visits until the player `ahead` places further on is shown, with `remaining` left of the sweep. -/
def visitsLeft (remaining ahead : Nat) : Nat :=
  if ahead ≤ remaining then packets ahead else packets remaining + packets (ahead - remaining)

/-- The most visits between two showings of a player, the first of them the lane's next one. -/
def Lane.repeatVisits (visible : Nat) (lane : Lane) : Nat :=
  packets (lane.planned visible - lane.emitted visible) +
    packets (visible - (lane.planned visible - lane.emitted visible))

/-- Visits between two showings of a player, whatever sweep it started from. -/
def refreshVisits (visible : Nat) : Nat :=
  if visible ≤ snapshotEntitiesPerPacket then 1 else packets (visible - 1) + 1

theorem planned_le (visible : Nat) (lane : Lane) : lane.planned visible ≤ visible := by
  unfold Lane.planned
  split <;> omega

theorem repeatVisits_le (visible : Nat) (lane : Lane) : lane.repeatVisits visible ≤ refreshVisits visible := by
  have whole := planned_le visible lane
  unfold Lane.repeatVisits Lane.emitted refreshVisits packets snapshotEntitiesPerPacket
  split <;> omega

theorem visitsLeft_pos (remaining : Nat) {ahead : Nat} (positive : 0 < ahead) :
    0 < visitsLeft remaining ahead := by
  unfold visitsLeft packets snapshotEntitiesPerPacket
  split <;> omega

theorem visitsLeft_le {visible remaining ahead : Nat} (bounded : ahead ≤ visible) :
    visitsLeft remaining ahead ≤ packets remaining + packets (visible - remaining) := by
  unfold visitsLeft packets snapshotEntitiesPerPacket
  split <;> omega

theorem repeatVisits_pos {visible : Nat} (some : 0 < visible) (lane : Lane) : 0 < lane.repeatVisits visible := by
  unfold Lane.repeatVisits packets snapshotEntitiesPerPacket
  omega

/-- A visit that does not show the player brings it one visit closer. -/
theorem visitsLeft_step {visible remaining ahead planned emitted : Nat} (bounded : ahead ≤ visible)
    (plan : planned = if remaining = 0 then visible else remaining)
    (emit : emitted = min planned snapshotEntitiesPerPacket) (beyond : emitted < ahead) :
    visitsLeft (planned - emitted) (ahead - emitted) + 1 ≤ visitsLeft remaining ahead := by
  unfold visitsLeft packets
  unfold snapshotEntitiesPerPacket at *
  subst emit
  split at plan <;> subst plan <;> split <;> split <;> omega

-- `player` is shown again after at most `count` further visits.
def Awaits (visible player : Nat) (lane : Lane) (count : Nat) : Prop :=
  ∃ position ahead, lane.position = some position ∧ 0 < ahead ∧ ahead ≤ visible ∧
    (position + ahead) % visible = player ∧ lane.remaining ≤ visible ∧
    visitsLeft lane.remaining ahead ≤ count + 1

variable {stage : Stage} {lane : Lane} {player : Nat}

theorem awaits_shown (visible : 0 < stage.visible) (shown : player ∈ lane.advertised stage.visible) :
    Awaits stage.visible player (stage.swept lane) (lane.repeatVisits stage.visible - 1) := by
  obtain ⟨offset, inside, rfl⟩ := List.mem_map.mp shown
  rw [List.mem_range] at inside
  have whole := planned_le stage.visible lane
  have emitted : lane.emitted stage.visible = min (lane.planned stage.visible) snapshotEntitiesPerPacket := rfl
  have ahead : lane.emitted stage.visible - 1 - offset < stage.visible := by omega
  refine ⟨_, stage.visible - (lane.emitted stage.visible - 1 - offset), if_neg (by omega), by omega, by omega,
    ?_, ?_, ?_⟩
  · rw [Nat.mod_add_mod]
    have round : lane.start stage.visible + lane.emitted stage.visible - 1 +
        (stage.visible - (lane.emitted stage.visible - 1 - offset)) =
        lane.start stage.visible + offset + stage.visible := by omega
    rw [round, Nat.add_mod_right]
  · show lane.planned stage.visible - lane.emitted stage.visible ≤ stage.visible
    omega
  · have left : visitsLeft (lane.planned stage.visible - lane.emitted stage.visible)
        (stage.visible - (lane.emitted stage.visible - 1 - offset)) ≤ lane.repeatVisits stage.visible :=
      visitsLeft_le (by omega)
    exact left.trans (by omega)

theorem awaits_step {count : Nat} (awaits : Awaits stage.visible player lane count) :
    player ∈ lane.advertised stage.visible ∨ ∃ fewer < count, Awaits stage.visible player (stage.swept lane) fewer := by
  obtain ⟨position, ahead, here, positive, bounded, rfl, whole, left⟩ := awaits
  have start : lane.start stage.visible = (position + 1) % stage.visible := by simp [Lane.start, here]
  have planned : lane.planned stage.visible = if lane.remaining = 0 then stage.visible else lane.remaining := by
    simp [Lane.planned, here, Nat.min_eq_left whole]
  have emitted : lane.emitted stage.visible = min (lane.planned stage.visible) snapshotEntitiesPerPacket := rfl
  -- Either the packet ends short of the player, or it reaches it.
  rcases Nat.lt_or_ge (lane.emitted stage.visible) ahead with beyond | covered
  · right
    have closer := visitsLeft_step bounded planned emitted beyond
    have pending := visitsLeft_pos (lane.planned stage.visible - lane.emitted stage.visible)
      (show 0 < ahead - lane.emitted stage.visible by omega)
    have some : 0 < lane.emitted stage.visible := by
      unfold snapshotEntitiesPerPacket at emitted
      split at planned <;> omega
    refine ⟨visitsLeft (lane.planned stage.visible - lane.emitted stage.visible)
      (ahead - lane.emitted stage.visible) - 1, by omega, _, ahead - lane.emitted stage.visible,
      if_neg (by omega), by omega, by omega, ?_, ?_, ?_⟩
    · have onward : (position + 1) % stage.visible + lane.emitted stage.visible - 1 +
          (ahead - lane.emitted stage.visible) = (position + 1) % stage.visible + (ahead - 1) := by omega
      rw [start, Nat.mod_add_mod, onward, Nat.mod_add_mod]
      congr 1
      omega
    · show lane.planned stage.visible - lane.emitted stage.visible ≤ stage.visible
      split at planned <;> omega
    · show visitsLeft (lane.planned stage.visible - lane.emitted stage.visible) _ ≤ _
      omega
  · left
    refine List.mem_map.mpr ⟨ahead - 1, List.mem_range.mpr (by omega), ?_⟩
    rw [start, Nat.mod_add_mod]
    congr 1
    omega

/-- The player's countdown only reads the sweep. -/
theorem awaits_congr {other : Lane} {visible count : Nat} (position : other.position = lane.position)
    (remaining : other.remaining = lane.remaining) (awaits : Awaits visible player lane count) :
    Awaits visible player other count := by
  unfold Awaits
  rw [position, remaining]
  exact awaits

theorem planned_swept (visible : 0 < stage.visible) (lane : Lane) :
    (stage.swept lane).planned stage.visible =
      if lane.planned stage.visible - lane.emitted stage.visible = 0 then stage.visible
      else lane.planned stage.visible - lane.emitted stage.visible := by
  have whole := planned_le stage.visible lane
  have remaining : (stage.swept lane).remaining = lane.planned stage.visible - lane.emitted stage.visible := rfl
  have position : (stage.swept lane).position ≠ none := by simp [Stage.swept, Nat.ne_of_gt visible]
  rw [Lane.planned, remaining]
  simp only [position, or_false]
  split
  · rfl
  · exact Nat.min_eq_left (by omega)

/-- A sweep that started short ends in one short packet, after which every sweep is whole. -/
theorem repeatVisits_next (visible : 0 < stage.visible) :
    (stage.next lane).repeatVisits stage.visible ≤ lane.repeatVisits stage.visible := by
  by_cases works : stage.works lane = true
  · have whole := planned_le stage.visible lane
    have planned := planned_swept visible lane
    rw [Stage.next, if_pos works]
    unfold Lane.repeatVisits Lane.emitted packets snapshotEntitiesPerPacket
    unfold Lane.emitted snapshotEntitiesPerPacket at planned
    split at planned <;> omega
  · rw [Stage.next, if_neg works]
    exact Nat.le_refl _

theorem repeatVisits_iterate (visible : 0 < stage.visible) (calls : Nat) :
    (stage.next^[calls] lane).repeatVisits stage.visible ≤ lane.repeatVisits stage.visible := by
  induction calls with
  | zero => exact Nat.le_refl _
  | succ calls ih =>
      rw [Function.iterate_succ_apply']
      exact (repeatVisits_next visible).trans ih

end Sweeps

/-! Refreshes. -/

namespace Stage

/-- The call, counted from a visit at `place`, of the latest possible n-th due visit after it. -/
def dueCalls (stage : Stage) (place visits : Nat) : Nat :=
  duePosition stage.crowd stage.window stage.cadence.toNat place visits / stage.window

def ReturnsWithin (stage : Stage) (visits limit : Nat) : Prop :=
  ∀ place < stage.window, stage.dueCalls place visits < limit

instance (stage : Stage) (visits limit : Nat) : Decidable (stage.ReturnsWithin visits limit) :=
  inferInstanceAs (Decidable (∀ place < stage.window, stage.dueCalls place visits < limit))

/-- The latest call, counted from a showing at `place`, by which the player is shown again. -/
def refreshCalls (stage : Stage) (place : Nat) : Nat :=
  duePosition stage.crowd stage.window stage.cadence.toNat place (refreshVisits stage.visible) / stage.window

def RefreshesWithin (stage : Stage) (expiry : Nat) : Prop :=
  ∀ place < stage.window, stage.refreshCalls place < expiry

instance (stage : Stage) (expiry : Nat) : Decidable (stage.RefreshesWithin expiry) :=
  inferInstanceAs (Decidable (∀ place < stage.window, stage.refreshCalls place < expiry))

theorem window_le (stage : Stage) : stage.window ≤ stage.crowd := Nat.min_le_right _ _

theorem window_pos (stage : Stage) (inhabited : 0 < stage.crowd) : 0 < stage.window := by
  unfold window snapshotPacketsPerTick
  omega

end Stage

theorem place_of_shows {stage : Stage} {lane : Lane} {player : Nat} (shown : player ∈ stage.shows lane) :
    stage.works lane = true ∧ lane.place < stage.window := by
  have worked : stage.works lane = true := by
    by_contra idle
    simp [Stage.shows, idle] at shown
  refine ⟨worked, ?_⟩
  by_contra outside
  simp [Stage.works, outside] at worked

/-- A player shown to a recipient is shown to it again by the last of the visits that its sweep can take. -/
theorem shown_after (stage : Stage) (lane : Lane) (inhabited : 0 < stage.crowd) (visible : 0 < stage.visible)
    (positive : 0 < stage.cadence.toNat) {visits : Nat} (enough : lane.repeatVisits stage.visible ≤ visits)
    (near : stage.dueCalls lane.place visits < 2 ^ 32) {player : Nat} (shown : player ∈ stage.shows lane) :
    ∃ calls, 0 < calls ∧ calls ≤ stage.dueCalls lane.place visits ∧
      player ∈ stage.shows (stage.next^[calls] lane) := by
  obtain ⟨worked, place⟩ := place_of_shows shown
  have listed : player ∈ lane.advertised stage.visible := by simpa [Stage.shows, worked] using shown
  have progress : ∀ last next count,
      stage.works (stage.next^[last] lane) = true →
      Awaits stage.visible player (stage.next^[last + 1] lane) count →
      stage.works (stage.next^[next] lane) = true → last < next →
      (∀ between, last < between → between < next → ¬ stage.works (stage.next^[between] lane) = true) →
      player ∈ stage.shows (stage.next^[next] lane) ∨
        ∃ fewer < count, Awaits stage.visible player (stage.next^[next + 1] lane) fewer := by
    intro last next count _ awaits works later idle
    obtain ⟨-, position, remaining⟩ := idle_kept later idle
    rcases awaits_step (awaits_congr position remaining awaits) with found | ⟨fewer, less, closer⟩
    · exact Or.inl (by simpa [Stage.shows, works] using found)
    · exact Or.inr ⟨fewer, less, by rwa [after_work works]⟩
  have first : Awaits stage.visible player (stage.next^[0 + 1] lane) (lane.repeatVisits stage.visible - 1) := by
    have swept : stage.next^[0 + 1] lane = stage.swept lane := after_work worked
    rw [swept]
    exact awaits_shown visible listed
  have early : 0 ≤ duePosition stage.crowd stage.window stage.cadence.toNat lane.place 0 / stage.window :=
    Nat.zero_le _
  have some := repeatVisits_pos visible lane
  exact countdown (lane_paced stage lane positive) stage.window_le (stage.window_pos inhabited)
    (Nat.lt_of_lt_of_le place stage.window_le) progress near worked first early
    (show lane.repeatVisits stage.visible - 1 + 0 < visits by omega)

end SailwindOnline.SnapshotLane
