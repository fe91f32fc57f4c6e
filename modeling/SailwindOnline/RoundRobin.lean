import Mathlib.Data.Nat.ModEq
import Mathlib.Logic.Function.Iterate
import Mathlib.Tactic.Ring

/-!
Turn taking on a circle. Every call serves the first `window` participants of a
`crowd` and sends them to the back. A participant that starts at some place is
served by call `t` whenever a position `place + rounds * crowd` falls into the
`window` positions of that call. Work that is due again `cadence` calls after it
was last done is done at the first such turn, or before.
-/

namespace SailwindOnline.RoundRobin

def advance (crowd window place : Nat) : Nat := (place + (crowd - window)) % crowd

/-- The first member of `start, start + period, …` from `target` on. -/
def firstFrom (period start target : Nat) : Nat :=
  start + (target - start + (period - 1)) / period * period

/-- The position of the latest possible n-th piece of work after one done at `place`. -/
def duePosition (crowd window cadence place : Nat) : Nat → Nat
  | 0 => place
  | visits + 1 =>
      let last := duePosition crowd window cadence place visits
      firstFrom crowd last (window * (last / window + cadence))

section Turns
variable {crowd window place : Nat}

theorem iterate_lt (inside : place < crowd) (calls : Nat) : (advance crowd window)^[calls] place < crowd := by
  cases calls with
  | zero => exact inside
  | succ calls =>
      rw [Function.iterate_succ_apply']
      exact Nat.mod_lt _ (Nat.zero_lt_of_lt inside)

theorem iterate_modEq (fits : window ≤ crowd) (place calls : Nat) :
    (advance crowd window)^[calls] place + window * calls ≡ place [MOD crowd] := by
  induction calls with
  | zero => exact Nat.ModEq.refl _
  | succ calls ih =>
      rw [Function.iterate_succ_apply']
      generalize (advance crowd window)^[calls] place = current at ih ⊢
      have wrapped : advance crowd window current ≡ current + (crowd - window) [MOD crowd] :=
        Nat.mod_modEq _ _
      have around : current + (crowd - window) + window * (calls + 1) = crowd + (current + window * calls) := by
        rw [Nat.mul_succ]
        omega
      calc advance crowd window current + window * (calls + 1)
          ≡ current + (crowd - window) + window * (calls + 1) [MOD crowd] := wrapped.add_right _
        _ ≡ current + window * calls [MOD crowd] := by
            rw [around]
            exact Nat.add_modEq_left
        _ ≡ place [MOD crowd] := ih

/-- The calls that serve a participant, and where it stands in them. -/
theorem arrival (fits : window ≤ crowd) (positive : 0 < window) (inside : place < crowd) (rounds : Nat) :
    (advance crowd window)^[(place + rounds * crowd) / window] place = (place + rounds * crowd) % window := by
  have reached := iterate_modEq fits place ((place + rounds * crowd) / window)
  have split : (place + rounds * crowd) % window + window * ((place + rounds * crowd) / window) ≡
      place [MOD crowd] := by
    rw [Nat.mod_add_div]
    exact Nat.add_mul_modulus_modEq_iff.mpr rfl
  have congruent := Nat.ModEq.add_right_cancel' _ (reached.trans split.symm)
  have small : (place + rounds * crowd) % window < crowd :=
    Nat.lt_of_lt_of_le (Nat.mod_lt _ positive) fits
  exact Nat.ModEq.eq_of_lt_of_lt congruent (iterate_lt inside _) small

end Turns

/-! Paced work. -/
section Work
variable {crowd window cadence place : Nat}

theorem le_firstFrom (period start target : Nat) (positive : 0 < period) :
    target ≤ firstFrom period start target := by
  have enough := Nat.lt_div_mul_add (a := target - start + (period - 1)) positive
  unfold firstFrom
  omega

theorem duePosition_on_circle (crowd window cadence place visits : Nat) :
    ∃ rounds, duePosition crowd window cadence place visits = place + rounds * crowd := by
  induction visits with
  | zero => exact ⟨0, by simp [duePosition]⟩
  | succ visits ih =>
      obtain ⟨rounds, position⟩ := ih
      simp only [duePosition, firstFrom, position]
      exact ⟨_, by rw [Nat.add_assoc, ← Nat.add_mul]⟩

theorem duePosition_spaced (positive : 0 < crowd) (turns : 0 < window) (cadence place visits : Nat) :
    duePosition crowd window cadence place visits / window + cadence ≤
      duePosition crowd window cadence place (visits + 1) / window := by
  rw [Nat.le_div_iff_mul_le turns, Nat.mul_comm]
  exact le_firstFrom crowd _ _ positive

theorem duePosition_mono (positive : 0 < crowd) (turns : 0 < window) (cadence place : Nat)
    {earlier later : Nat} (order : earlier ≤ later) :
    duePosition crowd window cadence place earlier / window ≤
      duePosition crowd window cadence place later / window := by
  induction later, order using Nat.le_induction with
  | base => exact Nat.le_refl _
  | succ later _ ih =>
      have spaced := duePosition_spaced positive turns cadence place later
      omega

/-- Until the horizon, a turn that comes `cadence` calls after some work does not pass idle. -/
def Paced (crowd window cadence place horizon : Nat) (works : Nat → Prop) : Prop :=
  ∀ last turn, works last → last + cadence ≤ turn → turn < horizon →
    (advance crowd window)^[turn] place < window → ∃ next, last < next ∧ next ≤ turn ∧ works next

variable {horizon : Nat} {works : Nat → Prop}

theorem next_work (paced : Paced crowd window cadence place horizon works) (fits : window ≤ crowd)
    (turns : 0 < window) (inside : place < crowd) {last visits : Nat} (worked : works last)
    (early : last ≤ duePosition crowd window cadence place visits / window)
    (soon : duePosition crowd window cadence place (visits + 1) / window < horizon) :
    ∃ next, last < next ∧ next ≤ duePosition crowd window cadence place (visits + 1) / window ∧
      works next ∧ ∀ between, last < between → between < next → ¬ works between := by
  have positive := Nat.lt_of_lt_of_le turns fits
  have spaced := duePosition_spaced positive turns cadence place visits
  have served : (advance crowd window)^[duePosition crowd window cadence place (visits + 1) / window] place <
      window := by
    obtain ⟨rounds, position⟩ := duePosition_on_circle crowd window cadence place (visits + 1)
    rw [position, arrival fits turns inside]
    exact Nat.mod_lt _ turns
  have again : ∃ next, last < next ∧ works next := by
    obtain ⟨next, later, -, works⟩ := paced last _ worked (by omega) soon served
    exact ⟨next, later, works⟩
  classical
  refine ⟨Nat.find again, (Nat.find_spec again).1, ?_, (Nat.find_spec again).2, ?_⟩
  · obtain ⟨next, later, bounded, works⟩ := paced last _ worked (by omega) soon served
    exact (Nat.find_min' again ⟨later, works⟩).trans bounded
  · intro between after before worksBetween
    exact Nat.find_min again before ⟨after, worksBetween⟩

/-- A countdown that falls with every piece of work reaches its goal within as many due
positions. -/
theorem countdown (paced : Paced crowd window cadence place horizon works) (fits : window ≤ crowd)
    (turns : 0 < window) (inside : place < crowd) {left : Nat → Nat → Prop} {reached : Nat → Prop}
    (progress : ∀ last next count, works last → left last count → works next → last < next →
      (∀ between, last < between → between < next → ¬ works between) →
      reached next ∨ ∃ fewer < count, left next fewer)
    {total : Nat} (soon : duePosition crowd window cadence place total / window < horizon)
    {last visits count : Nat} (worked : works last) (counted : left last count)
    (early : last ≤ duePosition crowd window cadence place visits / window)
    (enough : count + visits < total) :
    ∃ turn, last < turn ∧ turn ≤ duePosition crowd window cadence place total / window ∧ reached turn := by
  have positive := Nat.lt_of_lt_of_le turns fits
  induction count using Nat.strong_induction_on generalizing last visits with
  | _ count ih =>
      have within := duePosition_mono positive turns cadence place (show visits + 1 ≤ total by omega)
      obtain ⟨next, later, bounded, works, idle⟩ := next_work paced fits turns inside worked early (by omega)
      rcases progress last next count worked counted works later idle with done | ⟨fewer, less, counted⟩
      · exact ⟨next, later, by omega, done⟩
      · obtain ⟨turn, after, before, done⟩ := ih fewer less works counted bounded (by omega)
        exact ⟨turn, by omega, before, done⟩

end Work
end SailwindOnline.RoundRobin
