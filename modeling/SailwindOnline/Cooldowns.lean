import Mathlib.Order.Basic

/-!
Gates that keep admissions of one key apart. A gate may forget and may refuse
whom it likes, but a charge it has taken holds its key back for the length of
the gap: whatever a gate still holds against a key was charged at least a gap
before the key's next admission. A history of admissions is then spaced by the
gap, whatever else the gate was asked in between.
-/

namespace SailwindOnline.Cooldowns

/-- `stamp` reads a time as an exact integer; times need not grow from call to call. -/
structure Cooldown (State Key Time : Type) where
  allow : State → Key → Time → State × Bool
  stamp : Time → Int
  gap : Int
  Sound : State → Prop
  Holds : State → Key → Time → Prop
  sound_allow : ∀ {state key now}, Sound state → Sound (allow state key now).1
  holds_charged : ∀ {state key now}, Sound state → (allow state key now).2 = true →
    Holds (allow state key now).1 key now
  holds_allow : ∀ {state key time other now}, Sound state → Holds state key time →
    Holds (allow state other now).1 key time
  apart : ∀ {state key time now}, Sound state → Holds state key time → (allow state key now).2 = true →
    stamp time + gap ≤ stamp now

section Histories
variable {State Key Time Entry : Type} {cooldown : Cooldown State Key Time}
  {charge : Entry → Key → Time → Prop} {history : List Entry} {entry : Entry} {state after : State}

/-- What one entry of a history did to the gate: nothing, or one question that it charged only if admitted. -/
inductive Moved (cooldown : Cooldown State Key Time) (charge : Entry → Key → Time → Prop) (entry : Entry)
    (state : State) : State → Prop
  | still (free : ∀ key now, ¬ charge entry key now) : Moved cooldown charge entry state state
  | asked (key : Key) (now : Time) (charged : ∀ other time, charge entry other time →
      other = key ∧ time = now ∧ (cooldown.allow state key now).2 = true) :
      Moved cooldown charge entry state (cooldown.allow state key now).1

theorem Moved.uncharged (free : ∀ key now, ¬ charge entry key now)
    (asked : after = state ∨ ∃ key now, after = (cooldown.allow state key now).1) :
    Moved cooldown charge entry state after := by
  rcases asked with rfl | ⟨key, now, rfl⟩
  · exact .still free
  · exact .asked key now fun other time charged => absurd charged (free other time)

structure Spaced (cooldown : Cooldown State Key Time) (charge : Entry → Key → Time → Prop)
    (history : List Entry) (state : State) : Prop where
  sound : cooldown.Sound state
  held : ∀ entry ∈ history, ∀ key time, charge entry key time → cooldown.Holds state key time
  apart : history.Pairwise fun earlier later => ∀ key before after, charge earlier key before →
    charge later key after → cooldown.stamp before + cooldown.gap ≤ cooldown.stamp after

theorem spaced_nil (sound : cooldown.Sound state) : Spaced cooldown charge [] state :=
  ⟨sound, by simp, List.Pairwise.nil⟩

theorem Spaced.snoc (spaced : Spaced cooldown charge history state)
    (moved : Moved cooldown charge entry state after) : Spaced cooldown charge (history ++ [entry]) after := by
  cases moved with
  | still free =>
      refine ⟨spaced.sound, ?_, ?_⟩
      · intro other member key time charged
        rcases List.mem_append.mp member with earlier | last
        · exact spaced.held other earlier key time charged
        · rw [List.mem_singleton.mp last] at charged
          exact absurd charged (free key time)
      · refine List.pairwise_append.mpr ⟨spaced.apart, List.pairwise_singleton _ _, ?_⟩
        intro earlier _ later last key before after _ charged
        rw [List.mem_singleton.mp last] at charged
        exact absurd charged (free key after)
  | asked key now charged =>
      refine ⟨cooldown.sound_allow spaced.sound, ?_, ?_⟩
      · intro other member held time taken
        rcases List.mem_append.mp member with earlier | last
        · exact cooldown.holds_allow spaced.sound (spaced.held other earlier held time taken)
        · rw [List.mem_singleton.mp last] at taken
          obtain ⟨rfl, rfl, admitted⟩ := charged held time taken
          exact cooldown.holds_charged spaced.sound admitted
      · refine List.pairwise_append.mpr ⟨spaced.apart, List.pairwise_singleton _ _, ?_⟩
        intro earlier member later last held before after first second
        rw [List.mem_singleton.mp last] at second
        obtain ⟨rfl, rfl, admitted⟩ := charged held after second
        exact cooldown.apart spaced.sound (spaced.held earlier member held before first) admitted

end Histories
end SailwindOnline.Cooldowns
