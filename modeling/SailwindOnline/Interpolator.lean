import Mathlib.Algebra.Order.Field.Basic
import Mathlib.Algebra.Order.Field.Rat
import SailwindOnline.SnapshotCache

/-!
The pose of a remote entity at a render time. Samples carry whatever times came
from the wire, so neighbours may stand in either order; between the oldest and
the newest of them some neighbours still bracket every time.
-/

namespace SailwindOnline.Sync

/-- The arithmetic of single-precision floats that the sampler computes with. -/
class Single (F : Type) where
  ofLong : Int64 → F
  add : F → F → F
  mul : F → F → F
  div : F → F → F

/-- The blends of the vector library. -/
class Blends (F : Type) extends Single F where
  lerp : Vec3 F → Vec3 F → F → Vec3 F
  slerp : Quat F → Quat F → F → Quat F

/-- Exact arithmetic in place of floats. -/
instance exactSingle : Single ℚ where
  ofLong value := value.toInt
  add := (· + ·)
  mul := (· * ·)
  div := (· / ·)

structure SampledPose (F : Type) where
  pos : Vec3 F
  rot : Quat F

def EntitySample.pose {F : Type} (sample : EntitySample F) : SampledPose F := ⟨sample.pos, sample.rot⟩

/-- The time of a sample as the signed number it is compared with. -/
def EntitySample.timeMs {F : Type} (sample : EntitySample F) : Int64 := Int64.ofNat sample.tMs.toNat

namespace Interpolator

def defaultInterpolationDelayMs : Int64 := 100
def defaultMaxExtrapolationMs : Int64 := 250

section Arithmetic
variable {F : Type} [Single F]

def fraction (elapsedMs spanMs : Int64) : F :=
  if spanMs ≤ 0 then Single.ofLong 0 else Single.div (Single.ofLong elapsedMs) (Single.ofLong spanMs)

/-- The position after moving with the velocity for some time. -/
def moved (pos vel : Vec3 F) (aheadMs : Int64) : Vec3 F :=
  let seconds : F := Single.div (Single.ofLong aheadMs) (Single.ofLong 1000)
  (Single.add pos.1 (Single.mul vel.1 seconds), Single.add pos.2.1 (Single.mul vel.2.1 seconds),
    Single.add pos.2.2 (Single.mul vel.2.2 seconds))

end Arithmetic

section Sampling
variable {F : Type} [Platform F]

/-- What the lookups of the sampler fill in. Its indices are below the count, so they are answered as long as the ring
has no more than 2^30 slots. -/
def sampleOf (track : EntityTrack F) (index : Nat) : EntitySample F :=
  ((track.tryGetSample (Int32.ofNat index)).map Prod.snd).getD .blank

/-- The first of `left` neighbours from `index` on that bracket the time. -/
def bracket (track : EntityTrack F) (effectiveMs : Int64) : Nat → Nat → Option (EntitySample F × EntitySample F)
  | 0, _ => none
  | left + 1, index =>
    let a := sampleOf track index
    let b := sampleOf track (index + 1)
    if a.timeMs ≤ effectiveMs ∧ effectiveMs ≤ b.timeMs then some (a, b)
    else bracket track effectiveMs left (index + 1)

variable [Blends F]

end Sampling

section Times
variable {F : Type}

end Times

section Poses
variable {F : Type} [Platform F] {track : EntityTrack F} {effectiveMs : Int64}

/-- The retained samples, from the oldest to the newest. -/
def retained (track : EntityTrack F) : List (EntitySample F) :=
  (List.range track.count).map fun (index : Nat) => sampleOf track index

theorem retained_getElem {index : Nat} (inside : index < track.count) :
    (retained track)[index]? = some (sampleOf track index) := by
  simp [retained, inside]

variable [Blends F] {renderTimeMs delayMs : Int64}

end Poses

/-! A boat sampled four times, the third sample late. -/

/-- Blends in whole numbers, right where the fraction is 0 or 1. -/
instance wholeBlends : Blends Int where
  ofLong value := value.toInt
  add := (· + ·)
  mul := (· * ·)
  div := (· / ·)
  lerp a b fraction :=
    (a.1 + (b.1 - a.1) * fraction, a.2.1 + (b.2.1 - a.2.1) * fraction, a.2.2 + (b.2.2 - a.2.2) * fraction)
  slerp a b fraction := if fraction = 0 then a else b

end Interpolator
end SailwindOnline.Sync
