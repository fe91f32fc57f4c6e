import SailwindOnline.Messages

/-!
The cache of remote players and boats the client keeps from received
snapshots. A dictionary of tracks is the list of its tracks, each found by its
id; a track is its latest sample and a ring of the last ones.
-/

namespace SailwindOnline.Sync

structure EntitySample (F : Type) where
  pos : Vec3 F
  rot : Quat F
  vel : Vec3 F
  tMs : UInt32
  receivedMs : Int
  link : UInt64

structure EntityTrack (F : Type) where
  id : UInt64
  ring : Array (EntitySample F)
  head : Nat
  count : Nat
  latest : EntitySample F
  lastUpdatedMs : Int

structure SnapshotCache (F : Type) where
  players : List (EntityTrack F)
  boats : List (EntityTrack F)
  lastServerTick : UInt32

def ringCapacity : Nat := 32
def defaultStaleMs : Int := 5000

section Samples
variable {F : Type} [Platform F]

def EntitySample.blank : EntitySample F :=
  { pos := (Platform.zero, Platform.zero, Platform.zero)
    rot := (Platform.zero, Platform.zero, Platform.zero, Platform.zero)
    vel := (Platform.zero, Platform.zero, Platform.zero)
    tMs := 0
    receivedMs := 0
    link := 0 }

namespace EntityTrack

def new (id : UInt64) (capacity : Nat) : EntityTrack F :=
  { id
    ring := Array.replicate capacity .blank
    head := 0
    count := 0
    latest := .blank
    lastUpdatedMs := 0 }

def push (track : EntityTrack F) (sample : EntitySample F) : EntityTrack F :=
  { track with
    latest := sample
    lastUpdatedMs := sample.receivedMs
    ring := track.ring.setIfInBounds track.head sample
    head := (track.head + 1) % track.ring.size
    count := if track.count < track.ring.size then track.count + 1 else track.count }

/-- Whether the sample is retained, and the sample, counted from the oldest. Sums wrap as `int`s do and a remainder
takes the sign of what is divided; `none` is the exception of an index outside the ring. -/
def tryGetSample (track : EntityTrack F) (indexFromOldest : Int32) : Option (Bool × EntitySample F) :=
  if indexFromOldest < 0 ∨ Int32.ofNat track.count ≤ indexFromOldest then some (false, .blank)
  else
    let length := Int32.ofNat track.ring.size
    let start := (Int32.ofNat track.head - Int32.ofNat track.count + length) % length
    let idx := (start + indexFromOldest) % length
    if idx < 0 then none else track.ring[idx.toInt.toNat]?.map fun sample => (true, sample)

end EntityTrack

namespace SnapshotCache

def empty : SnapshotCache F := { players := [], boats := [], lastServerTick := 0 }

def clear (_ : SnapshotCache F) : SnapshotCache F := empty

def observeServerTick (cache : SnapshotCache F) (tick : UInt32) : SnapshotCache F :=
  if cache.lastServerTick ≤ tick then { cache with lastServerTick := tick } else cache

/-- The track of the id takes the sample; an id without one gets a new track. -/
def upsert (tracks : List (EntityTrack F)) (id : UInt64) (sample : EntitySample F) : List (EntityTrack F) :=
  if tracks.any (fun track => track.id == id) then
    tracks.map fun track => if track.id = id then track.push sample else track
  else tracks ++ [(EntityTrack.new id ringCapacity).push sample]

def upsertPlayer (cache : SnapshotCache F) (id : UInt64) (sample : EntitySample F) : SnapshotCache F :=
  { cache with players := upsert cache.players id sample }

def upsertBoat (cache : SnapshotCache F) (id : UInt64) (sample : EntitySample F) : SnapshotCache F :=
  { cache with boats := upsert cache.boats id sample }

def prune (tracks : List (EntityTrack F)) (nowMs maxAgeMs : Int) : List (EntityTrack F) :=
  tracks.filter fun track => !decide (maxAgeMs < nowMs - track.lastUpdatedMs)

def pruneStale (cache : SnapshotCache F) (nowMs maxAgeMs : Int) : SnapshotCache F :=
  { cache with
    players := prune cache.players nowMs maxAgeMs
    boats := prune cache.boats nowMs maxAgeMs }

end SnapshotCache

end Samples

end SailwindOnline.Sync
