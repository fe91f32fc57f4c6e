import SailwindOnline.Disclosure
import SailwindOnline.CacheHistory

/-!
The view a client has of the others, from their clients through the server to
its cache. The network between may lose datagrams, repeat them, delay them and
deliver them in any order; still each pose the cache retains is one that the
player's own client reported, it was in sight of this client when the server
sent it, and it was sent over the newest connection.
-/

namespace SailwindOnline.WorldView
open Net Sync ClientSession CacheHistory Disclosure
open Server SessionRuns Traces
open WireProtocol (Bytes)

/-! What the client reads of what the server encodes. -/
section Views
variable {F : Type}

def playerView (snap : PlayerSnap F) : PlayerState F :=
  { playerId := snap.playerId
    pos := some snap.pos
    rot := some snap.rot
    aboardBoat := snap.aboardBoat
    tMs := snap.tMs }

def boatView (snap : BoatSnap F) : BoatState F :=
  { boatId := snap.boatId
    owner := snap.owner
    pos := some snap.pos
    rot := some snap.rot
    vel := some snap.vel
    tMs := snap.tMs }

def viewOf : ServerMessage F → Payload F
  | .serverHello hello => .serverHello
      { accepted := hello.accepted
        playerId := hello.playerId
        capabilities := some
          { protocolVersion := SailwindOnline.protocolVersion
            snapshotHz := hello.capabilities.snapshotHz }
        clock := some hello.clock }
  | .worldClock clock => .worldClock clock
  | .snapshotDelta tick players boats => .snapshotDelta tick (players.map playerView) (boats.map boatView)
  | .aoiUpdate _ _ => .aoiUpdate
  | .cellSnapshot _ players boats _ => .cellSnapshot (players.map playerView) (boats.map boatView)
  | _ => .unhandled

variable [Platform F]

theorem samples_of_view (nowMs : Int) (message : ServerMessage F) :
    samplesOf nowMs (viewOf message) =
      ((playersShown message).map fun snap => playerSample nowMs (playerView snap),
        (boatsShown message).map fun snap => boatSample nowMs (boatView snap)) := by
  cases message with
  | snapshotDelta => simp only [viewOf, samplesOf, playersShown, boatsShown, List.map_map, Function.comp_def]
  | cellSnapshot => simp only [viewOf, samplesOf, playersShown, boatsShown, List.map_map, Function.comp_def]
  | _ => rfl

end Views

/-! What the network carries. -/
section Carrying
variable {F N Snap : Type} [Platform F] [Library N] [EnvelopeCodec F]

def Carried (trace : List (Stage F)) (addressed : NetPeer → PeerId) (steps : List (Step F N)) : Prop :=
  ∀ step ∈ steps, ∀ peer data payload, step.entry = .raise (.networkReceive peer data) →
    EnvelopeCodec.tryDispatch data = some payload →
    ∃ named, peer = some named ∧ ∃ stage ∈ trace, ∃ post ∈ stage.posted,
      post.1 = addressed named ∧ payload = viewOf post.2.payload

/-- The sample is one that a message of the trace, posted to the peer opened last, shows. -/
def Posted (trace : List (Stage F)) (addressed : NetPeer → PeerId) (shows : ServerMessage F → List Snap)
    (sampled : Int → Snap → UInt64 × EntitySample F) (opened : List NetPeer) (item : UInt64 × EntitySample F) : Prop :=
  ∃ newest, opened.getLast? = some newest ∧ ∃ stage ∈ trace, ∃ post ∈ stage.posted, post.1 = addressed newest ∧
    ∃ snap ∈ shows post.2.payload, ∃ nowMs, item = sampled nowMs snap

section Sides
variable {trace : List (Stage F)} {addressed : NetPeer → PeerId} {shows : ServerMessage F → List Snap}
  {sampled : Int → Snap → UInt64 × EntitySample F}
  (side : List (UInt64 × EntitySample F) × List (UInt64 × EntitySample F) → List (UInt64 × EntitySample F))
  {client : NetClient F N}

theorem heard_posted (views : ∀ nowMs message, side (samplesOf nowMs (viewOf message)) =
      (shows message).map (sampled nowMs)) (silent : side ([], []) = [])
    (coherent : Coherent client) (entry : Entry F)
    (carried : Carried trace addressed [⟨client, entry, enter client entry⟩]) :
    ∀ item ∈ side (heard client entry), Posted trace addressed shows sampled (enter client entry).transport.opened item := by
  intro item noted
  have told : heard client entry ≠ ([], []) := by
    intro nothing
    rw [nothing, silent] at noted
    cases noted
  -- only an addition hears anything, and it opens no peer
  have opened : (enter client entry).transport.opened = client.transport.opened := by
    cases enter_step client entry with
    | added opened => exact opened
    | cleared _ _ nothing => exact absurd nothing told
    | pruned opened => exact opened
  rw [opened]
  cases entry with
  | raise event =>
      cases event with
      | networkReceive peer data =>
          simp only [heard] at noted
          split at noted <;> rename_i current
          swap
          · rw [silent] at noted
            cases noted
          split at noted <;> rename_i dispatched
          · rw [silent] at noted
            cases noted
          obtain ⟨named, rfl, stage, listed, post, posted, direct, rfl⟩ :=
            carried _ (List.mem_singleton.mpr rfl) peer data _ rfl dispatched
          rw [views] at noted
          obtain ⟨snap, shown, rfl⟩ := List.mem_map.mp noted
          have newest := coherent.newest named (eq_of_beq current)
          exact ⟨named, newest, stage, listed, post, posted, direct, snap, shown, client.nowMs, rfl⟩
      | _ => exact absurd rfl told
  | _ => exact absurd rfl told

theorem received_posted (views : ∀ nowMs message, side (samplesOf nowMs (viewOf message)) =
      (shows message).map (sampled nowMs)) (silent : side ([], []) = [])
    (coherent : Coherent client) (moments : List (ClientSession.Moment F N))
    (carried : Carried trace addressed (stepsOf client moments)) (id : UInt64) (seen : List (EntitySample F))
    (before : ∀ sample ∈ seen, Posted trace addressed shows sampled client.transport.opened (id, sample)) :
    ∀ sample ∈ (stepsOf client moments).foldl (note side id) seen,
      Posted trace addressed shows sampled (play client moments).transport.opened (id, sample) := by
  induction moments generalizing client seen with
  | nil => exact before
  | cons moment rest ih =>
      have met := coherent_meets coherent moment.library
      obtain ⟨tame, -, -⟩ := enter_cases met moment.entry
      have now := heard_posted side views silent met moment.entry (by
        intro step member
        exact carried step (List.mem_singleton.mp member ▸ List.mem_cons_self ..))
      apply ih (tame.coherent met) (fun step member => carried step (List.mem_cons_of_mem _ member))
      intro sample noted
      rcases List.mem_append.mp noted with old | new
      · split at old <;> rename_i same
        · rw [same]
          exact before sample old
        · cases old
      · obtain ⟨item, member, rfl⟩ := List.mem_map.mp new
        obtain ⟨brought, own⟩ := List.mem_filter.mp member
        obtain rfl : item.1 = id := by simpa using own
        exact now item brought

end Sides

end Carrying

/-! What the client sees. -/
section Seeing
variable {F N : Type} [Platform F] [Library N] [EnvelopeCodec F] [Codec F] {trace : List (Stage F)}

/-- When the server sent the sample, it was the pose of a session of player `id`, as its own client had reported it, in
sight of `recipient`. -/
def SeenPlayer (trace : List (Stage F)) (recipient : PeerId) (id : UInt64) (sample : EntitySample F) : Prop :=
  ∃ early stage later session, trace = early ++ stage :: later ∧ Sighting early stage recipient session ∧
    session.playerId = id ∧ sample.pos = session.pos ∧ sample.rot = session.rot ∧
    sample.link = session.aboardBoat ∧ sample.tMs = session.tMs

def SeenBoat (trace : List (Stage F)) (recipient : PeerId) (id : UInt64) (sample : EntitySample F) : Prop :=
  ∃ early stage later session, trace = early ++ stage :: later ∧ Sighting early stage recipient session ∧
    session.aboardBoat = id ∧ id ≠ 0 ∧ sample.pos = session.pos ∧ sample.rot = session.rot ∧
    sample.vel = session.vel ∧ sample.link = session.playerId ∧ sample.tMs = session.tMs

variable {db : Persistence.Db F} {server : Server F} {pending : List Event}

/-- Every pose in the client's cache is one its player's own client reported, in sight of this client when it was sent,
and sent over the newest connection, whatever the network loses, repeats, delays or reorders. -/
theorem seen_as_reported (run : Run db trace server pending) (manager : N) (turns : List (Turn F N))
    (addressed : NetPeer → PeerId)
    (carried : Carried trace addressed (steps (NetClient.new manager : NetClient F N) turns)) :
    let client := (NetClient.new manager : NetClient F N).performAll turns
    (∀ track ∈ client.cache.players, ∀ sample ∈ Interpolator.retained track, ∃ newest,
      client.transport.opened.getLast? = some newest ∧ SeenPlayer trace (addressed newest) track.id sample) ∧
    ∀ track ∈ client.cache.boats, ∀ sample ∈ Interpolator.retained track, ∃ newest,
      client.transport.opened.getLast? = some newest ∧ SeenBoat trace (addressed newest) track.id sample := by
  intro client
  obtain ⟨players, boats⟩ := performAll_recent (F := F) manager turns
  have coherent : Coherent (NetClient.new manager : NetClient F N) := coherent_new manager
  have last : client = play (NetClient.new manager) (turns.flatMap moments) := performAll_play _ _
  constructor
  · intro track present sample retained
    have received := (players.kept track present).subset retained
    obtain ⟨newest, opened, stage, listed, post, posted, direct, snap, shown, nowMs, same⟩ :=
      received_posted Prod.fst (fun nowMs message => congrArg Prod.fst (samples_of_view nowMs message)) rfl
        coherent (turns.flatMap moments) carried track.id [] (by simp) sample received
    obtain ⟨early, later, split⟩ := List.append_of_mem listed
    obtain ⟨session, sighting, rfl⟩ := (stage_sightings run split post posted).1 snap shown
    obtain ⟨id, rfl⟩ := Prod.mk.inj same
    exact ⟨newest, last ▸ opened, early, stage, later, session, split, direct ▸ sighting, id.symm, rfl, rfl, rfl, rfl⟩
  · intro track present sample retained
    have received := (boats.kept track present).subset retained
    obtain ⟨newest, opened, stage, listed, post, posted, direct, snap, shown, nowMs, same⟩ :=
      received_posted Prod.snd (fun nowMs message => congrArg Prod.snd (samples_of_view nowMs message)) rfl
        coherent (turns.flatMap moments) carried track.id [] (by simp) sample received
    obtain ⟨early, later, split⟩ := List.append_of_mem listed
    obtain ⟨session, sighting, aboard, rfl⟩ := (stage_sightings run split post posted).2 snap shown
    obtain ⟨id, rfl⟩ := Prod.mk.inj same
    exact ⟨newest, last ▸ opened, early, stage, later, session, split, direct ▸ sighting, id.symm,
      id ▸ aboard, rfl, rfl, rfl, rfl, rfl⟩

end Seeing

/-! The first of the two players of `joinStages`, shown the second by the snapshot that follows. -/
section Shown

def firstView : Option (Payload Int) := (snappedStage.posted.head?).map fun post => viewOf post.2.payload

local instance viewCodec : EnvelopeCodec Int where
  encode _ _ := [0]
  tryDispatch data := if data = [9] then firstView else none

def viewTurns : List (Turn Int Bench) :=
  [⟨⟨0, false, 0⟩, .connect benchOptions⟩,
    benchTurn 10 1 [.peerConnected (some 1)],
    benchTurn 20 1 [.networkReceive (some 1) [9]]]

def viewingClient : NetClient Int Bench := (NetClient.new ⟨0, false, 0⟩).performAll viewTurns

theorem seen_as_reported_shown :
    viewingClient.cache.players.map (fun track => (track.id, (Interpolator.retained track).length)) = [(2, 1)] ∧
      ∀ track ∈ viewingClient.cache.players, ∀ sample ∈ Interpolator.retained track,
        SeenPlayer (joinStages ++ [snappedStage]) 1 track.id sample := by
  have first : snappedStage.posted.head?.map Prod.fst = some 1 := by decide +kernel
  have carried : Carried (joinStages ++ [snappedStage]) (fun _ => 1)
      (steps (NetClient.new ⟨0, false, 0⟩ : NetClient Int Bench) viewTurns) := by
    intro step member peer data payload received dispatched
    have entries : (steps (NetClient.new ⟨0, false, 0⟩ : NetClient Int Bench) viewTurns).map Step.entry =
        [.connect benchOptions, .raise (.peerConnected (some 1)), .serviceTimers,
          .raise (.networkReceive (some 1) [9]), .serviceTimers] := rfl
    have listed := List.mem_map.mpr ⟨step, member, received⟩
    rw [entries] at listed
    obtain ⟨rfl, rfl⟩ : peer = some 1 ∧ data = [9] := by simpa using listed
    obtain ⟨post, posted, read⟩ := Option.map_eq_some_iff.mp (show firstView = some payload from dispatched)
    rw [posted] at first
    exact ⟨1, rfl, snappedStage, by simp, post, List.mem_of_head? posted, Option.some.inj first, read.symm⟩
  have seen := (seen_as_reported snapped_run (⟨0, false, 0⟩ : Bench) viewTurns (fun _ => 1) carried).1
  constructor
  · decide +kernel
  · intro track present sample retained
    obtain ⟨newest, -, shown⟩ := seen track present sample retained
    exact shown

end Shown
end SailwindOnline.WorldView
