import SailwindOnline.ClientSession
import SailwindOnline.TrackSamples

/-!
What the client's cache is a memory of. Abstractly a client remembers, for each
entity, the samples it has received of it in order, until it forgets them all
at once; the cache keeps the last of these in one ring an entity. Over a whole
run nothing is remembered from before the newest peer, nothing in between is
missing, and a poll leaves nothing stale.
-/

namespace SailwindOnline.CacheHistory
open Net Sync ClientSession
open WireProtocol (Bytes)

/-! The memory and the tracks that keep it. -/
section Memories
variable {F : Type} [Platform F] {tracks : List (EntityTrack F)} {memory : UInt64 → List (EntitySample F)}

/-- The samples remembered of each entity, oldest first. -/
abbrev Memory (F : Type) := UInt64 → List (EntitySample F)

def forgotten : Memory F := fun _ => []

def hear (memory : Memory F) (id : UInt64) (sample : EntitySample F) : Memory F :=
  fun other => if other = id then memory other ++ [sample] else memory other

/-- An entity whose last sample is too old is forgotten. -/
def forgetStale (memory : Memory F) (nowMs maxAgeMs : Int) : Memory F :=
  fun id => match (memory id).getLast? with
    | none => []
    | some last => if maxAgeMs < nowMs - last.receivedMs then [] else memory id

/-- One track for each entity remembered, and in it the last samples of its memory. -/
structure Keeps (tracks : List (EntityTrack F)) (memory : Memory F) : Prop where
  unique : (tracks.map EntityTrack.id).Nodup
  tracked : ∀ track ∈ tracks, memory track.id ≠ [] ∧
    track = EntityTrack.pushed track.id ringCapacity (memory track.id)
  remembered : ∀ id, memory id ≠ [] → ∃ track ∈ tracks, track.id = id

theorem keeps_nothing : Keeps ([] : List (EntityTrack F)) forgotten where
  unique := List.nodup_nil
  tracked := by simp
  remembered := by simp [forgotten]

omit [Platform F] in
@[simp] theorem push_id (track : EntityTrack F) (sample : EntitySample F) : (track.push sample).id = track.id := rfl

theorem Keeps.upsert (keeps : Keeps tracks memory) (id : UInt64) (sample : EntitySample F) :
    Keeps (SnapshotCache.upsert tracks id sample) (hear memory id sample) := by
  unfold SnapshotCache.upsert
  split <;> rename_i known
  · obtain ⟨own, listed, same⟩ := List.any_eq_true.mp known
    have ids : (tracks.map fun track => if track.id = id then track.push sample else track).map EntityTrack.id =
        tracks.map EntityTrack.id := by
      rw [List.map_map]
      apply List.map_congr_left
      intro track _
      simp only [Function.comp_apply]
      split <;> rfl
    constructor
    · rw [ids]
      exact keeps.unique
    · intro later member
      obtain ⟨track, present, rfl⟩ := List.mem_map.mp member
      obtain ⟨heard, kept⟩ := keeps.tracked track present
      by_cases it : track.id = id
      · rw [if_pos it, push_id]
        refine ⟨by simp [hear, it], ?_⟩
        rw [hear, if_pos it, EntityTrack.pushed_concat, ← kept]
      · rw [if_neg it, hear, if_neg it]
        exact ⟨heard, kept⟩
    · intro other heard
      by_cases it : other = id
      · refine ⟨own.push sample, List.mem_map.mpr ⟨own, listed, ?_⟩, ?_⟩
        · rw [if_pos (beq_iff_eq.mp same)]
        · rw [push_id, beq_iff_eq.mp same, it]
      · rw [hear, if_neg it] at heard
        obtain ⟨track, present, named⟩ := keeps.remembered other heard
        exact ⟨track, List.mem_map.mpr ⟨track, present, by rw [if_neg (named ▸ it)]⟩, named⟩
  · have fresh : ∀ track ∈ tracks, track.id ≠ id := by
      intro track member same
      exact known (List.any_eq_true.mpr ⟨track, member, beq_iff_eq.mpr same⟩)
    have unheard : memory id = [] := by
      by_contra heard
      obtain ⟨track, present, named⟩ := keeps.remembered id heard
      exact fresh track present named
    constructor
    · rw [List.map_append, List.nodup_append]
      refine ⟨keeps.unique, by simp, ?_⟩
      intro other listed new single
      obtain ⟨track, present, rfl⟩ := List.mem_map.mp listed
      simp only [List.map_cons, List.map_nil, List.mem_singleton] at single
      rw [single]
      exact fresh track present
    · intro track member
      rcases List.mem_append.mp member with old | new
      · rw [hear, if_neg (fresh track old)]
        exact keeps.tracked track old
      · rw [List.mem_singleton.mp new, push_id]
        refine ⟨by simp [hear, EntityTrack.new], ?_⟩
        simp [hear, EntityTrack.new, unheard, EntityTrack.pushed]
    · intro other heard
      by_cases it : other = id
      · exact ⟨_, List.mem_append_right _ (List.mem_singleton.mpr rfl), it.symm⟩
      · rw [hear, if_neg it] at heard
        obtain ⟨track, present, named⟩ := keeps.remembered other heard
        exact ⟨track, List.mem_append_left _ present, named⟩

/-- The time of a track is the time of the last sample remembered. -/
theorem Keeps.lastUpdated (keeps : Keeps tracks memory) {track : EntityTrack F} (present : track ∈ tracks) :
    ∃ last, (memory track.id).getLast? = some last ∧ track.lastUpdatedMs = last.receivedMs := by
  obtain ⟨heard, kept⟩ := keeps.tracked track present
  have final := List.getLast?_eq_some_getLast heard
  refine ⟨_, final, ?_⟩
  obtain ⟨earlier, whole⟩ := List.getLast?_eq_some_iff.mp final
  generalize (memory track.id).getLast heard = last at whole ⊢
  rw [kept, whole, EntityTrack.pushed_concat]
  rfl

theorem Keeps.prune (keeps : Keeps tracks memory) (nowMs maxAgeMs : Int) :
    Keeps (SnapshotCache.prune tracks nowMs maxAgeMs) (forgetStale memory nowMs maxAgeMs) := by
  have fate : ∀ track ∈ tracks, (maxAgeMs < nowMs - track.lastUpdatedMs ∧
      forgetStale memory nowMs maxAgeMs track.id = []) ∨ (¬ maxAgeMs < nowMs - track.lastUpdatedMs ∧
      forgetStale memory nowMs maxAgeMs track.id = memory track.id) := by
    intro track present
    obtain ⟨last, final, updated⟩ := keeps.lastUpdated present
    unfold forgetStale
    rw [updated, final]
    simp only
    split <;> rename_i stale
    · exact Or.inl ⟨stale, rfl⟩
    · exact Or.inr ⟨stale, rfl⟩
  constructor
  · exact keeps.unique.sublist (List.filter_sublist.map _)
  · intro track member
    obtain ⟨present, fresh⟩ := List.mem_filter.mp member
    rcases fate track present with ⟨stale, -⟩ | ⟨-, same⟩
    · simp [stale] at fresh
    · rw [same]
      exact keeps.tracked track present
  · intro id heard
    have before : memory id ≠ [] := by
      intro none
      simp [forgetStale, none] at heard
    obtain ⟨track, present, rfl⟩ := keeps.remembered id before
    rcases fate track present with ⟨-, gone⟩ | ⟨fresh, -⟩
    · exact absurd gone heard
    · exact ⟨track, List.mem_filter.mpr ⟨present, by simp [fresh]⟩, rfl⟩

omit [Platform F] in
/-- Nothing kept by a prune is stale. -/
theorem prune_fresh {track : EntityTrack F} {nowMs maxAgeMs : Int}
    (kept : track ∈ SnapshotCache.prune tracks nowMs maxAgeMs) : nowMs - track.lastUpdatedMs ≤ maxAgeMs := by
  obtain ⟨-, fresh⟩ := List.mem_filter.mp kept
  simpa using fresh

end Memories

/-! What a client hears. -/
section Hearing
variable {F N : Type} [Platform F] [Library N]

def playerSample (nowMs : Int) (player : PlayerState F) : UInt64 × EntitySample F :=
  (player.playerId,
    { pos := toVec3 player.pos
      rot := toQuat player.rot
      vel := (Platform.zero, Platform.zero, Platform.zero)
      tMs := player.tMs
      receivedMs := nowMs
      link := player.aboardBoat })

def boatSample (nowMs : Int) (boat : BoatState F) : UInt64 × EntitySample F :=
  (boat.boatId,
    { pos := toVec3 boat.pos
      rot := toQuat boat.rot
      vel := toVec3 boat.vel
      tMs := boat.tMs
      receivedMs := nowMs
      link := boat.owner })

/-- The player samples and the boat samples of a payload, in the order the client takes them. -/
def samplesOf (nowMs : Int) : Payload F → List (UInt64 × EntitySample F) × List (UInt64 × EntitySample F)
  | .snapshotDelta _ players boats => (players.map (playerSample nowMs), boats.map (boatSample nowMs))
  | .cellSnapshot players boats => (players.map (playerSample nowMs), boats.map (boatSample nowMs))
  | _ => ([], [])

def hearAll (memory : Memory F) (samples : List (UInt64 × EntitySample F)) : Memory F :=
  samples.foldl (fun memory sample => hear memory sample.1 sample.2) memory

omit [Platform F] in
theorem hearAll_of (memory : Memory F) (samples : List (UInt64 × EntitySample F)) (id : UInt64) :
    hearAll memory samples id = memory id ++ (samples.filter fun sample => sample.1 = id).map Prod.snd := by
  induction samples generalizing memory with
  | nil => simp [hearAll]
  | cons sample rest ih =>
      rw [hearAll, List.foldl_cons]
      refine (ih _).trans ?_
      by_cases own : sample.1 = id
      · simp [hear, own, List.append_assoc]
      · simp [hear, own, Ne.symm own]

theorem Keeps.upsertAll {tracks : List (EntityTrack F)} {memory : Memory F} (keeps : Keeps tracks memory)
    (samples : List (UInt64 × EntitySample F)) :
    Keeps (samples.foldl (fun tracks sample => SnapshotCache.upsert tracks sample.1 sample.2) tracks)
      (hearAll memory samples) := by
  induction samples generalizing tracks memory with
  | nil => exact keeps
  | cons sample rest ih => exact ih (keeps.upsert sample.1 sample.2)

omit [Library N] in
theorem ingestPlayers_cache (client : NetClient F N) (now : Int) (players : List (PlayerState F)) :
    players.foldl (fun client player => client.ingestPlayer now player) client =
      { client with cache := { client.cache with
          players := (players.map (playerSample now)).foldl
            (fun tracks sample => SnapshotCache.upsert tracks sample.1 sample.2) client.cache.players } } := by
  induction players generalizing client with
  | nil => rfl
  | cons player rest ih =>
      rw [List.foldl_cons, ih]
      rfl

omit [Library N] in
theorem ingestBoats_cache (client : NetClient F N) (now : Int) (boats : List (BoatState F)) :
    boats.foldl (fun client boat => client.ingestBoat now boat) client =
      { client with cache := { client.cache with
          boats := (boats.map (boatSample now)).foldl
            (fun tracks sample => SnapshotCache.upsert tracks sample.1 sample.2) client.cache.boats } } := by
  induction boats generalizing client with
  | nil => rfl
  | cons boat rest ih =>
      rw [List.foldl_cons, ih]
      rfl

variable [EnvelopeCodec F]

/-- The samples that one entry into the client brings. -/
def heard (client : NetClient F N) : Entry F → List (UInt64 × EntitySample F) × List (UInt64 × EntitySample F)
  | .raise (.networkReceive peer data) =>
    if client.transport.peer.isCurrent peer then
      match EnvelopeCodec.tryDispatch data with
      | none => ([], [])
      | some payload => samplesOf client.nowMs payload
    else ([], [])
  | _ => ([], [])

/-- What an entry does to the cache: it adds what it hears, empties the cache or prunes it. Only an emptied cache sees
a new peer. -/
inductive CacheStep (client : NetClient F N) (entry : Entry F) (after : NetClient F N) : Prop
  | added (opened : after.transport.opened = client.transport.opened)
      (players : after.cache.players = (heard client entry).1.foldl
        (fun tracks sample => SnapshotCache.upsert tracks sample.1 sample.2) client.cache.players)
      (boats : after.cache.boats = (heard client entry).2.foldl
        (fun tracks sample => SnapshotCache.upsert tracks sample.1 sample.2) client.cache.boats)
  | cleared (players : after.cache.players = []) (boats : after.cache.boats = [])
      (silent : heard client entry = ([], []))
  | pruned (opened : after.transport.opened = client.transport.opened)
      (players : after.cache.players = SnapshotCache.prune client.cache.players client.nowMs defaultStaleMs)
      (boats : after.cache.boats = SnapshotCache.prune client.cache.boats client.nowMs defaultStaleMs)
      (silent : heard client entry = ([], []))

/-- The cache and the peers handed out so far. -/
def standing (client : NetClient F N) : SnapshotCache F × List NetPeer := (client.cache, client.transport.opened)

theorem CacheStep.same {client after : NetClient F N} {entry : Entry F} (same : standing after = standing client)
    (silent : heard client entry = ([], [])) : CacheStep client entry after := by
  simp only [standing, Prod.mk.injEq] at same
  refine .added same.2 ?_ ?_
  · rw [silent, same.1]
    rfl
  · rw [silent, same.1]
    rfl

omit [Platform F] in
theorem sendRaw_standing (client : NetClient F N) (packet : ClientMessage F) :
    standing (client.sendRaw packet).2 = standing client := by
  rcases sendRaw_cases client packet with failed | ⟨bytes, transport, handed, sent⟩
  · rw [failed]
  · rw [sent]
    exact congrArg (Prod.mk client.cache) (send_frame handed).2

omit [Platform F] [EnvelopeCodec F] in
theorem endHandshakeAttempt_standing (client : NetClient F N) :
    standing client.endHandshakeAttempt = standing client :=
  congrArg (Prod.mk client.cache) (dropPeer_opened client.transport)

omit [Platform F] in
theorem sendHello_standing (client : NetClient F N) : standing client.sendHello.2 = standing client := by
  unfold NetClient.sendHello
  cases client.options with
  | none => rfl
  | some options =>
      have tried := sendRaw_standing client.nextSeq (.hello (NetClient.helloOf options))
      rcases outcome : client.nextSeq.sendRaw (.hello (NetClient.helloOf options)) with ⟨sent, after⟩
      rw [outcome] at tried
      simp only [outcome]
      cases sent with
      | false => exact (endHandshakeAttempt_standing after).trans tried
      | true => exact tried

omit [Platform F] [EnvelopeCodec F] in
/-- Opening a peer empties the cache first. -/
theorem startTransportAndOpenPeer_cache (client : NetClient F N) :
    standing client.startTransportAndOpenPeer = standing client ∨
      (client.startTransportAndOpenPeer.cache.players = [] ∧ client.startTransportAndOpenPeer.cache.boats = []) := by
  have opening : ∀ client : NetClient F N, standing client.openPeer = standing client ∨
      (client.openPeer.cache.players = [] ∧ client.openPeer.cache.boats = []) := by
    intro client
    unfold NetClient.openPeer
    split
    · exact Or.inl rfl
    split
    · exact Or.inl rfl
    · right
      simp only
      split <;> exact ⟨rfl, rfl⟩
  unfold NetClient.startTransportAndOpenPeer
  split
  · exact opening client
  split
  · rename_i transport failed
    simp only [LiteNetLibTransport.start, Prod.mk.injEq] at failed
    obtain ⟨-, rfl⟩ := failed
    exact Or.inl rfl
  · rename_i transport started
    simp only [LiteNetLibTransport.start, Prod.mk.injEq] at started
    obtain ⟨-, rfl⟩ := started
    exact opening _

omit [EnvelopeCodec F] in
theorem connect_cache (client : NetClient F N) (options : ConnectOptions) :
    client.connect options = client ∨
      ((client.connect options).cache.players = [] ∧ (client.connect options).cache.boats = []) := by
  unfold NetClient.connect
  split
  · exact Or.inl rfl
  right
  simp only
  generalize (if client.status = .disconnected then client
    else { client with status := .disconnected, transport := client.transport.dropPeer }) = dropped
  rcases startTransportAndOpenPeer_cache (NetClient.resetSession
    { dropped with options := some options, reconnectBackoffMs := defaultReconnectMs }) with same | emptied
  · have cache := congrArg Prod.fst same
    simp only [standing] at cache
    rw [cache]
    exact ⟨rfl, rfl⟩
  · exact emptied

omit [EnvelopeCodec F] in
theorem ingest_added (client : NetClient F N) (players : List (PlayerState F)) (boats : List (BoatState F)) :
    (client.ingest players boats).transport = client.transport ∧
      (client.ingest players boats).cache.players = (players.map (playerSample client.nowMs)).foldl
        (fun tracks sample => SnapshotCache.upsert tracks sample.1 sample.2) client.cache.players ∧
      (client.ingest players boats).cache.boats = (boats.map (boatSample client.nowMs)).foldl
        (fun tracks sample => SnapshotCache.upsert tracks sample.1 sample.2) client.cache.boats := by
  simp only [NetClient.ingest, ingestPlayers_cache, ingestBoats_cache, and_self]

omit [Platform F] [EnvelopeCodec F] in
theorem onServerHello_standing (client : NetClient F N) (hello : Net.ServerHello F) :
    standing (client.onServerHello hello) = standing client := by
  unfold NetClient.onServerHello
  split
  · rfl
  split
  · exact endHandshakeAttempt_standing client
  split
  · exact endHandshakeAttempt_standing client
  split
  · exact endHandshakeAttempt_standing client
  · unfold NetClient.applyClock
    split <;> rfl

omit [Platform F] [EnvelopeCodec F] [Library N] in
theorem observed_tracks (cache : SnapshotCache F) (tick : UInt32) :
    (cache.observeServerTick tick).players = cache.players ∧ (cache.observeServerTick tick).boats = cache.boats := by
  unfold SnapshotCache.observeServerTick
  split <;> exact ⟨rfl, rfl⟩

theorem raise_step (client : NetClient F N) (event : NetEvent) : CacheStep client (.raise event) (client.raise event) := by
  cases event with
  | networkError => exact .same rfl rfl
  | peerConnected peer =>
      refine .same ?_ rfl
      simp only [NetClient.raise]
      split
      · unfold NetClient.onPeerConnected
        split
        · rfl
        · exact sendHello_standing _
      · rfl
  | peerDisconnected peer =>
      simp only [NetClient.raise]
      split
      · exact .same rfl rfl
      · exact .cleared rfl rfl rfl
  | networkReceive peer data =>
      simp only [NetClient.raise]
      split <;> rename_i current
      swap
      · exact .same rfl (if_neg current)
      have told : ∀ payload, EnvelopeCodec.tryDispatch data = some payload →
          heard client (.raise (.networkReceive peer data)) = samplesOf client.nowMs payload := by
        intro payload dispatched
        simp only [heard, current, if_true, dispatched]
      unfold NetClient.onNetworkReceive
      split <;> rename_i dispatched
      · refine .same rfl ?_
        simp only [heard, current, if_true, dispatched]
      · exact .same (onServerHello_standing client _) (told _ dispatched)
      · rename_i tick players boats
        obtain ⟨transport, players, boats⟩ := ingest_added
          { client with cache := client.cache.observeServerTick tick } players boats
        obtain ⟨samePlayers, sameBoats⟩ := observed_tracks client.cache tick
        refine .added (congrArg LiteNetLibTransport.opened transport) ?_ ?_ <;> rw [told _ dispatched]
        · rw [← samePlayers]
          exact players
        · rw [← sameBoats]
          exact boats
      · exact .same rfl (told _ dispatched)
      · rename_i players boats
        obtain ⟨transport, players, boats⟩ := ingest_added client players boats
        refine .added (congrArg LiteNetLibTransport.opened transport) ?_ ?_ <;> rw [told _ dispatched]
        · exact players
        · exact boats
      · exact .same rfl (told _ dispatched)
      · exact .same rfl (told _ dispatched)

theorem enter_step (client : NetClient F N) (entry : Entry F) : CacheStep client entry (enter client entry) := by
  cases entry with
  | connect options =>
      rcases connect_cache client options with same | ⟨players, boats⟩
      · exact .same (congrArg standing same) rfl
      · exact .cleared players boats rfl
  | raise event => exact raise_step client event
  | sendClientState pose =>
      refine .same ?_ rfl
      simp only [enter, NetClient.sendClientState]
      split
      · rfl
      · exact sendRaw_standing _ _
  | dispose => exact .same rfl rfl
  | serviceTimers =>
      simp only [enter, NetClient.serviceTimers]
      have worked : ∀ after : NetClient F N, standing after = standing client ∨
          (after.cache.players = [] ∧ after.cache.boats = []) →
          CacheStep client .serviceTimers { after with cache := after.cache.pruneStale client.nowMs defaultStaleMs } := by
        rintro after (same | ⟨players, boats⟩)
        · simp only [standing, Prod.mk.injEq] at same
          refine .pruned same.2 ?_ ?_ rfl <;> rw [← same.1] <;> rfl
        · refine .cleared ?_ ?_ rfl
          · simp only [SnapshotCache.pruneStale, SnapshotCache.prune, players, List.filter_nil]
          · simp only [SnapshotCache.pruneStale, SnapshotCache.prune, boats, List.filter_nil]
      apply worked
      split
      · exact Or.inl (sendHello_standing client)
      split
      · exact startTransportAndOpenPeer_cache client
      · exact Or.inl rfl

end Hearing

/-! Whole runs. -/
section Runs
variable {F N : Type} [Platform F] {tracks : List (EntityTrack F)} {received : UInt64 → List (EntitySample F)}

/-- The tracks keep a memory that is a final part of what was received of each entity. -/
def Recalls (tracks : List (EntityTrack F)) (received : UInt64 → List (EntitySample F)) : Prop :=
  ∃ memory, Keeps tracks memory ∧ ∀ id, memory id <:+ received id

namespace Recalls

theorem nothing (received : UInt64 → List (EntitySample F)) : Recalls [] received :=
  ⟨forgotten, keeps_nothing, fun _ => List.nil_suffix⟩

theorem add (recalls : Recalls tracks received) (samples : List (UInt64 × EntitySample F)) :
    Recalls (samples.foldl (fun tracks sample => SnapshotCache.upsert tracks sample.1 sample.2) tracks)
      (fun id => received id ++ (samples.filter fun sample => sample.1 = id).map Prod.snd) := by
  obtain ⟨memory, keeps, recent⟩ := recalls
  refine ⟨hearAll memory samples, keeps.upsertAll samples, fun id => ?_⟩
  obtain ⟨earlier, whole⟩ := recent id
  rw [hearAll_of]
  exact ⟨earlier, by rw [← List.append_assoc, whole]⟩

theorem prune (recalls : Recalls tracks received) (nowMs maxAgeMs : Int) :
    Recalls (SnapshotCache.prune tracks nowMs maxAgeMs) received := by
  obtain ⟨memory, keeps, recent⟩ := recalls
  refine ⟨forgetStale memory nowMs maxAgeMs, keeps.prune nowMs maxAgeMs, fun id => ?_⟩
  unfold forgetStale
  split
  · exact List.nil_suffix
  · split
    · exact List.nil_suffix
    · exact recent id

end Recalls

/-- Each entity has one track, and it holds the last samples received of the entity, the newest of them on top. -/
structure Recent (tracks : List (EntityTrack F)) (received : UInt64 → List (EntitySample F)) : Prop where
  unique : (tracks.map EntityTrack.id).Nodup
  kept : ∀ track ∈ tracks, Interpolator.retained track <:+ received track.id
  newest : ∀ track ∈ tracks, ∃ last, (Interpolator.retained track).getLast? = some last ∧ track.latest = last ∧
    track.lastUpdatedMs = last.receivedMs

theorem Recalls.recent (recalls : Recalls tracks received) : Recent tracks received := by
  obtain ⟨memory, keeps, recent⟩ := recalls
  have rings : ∀ track ∈ tracks, Interpolator.retained track =
      (memory track.id).drop ((memory track.id).length - ringCapacity) := by
    intro track present
    obtain ⟨-, kept⟩ := keeps.tracked track present
    have read := EntityTrack.retained_pushed track.id (show 0 < ringCapacity by decide) (by decide) (memory track.id)
    rwa [← kept] at read
  refine ⟨keeps.unique, ?_, ?_⟩
  · intro track present
    rw [rings track present]
    exact (List.drop_suffix _ _).trans (recent track.id)
  · intro track present
    obtain ⟨heard, kept⟩ := keeps.tracked track present
    obtain ⟨last, final, updated⟩ := keeps.lastUpdated present
    refine ⟨last, ?_, ?_, updated⟩
    · have some := List.length_pos_iff.mpr heard
      rw [rings track present, List.getLast?_drop, if_neg ?_]
      · exact final
      · simp only [ringCapacity]
        omega
    · have latest := EntityTrack.pushed_latest track.id ringCapacity final
      rwa [← kept] at latest

variable [Library N] [EnvelopeCodec F]

/-- One side of what a step brought is added to what its entity was known by; a new peer starts afresh. -/
def note (side : List (UInt64 × EntitySample F) × List (UInt64 × EntitySample F) → List (UInt64 × EntitySample F))
    (id : UInt64) (seen : List (EntitySample F)) (step : Step F N) : List (EntitySample F) :=
  (if step.after.transport.opened = step.before.transport.opened then seen else []) ++
    ((side (heard step.before step.entry)).filter fun sample => sample.1 = id).map Prod.snd

/-- The samples received of the player over the newest peer, oldest first. -/
def playersReceived (steps : List (Step F N)) (id : UInt64) : List (EntitySample F) :=
  steps.foldl (note Prod.fst id) []

def boatsReceived (steps : List (Step F N)) (id : UInt64) : List (EntitySample F) :=
  steps.foldl (note Prod.snd id) []

theorem step_recalls {client after : NetClient F N} {entry : Entry F} (moved : CacheStep client entry after)
    {players boats : UInt64 → List (EntitySample F)} (recalls : Recalls client.cache.players players)
    (recallsBoats : Recalls client.cache.boats boats) :
    Recalls after.cache.players (fun id => note Prod.fst id (players id) ⟨client, entry, after⟩) ∧
      Recalls after.cache.boats (fun id => note Prod.snd id (boats id) ⟨client, entry, after⟩) := by
  cases moved with
  | added opened added addedBoats =>
      simp only [note, opened, if_true]
      rw [added, addedBoats]
      exact ⟨recalls.add _, recallsBoats.add _⟩
  | cleared empty emptyBoats silent =>
      rw [empty, emptyBoats]
      exact ⟨.nothing _, .nothing _⟩
  | pruned opened pruned prunedBoats silent =>
      simp only [note, opened, if_true, silent, List.filter_nil, List.map_nil, List.append_nil]
      rw [pruned, prunedBoats]
      exact ⟨recalls.prune _ _, recallsBoats.prune _ _⟩

theorem play_recalls {client : NetClient F N} (moments : List (ClientSession.Moment F N))
    {players boats : UInt64 → List (EntitySample F)} (recalls : Recalls client.cache.players players)
    (recallsBoats : Recalls client.cache.boats boats) :
    Recalls (play client moments).cache.players
        (fun id => (stepsOf client moments).foldl (note Prod.fst id) (players id)) ∧
      Recalls (play client moments).cache.boats
        (fun id => (stepsOf client moments).foldl (note Prod.snd id) (boats id)) := by
  induction moments generalizing client players boats with
  | nil => exact ⟨recalls, recallsBoats⟩
  | cons moment rest ih =>
      obtain ⟨next, nextBoats⟩ := step_recalls (enter_step (client.meets moment.library) moment.entry) recalls recallsBoats
      exact ih next nextBoats

theorem performAll_recent (manager : N) (turns : List (Turn F N)) :
    Recent ((NetClient.new manager : NetClient F N).performAll turns).cache.players
        (playersReceived (steps (NetClient.new manager : NetClient F N) turns)) ∧
      Recent ((NetClient.new manager : NetClient F N).performAll turns).cache.boats
        (boatsReceived (steps (NetClient.new manager : NetClient F N) turns)) := by
  have begun : Recalls (NetClient.new manager : NetClient F N).cache.players (fun _ => []) := .nothing _
  have begunBoats : Recalls (NetClient.new manager : NetClient F N).cache.boats (fun _ => []) := .nothing _
  obtain ⟨players, boats⟩ := play_recalls (turns.flatMap moments) begun begunBoats
  rw [performAll_play]
  exact ⟨players.recent, boats.recent⟩

/-- Whatever was called and whatever arrived, each track holds the last samples received of its entity over the newest
peer, without a gap, and after a poll no track is older than the staleness limit. -/
theorem cache_history (manager : N) (turns : List (Turn F N)) :
    Recent ((NetClient.new manager : NetClient F N).performAll turns).cache.players
        (playersReceived (steps (NetClient.new manager : NetClient F N) turns)) ∧
      Recent ((NetClient.new manager : NetClient F N).performAll turns).cache.boats
        (boatsReceived (steps (NetClient.new manager : NetClient F N) turns)) ∧
      ∀ early library raised settled, turns = early ++ [⟨library, .poll raised settled⟩] →
        ∀ track ∈ ((NetClient.new manager : NetClient F N).performAll turns).cache.players ++
            ((NetClient.new manager : NetClient F N).performAll turns).cache.boats,
          Library.nowMs settled - track.lastUpdatedMs ≤ defaultStaleMs := by
  obtain ⟨players, boats⟩ := performAll_recent manager turns
  refine ⟨players, boats, ?_⟩
  rintro early library raised settled rfl track member
  rw [NetClient.performAll, List.foldl_append] at member
  rcases List.mem_append.mp member with player | boat
  · exact prune_fresh player
  · exact prune_fresh boat

end Runs
end SailwindOnline.CacheHistory
