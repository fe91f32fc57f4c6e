import SailwindOnline.SnapshotSchedule

/-!
How long a player in view can stay out of a recipient's snapshots. Over calls in
which the same sessions stay gathered, the next snapshot of a player comes within
the refresh bound of the recipient's place in the circle. Validation bounds the
wait by whole rounds of the circle instead, which falls short when a round does
not fill its last window.
-/

namespace SailwindOnline.SnapshotFreshness
open OrderedSet Server SessionIndex SessionRuns SnapshotLane SnapshotSchedule

section Runs
variable {F : Type} [Platform F] {peer : PeerId} {session : Session F}

def sweepOf (session : Session F) : UInt64 × UInt32 × Option UInt64 × Nat :=
  (session.playerId, session.snapshotLastVisitTick, session.snapshotCursor, session.snapshotRemaining)

/-- Between two calls the same players stay registered on the same peers. -/
structure Undisturbed (server after : Server F) : Prop where
  cfg : after.cfg = server.cfg
  order : after.playerOrder = server.playerOrder
  recipients : after.snapshotRecipients = server.snapshotRecipients
  cursor : after.snapshotRecipientCursor = server.snapshotRecipientCursor
  tick : after.snapshotTick = server.snapshotTick
  sweeps : ∀ peer, (after.sessions.get? peer).map sweepOf = (server.sessions.get? peer).map sweepOf

theorem Undisturbed.refl (server : Server F) : Undisturbed server server :=
  ⟨rfl, rfl, rfl, rfl, rfl, fun _ => rfl⟩

theorem undisturbed_lane {server after : Server F} (undisturbed : Undisturbed server after)
    (found : server.sessions.get? peer = some session) :
    ∃ held, after.sessions.get? peer = some held ∧ held.playerId = session.playerId ∧
      laneOf after peer held = laneOf server peer session := by
  have same := undisturbed.sweeps peer
  rw [found, Option.map_some, Option.map_eq_some_iff] at same
  obtain ⟨held, present, sweep⟩ := same
  simp only [sweepOf, Prod.mk.injEq] at sweep
  obtain ⟨player, visit, cursor, remaining⟩ := sweep
  refine ⟨held, present, player, ?_⟩
  simp only [laneOf, undisturbed.recipients, undisturbed.cursor, undisturbed.tick, undisturbed.order, player,
    visit, cursor, remaining]

theorem stageOf_eq {server after : Server F} (gathered : Gathered server) (held : Gathered after)
    (cfg : after.cfg = server.cfg) (recipients : after.snapshotRecipients = server.snapshotRecipients) :
    stageOf after = stageOf server := by
  have size : after.sessions.size = server.sessions.size := by
    have before := recipients_card gathered
    have now := recipients_card held
    rw [recipients] at now
    exact now.symm.trans before
  simp only [stageOf, size, nominalCadence, cfg]

variable [Codec F]

-- `server call` is the state that call number `call` of the broadcaster finds.
structure Run (F : Type) [Platform F] [Codec F] where
  server : Nat → Server F
  gathered : ∀ call, Gathered (server call)
  undisturbed : ∀ call, Undisturbed (server call).broadcastSnapshots (server (call + 1))

/-- The players in the datagrams that a call sends to `peer`. -/
def advertised (server : Server F) (peer : PeerId) : List UInt64 :=
  (shown server.broadcastSnapshots peer).drop (shown server peer).length

/-- Call `later` is the next one after `call` that advertises `player` to `peer`. -/
structure NextShown (run : Run F) (peer : PeerId) (player : UInt64) (call later : Nat) : Prop where
  after : call < later
  shown : player ∈ advertised (run.server later) peer
  between : ∀ middle, call < middle → middle < later → player ∉ advertised (run.server middle) peer

/-- Over a run every recipient's state is that of its lane, stepped once for each call. -/
theorem run_lane (run : Run F) (fit : SnapshotsFit F)
    (found : (run.server 0).sessions.get? peer = some session) (call : Nat) :
    ∃ held, (run.server call).sessions.get? peer = some held ∧ held.playerId = session.playerId ∧
      (run.server call).cfg = (run.server 0).cfg ∧
      (run.server call).playerOrder = (run.server 0).playerOrder ∧
      stageOf (run.server call) = stageOf (run.server 0) ∧
      laneOf (run.server call) peer held =
        (stageOf (run.server 0)).next^[call] (laneOf (run.server 0) peer session) := by
  induction call with
  | zero => exact ⟨session, found, rfl, rfl, rfl, rfl, rfl⟩
  | succ call ih =>
      obtain ⟨held, present, own, cfg, order, stage, lane⟩ := ih
      have keeps := keeps_broadcastSnapshots (run.server call)
      have gap := run.undisturbed call
      obtain ⟨visited, seen, same, stepped, -⟩ := broadcast_lane fit (run.gathered call) present
      obtain ⟨kept, still, player, resumed⟩ := undisturbed_lane gap seen
      have staged := stageOf_eq (run.gathered call) (run.gathered (call + 1)) (gap.cfg.trans keeps.cfg)
        (gap.recipients.trans keeps.recipients)
      refine ⟨kept, still, player.trans (same.trans own), gap.cfg.trans (keeps.cfg.trans cfg),
        gap.order.trans (keeps.order.trans order), staged.trans stage, ?_⟩
      rw [resumed, stepped, stage, lane, Function.iterate_succ_apply']

theorem run_advertised (run : Run F) (fit : SnapshotsFit F) (found : (run.server 0).sessions.get? peer = some session)
    (call : Nat) :
    advertised (run.server call) peer =
      ((stageOf (run.server 0)).shows
        ((stageOf (run.server 0)).next^[call] (laneOf (run.server 0) peer session))).filterMap
        ((selection (run.server 0).playerOrder session.playerId)[·]?) := by
  obtain ⟨held, present, own, -, order, stage, lane⟩ := run_lane run fit found call
  obtain ⟨-, -, -, -, sent⟩ := broadcast_lane fit (run.gathered call) present
  rw [advertised, sent, List.drop_left, stage, lane, order, own]

omit [Codec F] in
theorem ticksPerSnapshot_le (cfg : ValidConfig F) : cfg.ticksPerSnapshot ≤ maxU8 := by
  have quotient := Nat.div_le_self cfg.tickHz.toNat cfg.snapshotHz.toNat
  have wire := cfg.sound.tickWire
  have positive := cfg.sound.tickPositive
  simp only [Config.ticksPerSnapshot, maxU8] at wire ⊢
  omega

omit [Codec F] in
theorem cadence_eq (server : Server F) :
    (stageOf server).cadence.toNat = server.cfg.ticksPerSnapshot := by
  have small : server.cfg.ticksPerSnapshot ≤ 255 := ticksPerSnapshot_le server.cfg
  show (UInt32.ofNat (min server.cfg.ticksPerSnapshot (2 ^ 32 - 1))).toNat = _
  rw [UInt32.toNat_ofNat']
  omega

/-- Due visits never get further apart than the stage allows, and a sweep takes no more of them than
it did at the start of the run. -/
theorem shown_within (run : Run F) (fit : SnapshotsFit F)
    (found : (run.server 0).sessions.get? peer = some session) {visits limit : Nat}
    (enough : (laneOf (run.server 0) peer session).repeatVisits (stageOf (run.server 0)).visible ≤ visits)
    (within : (stageOf (run.server 0)).ReturnsWithin visits limit) (short : limit < 2 ^ 32)
    {player : UInt64} {call : Nat} (listed : player ∈ advertised (run.server call) peer) :
    ∃ later, call < later ∧ later - call < limit ∧ player ∈ advertised (run.server later) peer := by
  rw [run_advertised run fit found, List.mem_filterMap] at listed
  obtain ⟨position, listed, selected⟩ := listed
  have near := within _ (place_of_shows listed).2
  have visible : 0 < (stageOf (run.server 0)).visible := by
    rw [← visible_eq (run.gathered 0) found]
    exact List.length_pos_of_mem (List.mem_of_getElem? selected)
  have cadence : 0 < (stageOf (run.server 0)).cadence.toNat := by
    rw [cadence_eq]
    exact Nat.lt_of_lt_of_le Nat.zero_lt_one (Nat.le_max_right _ _)
  obtain ⟨calls, positive, soon, again⟩ := shown_after _ _
    (FiniteMap.size_pos_of_present (run.server 0).sessions peer session found) visible cadence
    ((repeatVisits_iterate visible call).trans enough) (near.trans short) listed
  refine ⟨calls + call, by omega, by omega, ?_⟩
  rw [run_advertised run fit found, List.mem_filterMap]
  refine ⟨position, ?_, selected⟩
  rw [Function.iterate_add_apply]
  exact again

theorem shown_again (run : Run F) (fit : SnapshotsFit F)
    (fresh : (stageOf (run.server 0)).RefreshesWithin (run.server 0).cfg.expiryTicks)
    (found : (run.server 0).sessions.get? peer = some session) {player : UInt64} {call : Nat}
    (listed : player ∈ advertised (run.server call) peer) :
    ∃ later, call < later ∧ later - call < (run.server 0).cfg.expiryTicks ∧
      player ∈ advertised (run.server later) peer := by
  have short : (run.server 0).cfg.expiryTicks < 2 ^ 32 := by
    have wire := (run.server 0).cfg.sound.tickWire
    simp only [maxU8, Config.expiryTicks, snapshotClientExpirySecs] at wire ⊢
    omega
  exact shown_within run fit found (repeatVisits_le _ _) fresh short listed

/-- The first of the later calls that advertise the player. -/
theorem nextShown_of {run : Run F} {player : UInt64} {call later : Nat} (after : call < later)
    (again : player ∈ advertised (run.server later) peer) :
    (∃ next, NextShown run peer player call next) ∧
      ∀ next, NextShown run peer player call next → next ≤ later := by
  classical
  have exists_later : ∃ later, call < later ∧ player ∈ advertised (run.server later) peer := ⟨later, after, again⟩
  constructor
  · refine ⟨Nat.find exists_later, (Nat.find_spec exists_later).1, (Nat.find_spec exists_later).2, ?_⟩
    intro middle past before shown
    exact Nat.find_min exists_later before ⟨past, shown⟩
  · intro next following
    by_contra beyond
    exact following.between later after (by omega) again

end Runs

/-! A crowd that joins at once. -/
section Opening
variable {F : Type} [Platform F] {server : Server F} {peer : PeerId} {player : UInt64}

/-- What the schedule of a newly opened session depends on. -/
def schedulingState (server : Server F) :
    FiniteMap PeerId (Session F) × World F × UInt64 × UInt32 × Option PeerId :=
  (server.sessions, server.world, server.nextSessionGeneration, server.snapshotTick,
    server.snapshotRecipientCursor)

theorem schedulingState_scheduleAoi (server : Server F) (peer : PeerId) :
    schedulingState (server.scheduleAoi peer) = schedulingState server := by
  unfold scheduleAoi
  split <;> rfl

theorem schedulingState_emitAoi (server : Server F) (peer : PeerId) (aoi : World.AoiUpdate) :
    schedulingState (server.emitAoi peer aoi) = schedulingState server := by
  unfold emitAoi
  split
  · rfl
  · exact schedulingState_scheduleAoi server peer

theorem openSession_opens (vacant : server.sessions.get? peer = none)
    (unowned : server.playerPeers.get? player = none) (spare : server.nextSessionGeneration ≠ maxU64)
    (moment : Moment) (identityHash name : String) (gold : Int64) :
    let origin := server.world.grid.cellOf Platform.zero Platform.zero
    ∃ session, session.cell = some origin ∧ sweepOf session = (player, 0, none, 0) ∧
      schedulingState (server.openSession moment peer player identityHash name gold).1 =
        (server.sessions.insert peer session, server.world.placeInCell player origin,
          server.nextSessionGeneration + 1, server.snapshotTick, server.snapshotRecipientCursor) := by
  intro origin
  unfold openSession registerSession allocateSessionGeneration
  simp only [newSession, vacant, unowned, spare, Option.isSome_none, Bool.false_eq_true, if_false]
  rw [schedulingState_emitAoi]
  refine ⟨_, ?_, ?_, schedulingState_scheduleAoi _ _⟩ <;> rfl

end Opening

def tightConfig : ValidConfig Int :=
  { Config.default 1024 with tickHz := 3, snapshotHz := 1, maxTransportPeers := 80, valid := rfl }

def crowded : Nat → Server Int
  | 0 => Server.opened tightConfig emptyDb FiniteMap.empty 0 0
  | count + 1 =>
    ((crowded count).openSession (calmAt 0) (count + 1) (UInt64.ofNat (count + 1)) "" "sailor" 0).1

structure Crowd (count : Nat) (server : Server Int) : Prop where
  agree : SessionsAgree noStray server
  cfg : server.cfg = tightConfig
  keys : server.sessions.keys = Finset.Ico 1 (count + 1)
  generation : server.nextSessionGeneration = UInt64.ofNat count
  seats : ∀ peer session, server.sessions.get? peer = some session →
    session.cell = some (server.world.grid.cellOf Platform.zero Platform.zero) ∧
      sweepOf session = (UInt64.ofNat peer, 0, none, 0)
  tick : server.snapshotTick = 0
  cursor : server.snapshotRecipientCursor = none

theorem Crowd.mem_keys {count : Nat} {server : Server Int} (crowd : Crowd count server) (peer : Nat) :
    peer ∈ server.sessions.keys ↔ 1 ≤ peer ∧ peer < count + 1 := by
  rw [crowd.keys]
  exact Finset.mem_Ico

theorem Crowd.size {count : Nat} {server : Server Int} (crowd : Crowd count server) :
    server.sessions.size = count := by
  rw [FiniteMap.size, crowd.keys]
  exact Nat.card_Ico 1 (count + 1)

theorem crowded_crowd {count : Nat} (fits : count ≤ 80) : Crowd count (crowded count) := by
  induction count with
  | zero =>
      have opened : Server.new tightConfig emptyDb 0 0 = .ok (crowded 0) := rfl
      refine ⟨(inv_new opened).agree, rfl, rfl, rfl, ?_, rfl, rfl⟩
      intro peer session found
      cases found
  | succ count ih =>
      have crowd := ih (by omega)
      have room : (crowded count).sessions.size ≤ (crowded count).cfg.maxTransportPeersUsize := by
        rw [crowd.size, crowd.cfg]
        exact (show count ≤ 80 by omega)
      have vacant : (crowded count).sessions.get? (count + 1) = none := by
        rw [← FiniteMap.not_mem_keys, crowd.mem_keys]
        omega
      -- Peers and players share their numbers, so the next number is free on both sides.
      have unowned : (crowded count).playerPeers.get? (UInt64.ofNat (count + 1)) = none := by
        rw [Option.eq_none_iff_forall_ne_some]
        intro peer owner
        obtain ⟨session, found, own⟩ := (crowd.agree.owner_iff _ _).mp owner
        have seat := congrArg Prod.fst (crowd.seats peer session found).2
        have seated := (crowd.mem_keys peer).mp ((FiniteMap.mem_keys_iff_exists _ _).mpr ⟨session, found⟩)
        have same := congrArg UInt64.toNat (own.symm.trans seat)
        simp only [UInt64.toNat_ofNat'] at same
        omega
      have spare : (crowded count).nextSessionGeneration ≠ maxU64 := by
        rw [crowd.generation]
        intro same
        have wide := congrArg UInt64.toNat same
        simp only [maxU64, UInt64.toNat_ofNat'] at wide
        omega
      obtain ⟨after, done, agree, cfg, -, keys⟩ := openSession_spec
        (agree_mono crowd.agree fun _ impossible => impossible.elim) room vacant unowned (calmAt 0) "" "sailor" 0
      obtain ⟨session, here, sweep, state⟩ := openSession_opens vacant unowned spare (calmAt 0) "" "sailor" 0
      have opened : crowded (count + 1) = after := congrArg Prod.fst done
      rw [done] at state
      simp only [schedulingState, Prod.mk.injEq] at state
      obtain ⟨sessions, world, generation, tick, cursor⟩ := state
      rw [opened]
      refine ⟨agree, cfg.trans crowd.cfg, ?_, ?_, ?_, tick.trans crowd.tick, cursor.trans crowd.cursor⟩
      · rw [keys, crowd.keys]
        exact (Nat.Ico_succ_right_eq_insert_Ico (Nat.le_add_left 1 count)).symm
      · rw [generation, crowd.generation]
        exact (UInt64.ofNat_add _ _).symm
      · intro peer held found
        rw [sessions, FiniteMap.get?_insert] at found
        rw [world, World.placeInCell_grid]
        split at found <;> rename_i own
        · cases found
          rw [own]
          exact ⟨here, sweep⟩
        · exact crowd.seats peer held found

theorem crowded_gathered {count : Nat} (fits : count ≤ 80) : Gathered (crowded count) := by
  have crowd := crowded_crowd fits
  refine ⟨crowd.agree, ?_, ?_⟩
  · rw [crowd.size, crowd.cfg]
    exact fits
  · intro peer other session held cell place found present here there
    have same : place = cell := by
      rw [(crowd.seats peer session found).1, Option.some.injEq] at here
      rw [(crowd.seats other held present).1, Option.some.injEq] at there
      exact there.symm.trans here
    rw [same]
    simp [World.Cell.chebyshevDistance]

def crowdRun (count : Nat) (fits : count ≤ 80) : Run Int where
  server call := broadcastSnapshots^[call] (crowded count)
  gathered call := by
    induction call with
    | zero => exact crowded_gathered fits
    | succ call ih =>
        rw [Function.iterate_succ_apply']
        exact ih.keeps (keeps_broadcastSnapshots _)
  undisturbed call := by
    rw [Function.iterate_succ_apply']
    exact .refl _

theorem crowdRun_crowd {count : Nat} (fits : count ≤ 80) : Crowd count ((crowdRun count fits).server 0) :=
  crowded_crowd fits

theorem snapshots_fit : SnapshotsFit Int := by
  intro seq tick players boats fewPlayers fewBoats
  simp only [Codec.encode, encodedBytes, List.length_replicate]
  unfold snapshotEntitiesPerPacket at *
  have limit : payloadLimit = 1023 := rfl
  omega

def freshLane : Lane := { place := 0, tick := 0, lastVisit := 0, position := none, remaining := 0 }

def crowdStage (count : Nat) : Stage := { crowd := count, visible := min (count - 1) 15, cadence := 3 }

theorem crowd_stage {count : Nat} (fits : count ≤ 80) :
    stageOf ((crowdRun count fits).server 0) = crowdStage count := by
  have crowd := crowdRun_crowd fits
  simp only [stageOf, crowd.size, nominalCadence, crowd.cfg]
  rfl

/-- The recipient that the first call visits first starts from a fresh lane. -/
theorem crowd_recipient {server : Server Int} {count : Nat} (crowd : Crowd count server)
    (gathered : Gathered server) (inhabited : 0 < count) :
    ∃ peer session, server.sessions.get? peer = some session ∧ laneOf server peer session = freshLane := by
  have some : 0 < (circle server.snapshotRecipients server.snapshotRecipientCursor).length := by
    rw [circle_length, gathered.agree.recipients]
    exact Nat.lt_of_lt_of_eq inhabited crowd.size.symm
  obtain ⟨peer, first⟩ : ∃ peer, (circle server.snapshotRecipients server.snapshotRecipientCursor)[0] = peer :=
    ⟨_, rfl⟩
  have member : peer ∈ server.snapshotRecipients := by
    rw [← mem_circle _ server.snapshotRecipientCursor, ← first]
    exact List.getElem_mem some
  have place : (circle server.snapshotRecipients server.snapshotRecipientCursor).idxOf peer = 0 := by
    rw [← first]
    exact (circle_nodup _ _).idxOf_getElem 0 some
  rw [gathered.agree.recipients] at member
  obtain ⟨session, found⟩ := (FiniteMap.mem_keys_iff_exists _ _).mp member
  have sweep := (crowd.seats peer session found).2
  simp only [sweepOf, Prod.mk.injEq] at sweep
  obtain ⟨-, visit, cursor, remaining⟩ := sweep
  refine ⟨peer, session, found, ?_⟩
  simp only [laneOf, place, crowd.tick, visit, cursor, remaining]
  rfl

/-- The first player of that recipient's selection is shown when its lane shows position zero. -/
theorem crowd_shows {count : Nat} (several : 2 ≤ count) (fits : count ≤ 80) :
    ∃ peer session player, ((crowdRun count fits).server 0).sessions.get? peer = some session ∧
      laneOf ((crowdRun count fits).server 0) peer session = freshLane ∧
      player ∈ selection ((crowdRun count fits).server 0).playerOrder session.playerId ∧
      ∀ call, player ∈ advertised ((crowdRun count fits).server call) peer ↔
        0 ∈ (crowdStage count).shows ((crowdStage count).next^[call] freshLane) := by
  have gathered := (crowdRun count fits).gathered 0
  obtain ⟨peer, session, found, lane⟩ := crowd_recipient (crowdRun_crowd fits) gathered (by omega)
  have some : 0 < (selection ((crowdRun count fits).server 0).playerOrder session.playerId).length := by
    rw [visible_eq gathered found, crowd_stage fits]
    simp only [crowdStage]
    omega
  refine ⟨peer, session, (selection ((crowdRun count fits).server 0).playerOrder session.playerId)[0], found,
    lane, List.getElem_mem some, ?_⟩
  intro call
  rw [run_advertised (crowdRun count fits) snapshots_fit found call, crowd_stage fits, lane, List.mem_filterMap]
  constructor
  · rintro ⟨position, shown, selected⟩
    obtain ⟨inside, same⟩ := List.getElem?_eq_some_iff.mp selected
    have zero := (selection_nodup _ _).getElem_inj_iff.mp same
    exact zero ▸ shown
  · intro shown
    exact ⟨0, shown, List.getElem?_eq_getElem some⟩

/-- The first recipient of eighty is visited in calls 0, 2, 5, 7, 10, … and due every third call at the
earliest, so calls 0, 5, 10 and 15 carry its three packets and the first one again. -/
theorem crowd_skips (fits : 80 ≤ 80) :
    ∃ peer session player, ((crowdRun 80 fits).server 0).sessions.get? peer = some session ∧
      player ∈ selection ((crowdRun 80 fits).server 0).playerOrder session.playerId ∧
      player ∈ advertised ((crowdRun 80 fits).server 0) peer ∧ NextShown (crowdRun 80 fits) peer player 0 15 := by
  obtain ⟨peer, session, player, found, -, selected, shown⟩ := crowd_shows (by omega) fits
  refine ⟨peer, session, player, found, selected, ?_, ⟨by omega, ?_, ?_⟩⟩
  · rw [shown]
    decide +kernel
  · rw [shown]
    decide +kernel
  · have idle : ∀ middle < 15, 0 < middle → 0 ∉ (crowdStage 80).shows ((crowdStage 80).next^[middle] freshLane) := by
      decide +kernel
    intro middle after before
    rw [shown]
    exact idle middle before after

/-! Freshness. -/

/-- In a run whose stage refreshes every place within the client's expiry, each advertisement of a
player to a recipient is followed by another one in time. -/
theorem snapshots_outpace_expiry {F : Type} [Platform F] [Codec F] (fit : SnapshotsFit F) (run : Run F)
    (fresh : (stageOf (run.server 0)).RefreshesWithin (run.server 0).cfg.expiryTicks)
    (peer : PeerId) (session : Session F) (found : (run.server 0).sessions.get? peer = some session)
    (player : UInt64) (call : Nat) (listed : player ∈ advertised (run.server call) peer) :
    (∃ later, NextShown run peer player call later) ∧
      ∀ later, NextShown run peer player call later → later - call < 5 * (run.server 0).cfg.tickHz.toNat := by
  have expiry : (run.server 0).cfg.expiryTicks = 5 * (run.server 0).cfg.tickHz.toNat := Nat.mul_comm _ _
  obtain ⟨later, after, soon, again⟩ := shown_again run fit fresh found listed
  rw [expiry] at soon
  obtain ⟨following, first⟩ := nextShown_of after again
  refine ⟨following, ?_⟩
  intro next shown
  have before := first next shown
  omega

theorem snapshots_outpace_expiry_crowd :
    ∃ peer player later, player ∈ advertised ((crowdRun 32 (by omega)).server 0) peer ∧
      NextShown (crowdRun 32 (by omega)) peer player 0 later ∧ later < 15 := by
  have fits : 32 ≤ 80 := by omega
  have cfg := (crowdRun_crowd fits).cfg
  obtain ⟨peer, session, player, found, -, -, shown⟩ := crowd_shows (by omega) fits
  have listed : player ∈ advertised ((crowdRun 32 fits).server 0) peer := by
    rw [shown]
    decide +kernel
  have fresh : (stageOf ((crowdRun 32 fits).server 0)).RefreshesWithin
      ((crowdRun 32 fits).server 0).cfg.expiryTicks := by
    rw [cfg, crowd_stage fits]
    decide +kernel
  obtain ⟨⟨later, next⟩, soon⟩ := snapshots_outpace_expiry snapshots_fit (crowdRun 32 fits) fresh
    peer session found player 0 listed
  have close := soon later next
  rw [cfg] at close
  exact ⟨peer, player, later, listed, next, close⟩

/-- At three ticks and one snapshot a second validation computes nine ticks between two
advertisements for eighty peers, but the first recipient is due in calls 0, 5, 10 and 15 only. -/
theorem crowd_outlasts_expiry :
    ∃ run : Run Int, (run.server 0).cfg.validate = .ok () ∧
      (run.server 0).sessions.size = (run.server 0).cfg.maxTransportPeers.toNat ∧
      ∃ peer session player, (run.server 0).sessions.get? peer = some session ∧
        player ∈ selection (run.server 0).playerOrder session.playerId ∧
        player ∈ advertised (run.server 0) peer ∧ NextShown run peer player 0 15 ∧
        ¬ 15 < 5 * (run.server 0).cfg.tickHz.toNat := by
  have fits : 80 ≤ 80 := Nat.le_refl 80
  have crowd := crowdRun_crowd fits
  obtain ⟨peer, session, player, found, selected, listed, next⟩ := crowd_skips fits
  refine ⟨crowdRun 80 fits, ValidConfig.valid _, ?_, peer, session, player, found, selected, listed, next, ?_⟩
  · rw [crowd.cfg]
    exact crowd.size
  · rw [crowd.cfg]
    decide

end SailwindOnline.SnapshotFreshness
