import SailwindOnline.SessionRuns
import SailwindOnline.SnapshotLane

/-!
The snapshot broadcaster against the schedule of one recipient. While the same
sessions stay registered and in view of each other, every call of the broadcaster
is one step of each recipient's lane, and what it sends to the recipient is what
the lane shows.
-/

namespace SailwindOnline.SnapshotSchedule
open World (Cell)
open OrderedSet Server SessionIndex SnapshotLane

section Gathering
variable {F : Type} [Platform F] {server after : Server F} {peer : PeerId}

/-- Every two sessions are within the interest radius of each other. -/
structure Gathered (server : Server F) : Prop where
  agree : SessionsAgree noStray server
  fits : server.sessions.size ≤ server.cfg.maxTransportPeersUsize
  together : ∀ peer other session held cell place,
    server.sessions.get? peer = some session → server.sessions.get? other = some held →
    session.cell = some cell → held.cell = some place →
    place.chebyshevDistance cell ≤ (server.cfg.aoiRadiusI32 : Int)

theorem Gathered.keeps (gathered : Gathered server) (keeps : KeepsIndex server after) : Gathered after := by
  refine ⟨keeps.agree gathered.agree, ?_, ?_⟩
  · rw [FiniteMap.size, keeps.keys_eq, keeps.cfg]
    exact gathered.fits
  · intro peer other session held cell place found present here there
    obtain ⟨old, oldFound, oldPlace⟩ := keeps.session_of found
    obtain ⟨prior, priorFound, priorPlace⟩ := keeps.session_of present
    simp only [placeOf, Prod.mk.injEq] at oldPlace priorPlace
    rw [keeps.cfg]
    exact gathered.together peer other old prior cell place oldFound priorFound
      (oldPlace.2.1.trans here) (priorPlace.2.1.trans there)

theorem crowd_le (gathered : Gathered server) : server.sessions.size ≤ 1024 := by
  refine gathered.fits.trans ?_
  simp only [Config.maxTransportPeersUsize, clampNat, maxTransportPeersCeiling]
  omega

/-- Players and sessions correspond one to one. -/
theorem players_card (agree : SessionsAgree noStray server) :
    server.playerOrder.card = server.sessions.size := by
  rw [FiniteMap.size, agree.order]
  refine Finset.card_bij (fun player _ => (server.playerPeers.get? player).getD 0) ?_ ?_ ?_
  · intro player member
    obtain ⟨peer, owner⟩ := (FiniteMap.mem_keys_iff_exists _ _).mp member
    obtain ⟨session, found, -⟩ := (agree.owner_iff player peer).mp owner
    rw [owner]
    exact (FiniteMap.mem_keys_iff_exists _ _).mpr ⟨session, found⟩
  · intro player member other present same
    obtain ⟨peer, owner⟩ := (FiniteMap.mem_keys_iff_exists _ _).mp member
    obtain ⟨host, otherOwner⟩ := (FiniteMap.mem_keys_iff_exists _ _).mp present
    rw [owner, otherOwner, Option.getD_some, Option.getD_some] at same
    subst same
    obtain ⟨session, found, own⟩ := (agree.owner_iff player peer).mp owner
    obtain ⟨held, again, theirs⟩ := (agree.owner_iff other peer).mp otherOwner
    rw [found, Option.some.injEq] at again
    rw [← own, ← theirs, again]
  · intro peer member
    obtain ⟨session, found⟩ := (FiniteMap.mem_keys_iff_exists _ _).mp member
    have owner := (agree.owner_iff session.playerId peer).mpr ⟨session, found, rfl⟩
    exact ⟨session.playerId, (FiniteMap.mem_keys_iff_exists _ _).mpr ⟨peer, owner⟩, by rw [owner]; rfl⟩

theorem sessionByPlayer_of (agree : SessionsAgree noStray server) {player : UInt64}
    (member : player ∈ server.playerOrder) :
    ∃ peer session, server.sessions.get? peer = some session ∧ session.playerId = player ∧
      server.sessionByPlayer player = some session := by
  rw [agree.order] at member
  obtain ⟨peer, owner⟩ := (FiniteMap.mem_keys_iff_exists _ _).mp member
  obtain ⟨session, found, own⟩ := (agree.owner_iff player peer).mp owner
  exact ⟨peer, session, found, own, by simp [sessionByPlayer, owner, found, own]⟩

/-- The others after a player in ascending order, up to the visibility ceiling. -/
def selection (order : Finset UInt64) (player : UInt64) : List UInt64 :=
  ((circle order (some player)).filter (· ≠ player)).take snapshotVisibilityCeiling

theorem snapshotSelection_eq (gathered : Gathered server) {session : Session F}
    (found : server.sessions.get? peer = some session) {cell : Cell} (here : session.cell = some cell) :
    server.snapshotSelection session.playerId cell = selection server.playerOrder session.playerId := by
  have order : server.playerCandidatesAfter (some session.playerId) snapshotEntityScanPerPacket =
      circle server.playerOrder (some session.playerId) := by
    have few := crowd_le gathered
    rw [playerCandidatesAfter, orderedAfter_eq_take, List.take_of_length_le]
    rw [circle_length, players_card gathered.agree, snapshotEntityScanPerPacket]
    omega
  unfold snapshotSelection selection
  rw [order]
  congr 1
  refine List.filter_eq_self.mpr ?_
  intro player listed
  have member := (mem_circle _ _ _).mp (List.mem_of_mem_filter listed)
  obtain ⟨other, held, present, -, lookup⟩ := sessionByPlayer_of gathered.agree member
  obtain ⟨place, there, -, -⟩ := gathered.agree.cells other held present
  have near := gathered.together peer other session held cell place found present here there
  simp [inView, lookup, there, near]

theorem selection_nodup (order : Finset UInt64) (player : UInt64) : (selection order player).Nodup :=
  ((circle_nodup order (some player)).filter _).sublist (List.take_sublist _ _)

theorem mem_of_snapshotSelection {player other : UInt64} {cell : Cell}
    (selected : other ∈ server.snapshotSelection player cell) : other ∈ server.playerOrder := by
  have listed := List.mem_of_mem_filter (List.mem_of_mem_filter (List.mem_of_mem_take selected))
  rw [playerCandidatesAfter, orderedAfter_eq_take] at listed
  exact (mem_circle _ _ _).mp (List.mem_of_mem_take listed)

theorem selection_length {order : Finset UInt64} {player : UInt64} (member : player ∈ order) :
    (selection order player).length = min (order.card - 1) snapshotVisibilityCeiling := by
  have unique := circle_nodup order (some player)
  have inside := (mem_circle order (some player) player).mpr member
  have others : (circle order (some player)).filter (· ≠ player) = (circle order (some player)).erase player := by
    rw [unique.erase_eq_filter]
    exact List.filter_congr fun other _ => by simp [bne, beq_eq_decide]
  rw [selection, List.length_take, others, List.length_erase_of_mem inside, circle_length, Nat.min_comm]

end Gathering

/-! Lanes. -/
section Lanes
variable {F : Type} [Platform F] {server after : Server F} {peer : PeerId} {session : Session F}

def stageOf (server : Server F) : Stage :=
  { crowd := server.sessions.size
    visible := min (server.sessions.size - 1) snapshotVisibilityCeiling
    cadence := server.nominalCadence }

def sweepPosition (selected : List UInt64) (cursor : Option UInt64) : Option Nat :=
  cursor.bind fun cursor => selected.findIdx? (· = cursor)

def laneOf (server : Server F) (peer : PeerId) (session : Session F) : Lane :=
  { place := (circle server.snapshotRecipients server.snapshotRecipientCursor).idxOf peer
    tick := server.snapshotTick
    lastVisit := session.snapshotLastVisitTick
    position := sweepPosition (selection server.playerOrder session.playerId) session.snapshotCursor
    remaining := session.snapshotRemaining }

/-- The sweep alone, for what depends on neither the circle nor the clock. -/
def sweepLane (selected : List UInt64) (session : Session F) : Lane :=
  { place := 0
    tick := 0
    lastVisit := 0
    position := sweepPosition selected session.snapshotCursor
    remaining := session.snapshotRemaining }

theorem visible_eq (gathered : Gathered server) (found : server.sessions.get? peer = some session) :
    (selection server.playerOrder session.playerId).length = (stageOf server).visible := by
  have owner := (gathered.agree.owner_iff session.playerId peer).mpr ⟨session, found, rfl⟩
  have member : session.playerId ∈ server.playerOrder := by
    rw [gathered.agree.order]
    exact (FiniteMap.mem_keys_iff_exists _ _).mpr ⟨peer, owner⟩
  rw [selection_length member, players_card gathered.agree]
  rfl

section Chunks
variable {selected : List UInt64} {cursor : Option UInt64} (lane : Lane)

theorem chunk_advertised (position : lane.position = sweepPosition selected cursor) :
    (snapshotChunk selected cursor lane.remaining).advertised =
      (lane.advertised selected.length).filterMap (selected[·]?) := by
  rw [Lane.advertised, List.filterMap_map]
  simp only [snapshotChunk, Lane.emitted, Lane.planned, Lane.start, position, sweepPosition]
  rfl

theorem chunk_remaining (position : lane.position = sweepPosition selected cursor) :
    (snapshotChunk selected cursor lane.remaining).remaining =
      lane.planned selected.length - lane.emitted selected.length := by
  simp only [snapshotChunk, Lane.emitted, Lane.planned, position, sweepPosition]

theorem emitted_pos {visible : Nat} (inhabited : 0 < visible) : 0 < lane.emitted visible := by
  unfold Lane.emitted Lane.planned snapshotEntitiesPerPacket
  split <;> rename_i fresh
  · omega
  · rw [not_or] at fresh
    omega

theorem chunk_cursor (unique : selected.Nodup) (inhabited : 0 < selected.length)
    (position : lane.position = sweepPosition selected cursor) :
    sweepPosition selected (snapshotChunk selected cursor lane.remaining).cursor =
      some ((lane.start selected.length + lane.emitted selected.length - 1) % selected.length) := by
  have emitted := emitted_pos lane inhabited
  have ended : (snapshotChunk selected cursor lane.remaining).cursor =
      selected[(lane.start selected.length + lane.emitted selected.length - 1) % selected.length]? := by
    show (snapshotChunk selected cursor lane.remaining).advertised.getLast? = _
    obtain ⟨count, succ⟩ := Nat.exists_eq_succ_of_ne_zero (Nat.ne_of_gt emitted)
    rw [chunk_advertised lane position, Lane.advertised, succ, List.range_succ, List.map_append,
      List.filterMap_append]
    have last := Nat.mod_lt (lane.start selected.length + count) inhabited
    simp [List.getElem?_eq_getElem last]
  have bounded : (lane.start selected.length + lane.emitted selected.length - 1) % selected.length <
      selected.length := Nat.mod_lt _ inhabited
  rw [ended, List.getElem?_eq_getElem bounded, sweepPosition, Option.bind_some,
    List.findIdx?_eq_some_iff_getElem]
  refine ⟨bounded, by simp, ?_⟩
  intro earlier before
  rw [Bool.not_eq_true, decide_eq_false_iff_not, unique.getElem_inj_iff]
  omega

end Chunks

end Lanes

/-! One visit. -/
section Visits
variable {F : Type}

def shownIn (envelope : Envelope F) : List UInt64 :=
  match envelope.payload with
  | .snapshotDelta _ players _ => players.map PlayerSnap.playerId
  | _ => []

/-- A packet of one sweep chunk fits the transport, whatever it says about its players and boats. -/
def SnapshotsFit (F : Type) [Codec F] : Prop :=
  ∀ seq tick (players : List (PlayerSnap F)) (boats : List (BoatSnap F)),
    players.length ≤ snapshotEntitiesPerPacket → boats.length ≤ snapshotEntitiesPerPacket →
    (Codec.encode ({ seq, payload := .snapshotDelta tick players boats } : Envelope F)).length ≤ payloadLimit

variable [Platform F] {server after : Server F} {peer recipient : PeerId} {session : Session F}

/-- Every player id shown to `recipient` so far, in the order of the datagrams. -/
def shown (server : Server F) (recipient : PeerId) : List UInt64 :=
  (server.sent.filter fun datagram => datagram.1 = recipient).flatMap fun datagram => shownIn datagram.2

theorem shown_post (server : Server F) (peer recipient : PeerId) (payload : ServerMessage F) :
    shown (server.post peer payload) recipient =
      shown server recipient ++ if peer = recipient then shownIn ⟨server.seq + 1, payload⟩ else [] := by
  by_cases own : peer = recipient <;> simp [shown, post, List.filter_append, own]

variable [Codec F]

/-- What a visit to another recipient leaves alone. -/
structure Quiet (recipient : PeerId) (server after : Server F) : Prop where
  session : after.sessions.get? recipient = server.sessions.get? recipient
  shown : shown after recipient = shown server recipient
  keeps : KeepsIndex server after

omit [Codec F] in
theorem Quiet.refl (recipient : PeerId) (server : Server F) : Quiet recipient server server :=
  ⟨rfl, rfl, .refl server⟩

omit [Codec F] in
theorem Quiet.trans {middle : Server F} (first : Quiet recipient server middle)
    (second : Quiet recipient middle after) : Quiet recipient server after :=
  ⟨second.session.trans first.session, second.shown.trans first.shown, first.keeps.trans second.keeps⟩

omit [Codec F] in
theorem quiet_modifySession (server : Server F) (apart : recipient ≠ peer) (change : Session F → Session F)
    (kept : ∀ session, placeOf (change session) = placeOf session) :
    Quiet recipient server (server.modifySession peer change) :=
  ⟨by simp [modifySession, FiniteMap.get?_modify, apart], rfl, .modifySession _ _ _ kept⟩

theorem quiet_sendSnapshot (server : Server F) (apart : recipient ≠ peer) (sessions : List (Session F)) :
    Quiet recipient server (server.sendSnapshot peer sessions) := by
  have keeps := keeps_sendSnapshot server peer sessions
  unfold sendSnapshot at keeps ⊢
  split
  · exact .refl _ _
  · rename_i sending
    rw [if_neg sending] at keeps
    unfold postBounded at keeps ⊢
    split <;> rename_i large
    · rw [if_pos large] at keeps
      exact ⟨rfl, rfl, keeps⟩
    · rw [if_neg large] at keeps
      exact ⟨rfl, by rw [shown_post, if_neg (Ne.symm apart), List.append_nil], keeps⟩

theorem visit_other (apart : recipient ≠ peer) :
    Quiet recipient server (server.visitSnapshotRecipient peer) := by
  unfold visitSnapshotRecipient
  split
  · exact .refl _ _
  split
  · exact .refl _ _
  split
  · exact .refl _ _
  simp only
  have visited := quiet_modifySession server apart (visitedAt server.snapshotTick) fun _ => rfl
  split
  · exact visited.trans (quiet_modifySession _ apart _ fun _ => rfl)
  · refine (visited.trans ?_).trans (quiet_sendSnapshot _ apart _)
    exact quiet_modifySession _ apart _ fun _ => rfl

theorem visits_other {peers : List PeerId} (apart : recipient ∉ peers) (server : Server F) :
    Quiet recipient server (peers.foldl visitSnapshotRecipient server) := by
  induction peers generalizing server with
  | nil => exact .refl _ _
  | cons peer rest ih =>
      rw [List.mem_cons, not_or] at apart
      exact (visit_other apart.1).trans (ih apart.2 _)

theorem visit_idle (idle : server.snapshotDue session = false)
    (found : server.sessions.get? peer = some session) : server.visitSnapshotRecipient peer = server := by
  unfold visitSnapshotRecipient
  simp only [found]
  cases session.cell with
  | none => rfl
  | some cell => simp [idle]

omit [Codec F] in
theorem players_shown (agree : SessionsAgree noStray server) (players : List UInt64)
    (known : ∀ player ∈ players, player ∈ server.playerOrder) :
    (playerSnaps (players.filterMap server.sessionByPlayer)).map PlayerSnap.playerId = players := by
  induction players with
  | nil => rfl
  | cons player rest ih =>
      obtain ⟨_, held, -, own, lookup⟩ := sessionByPlayer_of agree (known player List.mem_cons_self)
      have tail := ih fun other member => known other (List.mem_cons_of_mem player member)
      rw [List.filterMap_cons_some lookup]
      simp only [playerSnaps, List.map_cons, playerSnap, own] at tail ⊢
      rw [tail]

theorem sendSnapshot_sessions (server : Server F) (peer : PeerId) (sessions : List (Session F)) :
    (server.sendSnapshot peer sessions).sessions = server.sessions := by
  unfold sendSnapshot postBounded
  split
  · rfl
  · split <;> rfl

theorem shown_sendSnapshot (fit : SnapshotsFit F) (server : Server F) (peer : PeerId) (sessions : List (Session F))
    (few : sessions.length ≤ snapshotEntitiesPerPacket) :
    shown (server.sendSnapshot peer sessions) peer =
      shown server peer ++ (playerSnaps sessions).map PlayerSnap.playerId := by
  have players : (playerSnaps sessions).length ≤ snapshotEntitiesPerPacket := by simpa [playerSnaps] using few
  have boats : (boatSnaps sessions).length ≤ snapshotEntitiesPerPacket := by
    rw [boatSnaps, List.length_map]
    exact (List.length_filter_le _ _).trans few
  unfold sendSnapshot
  split <;> rename_i some
  · rw [List.isEmpty_iff.mp some]
    simp [playerSnaps]
  · rw [postBounded, if_neg (Nat.not_lt.mpr (fit _ _ _ _ players boats)), shown_post, if_pos rfl]
    rfl

theorem advertised_length_le (lane : Lane) (visible : Nat) :
    (lane.advertised visible).length ≤ snapshotEntitiesPerPacket := by
  rw [Lane.advertised, List.length_map, List.length_range]
  exact Nat.min_le_right _ _

/-- What a due visit does, with the selection of the server before it: stamping the visit moves no one. -/
theorem visit_eq (found : server.sessions.get? peer = some session) {cell : Cell} (here : session.cell = some cell)
    (due : server.snapshotDue session = true) {selected : List UInt64}
    (chosen : server.snapshotSelection session.playerId cell = selected) :
    let stamped := server.modifySession peer (visitedAt server.snapshotTick)
    let chunk := snapshotChunk selected session.snapshotCursor session.snapshotRemaining
    server.visitSnapshotRecipient peer =
      if selected.isEmpty then stamped.modifySession peer (withSnapshotCursor none 0)
      else (stamped.modifySession peer (withSnapshotCursor chunk.cursor chunk.remaining)).sendSnapshot peer
        (chunk.advertised.filterMap stamped.sessionByPlayer) := by
  intro stamped chunk
  have keeps : KeepsIndex server (server.modifySession peer (visitedAt server.snapshotTick)) :=
    .modifySession _ _ _ fun _ => rfl
  have still := selection_of_keeps keeps session.playerId cell
  rw [chosen] at still
  unfold visitSnapshotRecipient
  simp only [found, here, due, Bool.not_true, Bool.false_eq_true, if_false, still]
  rfl

omit [Codec F] in
theorem stamped_session (found : server.sessions.get? peer = some session) (change : Session F → Session F) :
    ((server.modifySession peer (visitedAt server.snapshotTick)).modifySession peer change).sessions.get? peer =
      some (change (visitedAt server.snapshotTick session)) := by
  simp [modifySession, FiniteMap.get?_modify, found]

/-- A due visit moves the recipient's sweep past one chunk of the selection. -/
theorem visit_sweeps (found : server.sessions.get? peer = some session) {cell : Cell} (here : session.cell = some cell)
    (due : server.snapshotDue session = true) {selected : List UInt64}
    (chosen : server.snapshotSelection session.playerId cell = selected) :
    let chunk := snapshotChunk selected session.snapshotCursor session.snapshotRemaining
    ∃ visited, (server.visitSnapshotRecipient peer).sessions.get? peer = some visited ∧
      visited.playerId = session.playerId ∧ visited.snapshotLastVisitTick = server.snapshotTick ∧
      if selected.length = 0 then visited.snapshotCursor = none ∧ visited.snapshotRemaining = 0
        else visited.snapshotCursor = chunk.cursor ∧ visited.snapshotRemaining = chunk.remaining := by
  intro chunk
  rw [visit_eq found here due chosen]
  by_cases empty : selected.length = 0
  · rw [if_pos (by simpa [List.isEmpty_iff_length_eq_zero] using empty)]
    refine ⟨withSnapshotCursor none 0 (visitedAt server.snapshotTick session), stamped_session found _, rfl, rfl, ?_⟩
    rw [if_pos empty]
    exact ⟨rfl, rfl⟩
  · rw [if_neg (by simpa [List.isEmpty_iff_length_eq_zero] using empty)]
    refine ⟨withSnapshotCursor chunk.cursor chunk.remaining (visitedAt server.snapshotTick session), ?_, rfl, rfl, ?_⟩
    · rw [sendSnapshot_sessions]
      exact stamped_session found _
    rw [if_neg empty]
    exact ⟨rfl, rfl⟩

/-- It shows the recipient that chunk. -/
theorem visit_shows (fit : SnapshotsFit F) (agree : SessionsAgree noStray server)
    (found : server.sessions.get? peer = some session) {cell : Cell} (here : session.cell = some cell)
    (due : server.snapshotDue session = true) {selected : List UInt64}
    (chosen : server.snapshotSelection session.playerId cell = selected) :
    shown (server.visitSnapshotRecipient peer) peer = shown server peer ++
      (snapshotChunk selected session.snapshotCursor session.snapshotRemaining).advertised := by
  have keeps : KeepsIndex server (server.modifySession peer (visitedAt server.snapshotTick)) :=
    .modifySession _ _ _ fun _ => rfl
  have sent : (snapshotChunk selected session.snapshotCursor session.snapshotRemaining).advertised =
      ((sweepLane selected session).advertised selected.length).filterMap (selected[·]?) :=
    chunk_advertised (sweepLane selected session) rfl
  rw [visit_eq found here due chosen]
  by_cases empty : selected.length = 0
  · have nothing : selected = [] := List.length_eq_zero_iff.mp empty
    rw [if_pos (by simp [nothing]), sent, nothing]
    simp
    rfl
  · rw [if_neg (by simpa [List.isEmpty_iff_length_eq_zero] using empty)]
    have members : ∀ player ∈ (snapshotChunk selected session.snapshotCursor session.snapshotRemaining).advertised,
        player ∈ server.playerOrder := by
      intro player listed
      rw [sent, List.mem_filterMap] at listed
      obtain ⟨place, -, placed⟩ := listed
      exact mem_of_snapshotSelection (chosen ▸ List.mem_of_getElem? placed)
    have short : (snapshotChunk selected session.snapshotCursor session.snapshotRemaining).advertised.length ≤
        snapshotEntitiesPerPacket := by
      rw [sent]
      exact (List.length_filterMap_le _ _).trans (advertised_length_le _ _)
    rw [shown_sendSnapshot fit _ _ _ ((List.length_filterMap_le _ _).trans short),
      players_shown (keeps.agree agree) _ members]
    rfl

/-- Among gathered sessions the selection depends on the registered players alone. -/
theorem visit_due (fit : SnapshotsFit F) (gathered : Gathered server)
    (found : server.sessions.get? peer = some session) (due : server.snapshotDue session = true)
    {lane : Lane} (remaining : lane.remaining = session.snapshotRemaining)
    (position : lane.position =
      sweepPosition (selection server.playerOrder session.playerId) session.snapshotCursor) :
    let selected := selection server.playerOrder session.playerId
    let chunk := snapshotChunk selected session.snapshotCursor session.snapshotRemaining
    ∃ visited, (server.visitSnapshotRecipient peer).sessions.get? peer = some visited ∧
      visited.playerId = session.playerId ∧ visited.snapshotLastVisitTick = server.snapshotTick ∧
      (if selected.length = 0 then visited.snapshotCursor = none ∧ visited.snapshotRemaining = 0
        else visited.snapshotCursor = chunk.cursor ∧ visited.snapshotRemaining = chunk.remaining) ∧
      shown (server.visitSnapshotRecipient peer) peer =
        shown server peer ++ (lane.advertised selected.length).filterMap (selected[·]?) := by
  intro selected chunk
  obtain ⟨cell, here, -, -⟩ := gathered.agree.cells peer session found
  have chosen := snapshotSelection_eq gathered found here
  obtain ⟨visited, present, own, timed, swept⟩ := visit_sweeps found here due chosen
  have sent := visit_shows fit gathered.agree found here due chosen
  have chunked := chunk_advertised lane position
  rw [remaining] at chunked
  exact ⟨visited, present, own, timed, swept, chunked ▸ sent⟩

/-- Visits neither advance the tick nor move the walk. -/
theorem visit_clock (server : Server F) (peer : PeerId) :
    (server.visitSnapshotRecipient peer).snapshotTick = server.snapshotTick ∧
      (server.visitSnapshotRecipient peer).snapshotRecipientCursor = server.snapshotRecipientCursor := by
  have posted : ∀ (before : Server F) sessions,
      (before.sendSnapshot peer sessions).snapshotTick = before.snapshotTick ∧
        (before.sendSnapshot peer sessions).snapshotRecipientCursor = before.snapshotRecipientCursor := by
    intro before sessions
    unfold sendSnapshot postBounded
    split
    · exact ⟨rfl, rfl⟩
    · split <;> exact ⟨rfl, rfl⟩
  unfold visitSnapshotRecipient
  split
  · exact ⟨rfl, rfl⟩
  split
  · exact ⟨rfl, rfl⟩
  split
  · exact ⟨rfl, rfl⟩
  simp only
  split
  · exact ⟨rfl, rfl⟩
  · exact posted _ _

theorem visits_clock (peers : List PeerId) (server : Server F) :
    (peers.foldl visitSnapshotRecipient server).snapshotTick = server.snapshotTick ∧
      (peers.foldl visitSnapshotRecipient server).snapshotRecipientCursor = server.snapshotRecipientCursor := by
  induction peers generalizing server with
  | nil => exact ⟨rfl, rfl⟩
  | cons peer rest ih =>
      obtain ⟨tick, cursor⟩ := ih (server.visitSnapshotRecipient peer)
      obtain ⟨sameTick, sameCursor⟩ := visit_clock server peer
      exact ⟨tick.trans sameTick, cursor.trans sameCursor⟩

end Visits

/-! One call. -/
section Calls
variable {F : Type} [Platform F] [Codec F] {server : Server F} {peer : PeerId} {session : Session F}

/-- The server as the visits of a call find it, and the recipients they visit. -/
def callWindow (server : Server F) : List PeerId :=
  orderedPeersAfter server.snapshotRecipients server.snapshotRecipientCursor snapshotPacketsPerTick

def callStart (server : Server F) : Server F :=
  { server with
    snapshotTick := server.snapshotTick + 1
    snapshotRecipientCursor := (callWindow server).getLast?.or server.snapshotRecipientCursor }

theorem broadcastSnapshots_eq (server : Server F) :
    server.broadcastSnapshots = (callWindow server).foldl visitSnapshotRecipient (callStart server) := rfl

omit [Codec F] in
theorem keeps_callStart (server : Server F) : KeepsIndex server (callStart server) :=
  .of_sessions_eq rfl rfl

omit [Codec F] in
theorem recipients_card (gathered : Gathered server) : server.snapshotRecipients.card = (stageOf server).crowd := by
  rw [gathered.agree.recipients]
  rfl

omit [Codec F] in
theorem callWindow_eq (gathered : Gathered server) :
    callWindow server =
      (circle server.snapshotRecipients server.snapshotRecipientCursor).take (stageOf server).window := by
  rw [callWindow, orderedPeersAfter, orderedAfter_eq_take, recipients_card gathered]
  rfl

omit [Codec F] in
theorem mem_callWindow (gathered : Gathered server) (found : server.sessions.get? peer = some session) :
    peer ∈ callWindow server ↔ (laneOf server peer session).place < (stageOf server).window := by
  rw [callWindow_eq gathered, List.mem_take_iff_idxOf_lt]
  · rfl
  · rw [mem_circle, gathered.agree.recipients]
    exact (FiniteMap.mem_keys_iff_exists _ _).mpr ⟨session, found⟩

theorem place_advances (gathered : Gathered server) (found : server.sessions.get? peer = some session) :
    (circle server.broadcastSnapshots.snapshotRecipients
        server.broadcastSnapshots.snapshotRecipientCursor).idxOf peer =
      RoundRobin.advance (stageOf server).crowd (stageOf server).window (laneOf server peer session).place := by
  have keeps := keeps_broadcastSnapshots server
  have member : peer ∈ circle server.snapshotRecipients server.snapshotRecipientCursor := by
    rw [mem_circle, gathered.agree.recipients]
    exact (FiniteMap.mem_keys_iff_exists _ _).mpr ⟨session, found⟩
  have inhabited : 0 < (stageOf server).crowd :=
    FiniteMap.size_pos_of_present server.sessions peer session found
  have positive := (stageOf server).window_pos inhabited
  have size := circle_length server.snapshotRecipients server.snapshotRecipientCursor
  rw [recipients_card gathered] at size
  have cursor := (visits_clock (callWindow server) (callStart server)).2
  rw [← broadcastSnapshots_eq] at cursor
  have some_last : ∃ last, (callWindow server).getLast? = some last := by
    rw [callWindow_eq gathered]
    refine Option.isSome_iff_exists.mp ?_
    rw [List.getLast?_isSome]
    intro empty
    have none := congrArg List.length empty
    rw [List.length_take, size, List.length_nil] at none
    have fits := (stageOf server).window_le
    omega
  obtain ⟨last, ended⟩ := some_last
  have resumed : server.broadcastSnapshots.snapshotRecipientCursor = some last := by
    rw [cursor, callStart, ended]
    rfl
  rw [callWindow_eq gathered] at ended
  have turned := circle_getLast server.snapshotRecipients server.snapshotRecipientCursor positive
    ((stageOf server).window_le.trans (recipients_card gathered).ge) ended
  rw [keeps.recipients, resumed, turned, idxOf_rotate (circle_nodup _ _) member
    ((stageOf server).window_le.trans size.ge), size]
  rfl

/-- A call reaches each recipient of its window exactly once. -/
theorem visits_reach {peers : List PeerId} (unique : peers.Nodup) (member : peer ∈ peers) (server : Server F) :
    ∃ before, Quiet peer server before ∧ before.snapshotTick = server.snapshotTick ∧
      Quiet peer (before.visitSnapshotRecipient peer) (peers.foldl visitSnapshotRecipient server) := by
  obtain ⟨earlier, later, rfl⟩ := List.append_of_mem member
  rw [List.nodup_append] at unique
  obtain ⟨-, rest, apart⟩ := unique
  have absent : peer ∉ earlier := fun listed => apart peer listed peer List.mem_cons_self rfl
  refine ⟨earlier.foldl visitSnapshotRecipient server, visits_other absent server,
    (visits_clock earlier server).1, ?_⟩
  rw [List.foldl_append, List.foldl_cons]
  exact visits_other (List.nodup_cons.mp rest).1 _

omit [Codec F] in
theorem callWindow_nodup (gathered : Gathered server) : (callWindow server).Nodup := by
  rw [callWindow_eq gathered]
  exact (circle_nodup _ _).sublist (List.take_sublist _ _)

/-- The one visit of a call to a recipient in its window. -/
theorem call_reach (gathered : Gathered server) (found : server.sessions.get? peer = some session)
    (inside : peer ∈ callWindow server) :
    ∃ before, Quiet peer server before ∧ before.snapshotTick = server.snapshotTick + 1 ∧
      before.snapshotDue session = (stageOf server).works (laneOf server peer session) ∧
      Quiet peer (before.visitSnapshotRecipient peer) server.broadcastSnapshots := by
  obtain ⟨before, quiet, clock, rest⟩ := visits_reach (callWindow_nodup gathered) inside (callStart server)
  have started : Quiet peer server (callStart server) := ⟨rfl, rfl, keeps_callStart server⟩
  have reached := started.trans quiet
  have place := (mem_callWindow gathered found).mp inside
  refine ⟨before, reached, clock, ?_, rest⟩
  rw [Stage.works, decide_eq_true place, Bool.true_and, snapshotDue, nominalCadence, reached.keeps.cfg, clock]
  rfl

/-- A call without work for a recipient leaves its session alone and sends it nothing. -/
theorem call_idle (gathered : Gathered server) (found : server.sessions.get? peer = some session)
    (idle : ¬ (stageOf server).works (laneOf server peer session) = true) :
    Quiet peer server server.broadcastSnapshots := by
  by_cases inside : peer ∈ callWindow server
  · obtain ⟨before, reached, -, due, rest⟩ := call_reach gathered found inside
    rw [Bool.not_eq_true] at idle
    rw [visit_idle (due.trans idle) (reached.session.trans found)] at rest
    exact reached.trans rest
  · have started : Quiet peer server (callStart server) := ⟨rfl, rfl, keeps_callStart server⟩
    exact started.trans (visits_other inside _)

omit [Codec F] in
/-- The sweep that a due visit leaves is the lane's own. -/
theorem visited_sweep (gathered : Gathered server) (found : server.sessions.get? peer = some session)
    {visited : Session F}
    (swept :
      let chunk := snapshotChunk (selection server.playerOrder session.playerId) session.snapshotCursor
        session.snapshotRemaining
      if (stageOf server).visible = 0 then visited.snapshotCursor = none ∧ visited.snapshotRemaining = 0
      else visited.snapshotCursor = chunk.cursor ∧ visited.snapshotRemaining = chunk.remaining) :
    sweepPosition (selection server.playerOrder session.playerId) visited.snapshotCursor =
        ((stageOf server).swept (laneOf server peer session)).position ∧
      visited.snapshotRemaining = ((stageOf server).swept (laneOf server peer session)).remaining := by
  have whole := visible_eq gathered found
  simp only [Stage.swept]
  by_cases empty : (stageOf server).visible = 0
  · rw [if_pos empty] at swept ⊢
    rw [swept.1, swept.2, empty]
    exact ⟨rfl, by simp [Lane.planned]⟩
  · rw [if_neg empty] at swept ⊢
    have inhabited : 0 < (selection server.playerOrder session.playerId).length := by omega
    rw [swept.1, swept.2, ← whole]
    exact ⟨chunk_cursor (laneOf server peer session) (selection_nodup _ _) inhabited rfl,
      chunk_remaining (laneOf server peer session) rfl⟩

/-- A call is one step of each recipient's lane, and sends what the lane shows. -/
theorem broadcast_lane (fit : SnapshotsFit F) (gathered : Gathered server)
    (found : server.sessions.get? peer = some session) :
    ∃ visited, server.broadcastSnapshots.sessions.get? peer = some visited ∧
      visited.playerId = session.playerId ∧
      laneOf server.broadcastSnapshots peer visited = (stageOf server).next (laneOf server peer session) ∧
      shown server.broadcastSnapshots peer =
        shown server peer ++ ((stageOf server).shows (laneOf server peer session)).filterMap
          ((selection server.playerOrder session.playerId)[·]?) := by
  have place := place_advances gathered found
  have order := (keeps_broadcastSnapshots server).order
  have clock : server.broadcastSnapshots.snapshotTick = server.snapshotTick + 1 := by
    rw [broadcastSnapshots_eq, (visits_clock _ _).1]
    rfl
  by_cases works : (stageOf server).works (laneOf server peer session) = true
  · have inside : peer ∈ callWindow server := by
      rw [mem_callWindow gathered found]
      by_contra outside
      simp [Stage.works, outside] at works
    -- Visits to the others neither change what this recipient is due nor what it is shown.
    obtain ⟨before, reached, ticked, due, rest⟩ := call_reach gathered found inside
    have sweep : (laneOf server peer session).position =
        sweepPosition (selection before.playerOrder session.playerId) session.snapshotCursor := by
      rw [reached.keeps.order]
      rfl
    obtain ⟨visited, present, same, timed, swept, sent⟩ := visit_due fit (gathered.keeps reached.keeps)
      (reached.session.trans found) (due.trans works) rfl sweep
    rw [reached.keeps.order, visible_eq gathered found] at swept sent
    refine ⟨visited, rest.session.trans present, same, ?_, ?_⟩
    · obtain ⟨position, remaining⟩ := visited_sweep gathered found swept
      rw [Stage.next, if_pos works, laneOf, place, clock, timed, ticked, order, same, position,
        remaining]
      rfl
    · rw [rest.shown, sent, reached.shown, Stage.shows, if_pos works]
  · have quiet := call_idle gathered found works
    refine ⟨session, quiet.session.trans found, rfl, ?_, ?_⟩
    · rw [Stage.next, if_neg works, laneOf, place, clock, order]
      rfl
    · rw [quiet.shown, Stage.shows, if_neg works]
      exact (List.append_nil _).symm

end Calls
end SailwindOnline.SnapshotSchedule
