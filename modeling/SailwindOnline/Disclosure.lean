import SailwindOnline.CellBounds
import SailwindOnline.Hydration

/-!
Who is shown to whom. Snapshots and cell snapshots are the only messages that
tell a client of others; each is built from sessions and moorings within the
interest radius of its recipient, and each pose in it is one its player's own
client reported, as sanitized, over the connection that still holds the session.
-/

namespace SailwindOnline.Disclosure
open World (Cell)
open Server SessionIndex SessionRuns Interest Effects TickEffects Traces Persistence CellBounds Hydration

/-! What a message shows. -/
section Showing
variable {F : Type}

def playersShown : ServerMessage F → List (PlayerSnap F)
  | .snapshotDelta _ players _ => players
  | .cellSnapshot _ players _ _ => players
  | _ => []

def boatsShown : ServerMessage F → List (BoatSnap F)
  | .snapshotDelta _ _ boats => boats
  | .cellSnapshot _ _ boats _ => boats
  | _ => []

def mooringsShown : ServerMessage F → List (MooringSnap F)
  | .cellSnapshot _ _ _ moorings => moorings
  | _ => []

/-- What others can see of a session. -/
def outward (session : Session F) :=
  (session.playerId, session.cell, session.pos, session.rot, session.vel, session.aboardBoat, session.tMs)

theorem snaps_of_outward {session later : Session F} (same : outward later = outward session) :
    playerSnap later = playerSnap session ∧ boatSnap later = boatSnap session ∧
      later.aboardBoat = session.aboardBoat ∧ later.cell = session.cell := by
  simp only [outward, Prod.mk.injEq] at same
  obtain ⟨player, cell, pos, rot, vel, boat, time⟩ := same
  exact ⟨by simp only [playerSnap, player, pos, rot, boat, time],
    by simp only [boatSnap, player, pos, rot, vel, boat, time], boat, cell⟩

end Showing

/-! Sight. -/
section Sight
variable {F : Type} [Platform F] {base server middle after : Server F} {peer : PeerId} {here : Cell}

/-- A session at most the interest radius away from `here`. -/
structure Near (server : Server F) (here : Cell) (session : Session F) : Prop where
  live : ∃ peer, server.sessions.get? peer = some session
  there : ∃ cell, session.cell = some cell ∧ cell.chebyshevDistance here ≤ (server.cfg.aoiRadiusI32 : Int)

/-- The session of `peer` is in `here`. -/
def Beholds (server : Server F) (peer : PeerId) (here : Cell) : Prop :=
  ∃ viewer, server.sessions.get? peer = some viewer ∧ viewer.cell = some here

/-- A message shows its recipient only what is near it, as it stands, and a snapshot never shows the recipient. -/
structure InSight (server : Server F) (peer : PeerId) (message : ServerMessage F) : Prop where
  players : ∀ snap ∈ playersShown message, ∃ here other, Beholds server peer here ∧ Near server here other ∧
    snap = playerSnap other
  boats : ∀ snap ∈ boatsShown message, ∃ here other, Beholds server peer here ∧ Near server here other ∧
    other.aboardBoat ≠ 0 ∧ snap = boatSnap other
  moorings : ∀ snap ∈ mooringsShown message, ∃ here, ∃ row ∈ server.db.moorings, Beholds server peer here ∧
    ({ cx := row.cellX, cz := row.cellZ } : Cell).chebyshevDistance here ≤ (server.cfg.aoiRadiusI32 : Int) ∧
    snap = mooringSnap row
  others : topicOf message = .snapshot → ∀ snap ∈ playersShown message, ∀ viewer,
    server.sessions.get? peer = some viewer → snap.playerId ≠ viewer.playerId

theorem inSight_of_topic {message : ServerMessage F} (snapshots : topicOf message ≠ .snapshot)
    (cells : topicOf message ≠ .cell) : InSight server peer message := by
  cases message with
  | snapshotDelta => exact absurd rfl snapshots
  | cellSnapshot => exact absurd rfl cells
  | _ =>
      constructor
      · rintro snap ⟨⟩
      · rintro snap ⟨⟩
      · rintro snap ⟨⟩
      · rintro - snap ⟨⟩

/-- Nothing was unsent, and every new datagram is `good` for its recipient. -/
def Hands (good : PeerId → ServerMessage F → Prop) (server after : Server F) : Prop :=
  ∃ posts, after.sent = server.sent ++ posts ∧ ∀ post ∈ posts, good post.1 post.2.payload

namespace Hands
variable {good : PeerId → ServerMessage F → Prop}

theorem of_sent (same : after.sent = server.sent) : Hands good server after := ⟨[], by simp [same], by simp⟩

theorem trans (first : Hands good server middle) (second : Hands good middle after) : Hands good server after := by
  obtain ⟨early, grown, handed⟩ := first
  obtain ⟨late, grownAgain, handedAgain⟩ := second
  refine ⟨early ++ late, by rw [grownAgain, grown, List.append_assoc], ?_⟩
  intro post member
  rcases List.mem_append.mp member with old | new
  · exact handed post old
  · exact handedAgain post new

theorem of_posts {topics : List Topic} (posts : Posts topics server after)
    (fine : ∀ peer message, topicOf message ∈ topics → good peer message) : Hands good server after := by
  obtain ⟨new, grown, about⟩ := posts
  exact ⟨new, grown, fun post member => fine _ _ (about post member)⟩

theorem postBounded [Codec F] {payload : ServerMessage F} (fine : good peer payload) :
    Hands good server (server.postBounded peer payload).1 := by
  unfold Server.postBounded
  split
  · exact .of_sent rfl
  · refine ⟨[(peer, _)], rfl, ?_⟩
    intro post member
    rw [List.mem_singleton.mp member]
    exact fine

theorem foldl {Item : Type} {step : Server F → Item → Server F} (keeps : Server F → Prop)
    (each : ∀ server item, keeps server → Hands good server (step server item) ∧ keeps (step server item))
    (items : List Item) (kept : keeps server) : Hands good server (items.foldl step server) := by
  induction items generalizing server with
  | nil => exact .of_sent rfl
  | cons item rest ih =>
      obtain ⟨handed, still⟩ := each server item kept
      exact handed.trans (ih still)

end Hands

/-- `server` shows the same sessions and moorings as `base`. -/
structure Alike (base server : Server F) : Prop where
  cfg : server.cfg = base.cfg
  moorings : server.db.moorings = base.db.moorings
  sessions : ∀ peer, (server.sessions.get? peer).map outward = (base.sessions.get? peer).map outward

namespace Alike

theorem refl (base : Server F) : Alike base base := ⟨rfl, rfl, fun _ => rfl⟩

theorem trans (first : Alike base middle) (second : Alike middle after) : Alike base after :=
  ⟨second.cfg.trans first.cfg, second.moorings.trans first.moorings,
    fun peer => (second.sessions peer).trans (first.sessions peer)⟩

theorem of_touches {rest : Server F → Server F} {view : Session F → Session F} {topics : List Topic}
    (work : Touches rest view topics base server) (cfg : server.cfg = base.cfg) (db : server.db = base.db)
    (seen : ∀ session, outward (view session) = outward session) : Alike base server := by
  refine ⟨cfg, congrArg Db.moorings db, fun peer => ?_⟩
  have viewed := congrArg (Option.map outward) (work.sessions peer)
  rw [Option.map_map, Option.map_map] at viewed
  have same : outward ∘ view = outward := funext seen
  rwa [same] at viewed

theorem session (alike : Alike base server) {session : Session F} (found : server.sessions.get? peer = some session) :
    ∃ own, base.sessions.get? peer = some own ∧ outward session = outward own := by
  have same := alike.sessions peer
  rw [found, Option.map_some, eq_comm, Option.map_eq_some_iff] at same
  obtain ⟨own, present, viewed⟩ := same
  exact ⟨own, present, viewed.symm⟩

theorem beholds (alike : Alike base server) (seen : Beholds server peer here) : Beholds base peer here := by
  obtain ⟨viewer, found, cell⟩ := seen
  obtain ⟨own, present, same⟩ := alike.session found
  exact ⟨own, present, (snaps_of_outward same).2.2.2.symm.trans cell⟩

theorem near (alike : Alike base server) {other : Session F} (close : Near server here other) :
    ∃ own, Near base here own ∧ outward other = outward own := by
  obtain ⟨⟨peer, found⟩, cell, there, within⟩ := close
  obtain ⟨own, present, same⟩ := alike.session found
  refine ⟨own, ⟨⟨peer, present⟩, cell, (snaps_of_outward same).2.2.2.symm.trans there, ?_⟩, same⟩
  rw [← alike.cfg]
  exact within

end Alike

/-- The snaps of near sessions are in sight. -/
theorem snaps_inSight (alike : Alike base server) (seen : Beholds base peer here) {others : List (Session F)}
    (near : ∀ other ∈ others, Near server here other) :
    (∀ snap ∈ playerSnaps others, ∃ here other, Beholds base peer here ∧ Near base here other ∧
      snap = playerSnap other) ∧
    ∀ snap ∈ boatSnaps others, ∃ here other, Beholds base peer here ∧ Near base here other ∧
      other.aboardBoat ≠ 0 ∧ snap = boatSnap other := by
  constructor
  · intro snap shown
    obtain ⟨other, listed, rfl⟩ := List.mem_map.mp shown
    obtain ⟨own, close, same⟩ := alike.near (near other listed)
    exact ⟨here, own, seen, close, (snaps_of_outward same).1⟩
  · intro snap shown
    obtain ⟨other, listed, rfl⟩ := List.mem_map.mp shown
    obtain ⟨listed, aboard⟩ := List.mem_filter.mp listed
    obtain ⟨own, close, same⟩ := alike.near (near other listed)
    obtain ⟨-, boat, aboardToo, -⟩ := snaps_of_outward same
    refine ⟨here, own, seen, close, ?_, boat⟩
    rw [← aboardToo]
    simpa using aboard

theorem sessionByPlayer_live {player : UInt64} {session : Session F}
    (found : server.sessionByPlayer player = some session) : ∃ peer, server.sessions.get? peer = some session := by
  unfold sessionByPlayer at found
  split at found
  · cases found
  · rename_i peer _
    split at found <;> rename_i present
    · cases found
    · split at found
      · cases found
        exact ⟨peer, present⟩
      · cases found

end Sight

/-! Snapshots. -/
section Snapshots
variable {F : Type} [Platform F] {base server middle after : Server F} {peer : PeerId} {here : Cell}

theorem chunk_selected {selected : List UInt64} {cursor : Option UInt64} {remaining : Nat} {player : UInt64}
    (advertised : player ∈ (snapshotChunk selected cursor remaining).advertised) : player ∈ selected := by
  simp only [snapshotChunk, List.mem_filterMap] at advertised
  obtain ⟨offset, -, found⟩ := advertised
  exact List.mem_of_getElem? found

/-- Whoever is selected is another player within the radius. -/
theorem selected_near {self player : UInt64} {other : Session F}
    (selected : player ∈ server.snapshotSelection self here) (found : server.sessionByPlayer player = some other) :
    Near server here other ∧ other.playerId ≠ self := by
  have listed := List.mem_of_mem_take selected
  obtain ⟨walked, viewed⟩ := List.mem_filter.mp listed
  obtain ⟨-, apart⟩ := List.mem_filter.mp walked
  constructor
  · refine ⟨sessionByPlayer_live found, ?_⟩
    unfold inView at viewed
    rw [found] at viewed
    cases there : other.cell with
    | none =>
        simp only [there] at viewed
        cases viewed
    | some cell =>
        simp only [there, decide_eq_true_eq] at viewed
        exact ⟨cell, rfl, viewed⟩
  · rw [sessionByPlayer_own found]
    simpa using apart

variable [Codec F]

theorem sendSnapshot_inSight (seen : Beholds base peer here) (alike : Alike base middle) {others : List (Session F)}
    (near : ∀ other ∈ others, Near middle here other)
    (apart : ∀ other ∈ others, ∀ viewer, base.sessions.get? peer = some viewer →
      other.playerId ≠ viewer.playerId) : Hands (InSight base) server (server.sendSnapshot peer others) := by
  obtain ⟨players, boats⟩ := snaps_inSight alike seen near
  unfold sendSnapshot
  split
  · exact .of_sent rfl
  · refine .postBounded ⟨players, boats, ?_, ?_⟩
    · rintro snap ⟨⟩
    · intro _ snap shown viewer found
      obtain ⟨other, listed, rfl⟩ := List.mem_map.mp shown
      exact apart other listed viewer found

omit [Codec F] in
theorem snapshotEffect_alike (work : SnapshotEffect base server) : Alike base server :=
  .of_touches work (congrArg Server.cfg work.frame :) (congrArg Server.db work.frame :) fun _ => rfl

theorem visitSnapshotRecipient_inSight (work : SnapshotEffect base server) (peer : PeerId) :
    Hands (InSight base) server (server.visitSnapshotRecipient peer) := by
  have visited : SnapshotEffect server (server.modifySession peer (visitedAt server.snapshotTick)) :=
    .modifySession _ _ rfl fun _ => rfl
  unfold visitSnapshotRecipient
  split
  · exact .of_sent rfl
  rename_i session found
  split
  · exact .of_sent rfl
  rename_i here place
  split
  · exact .of_sent rfl
  have seen : Beholds base peer here := (snapshotEffect_alike work).beholds ⟨session, found, place⟩
  obtain ⟨viewer, present, same⟩ := (snapshotEffect_alike work).session found
  have alike := snapshotEffect_alike (work.trans visited)
  simp only
  split
  · exact .of_sent rfl
  -- The advertised sessions are read before the cursor moves.
  apply sendSnapshot_inSight seen alike
  · intro other listed
    obtain ⟨player, advertised, held⟩ := List.mem_filterMap.mp listed
    exact (selected_near (chunk_selected advertised) held).1
  · intro other listed again held
    obtain ⟨player, advertised, read⟩ := List.mem_filterMap.mp listed
    rw [present, Option.some.injEq] at held
    subst held
    rw [← show session.playerId = viewer.playerId from congrArg Prod.fst same]
    exact (selected_near (chunk_selected advertised) read).2

theorem broadcastSnapshots_inSight (server : Server F) : Hands (InSight server) server server.broadcastSnapshots := by
  unfold broadcastSnapshots
  simp only
  refine Hands.trans (.of_sent rfl) (Hands.foldl (SnapshotEffect server) ?_ _ ?_)
  · intro middle peer work
    exact ⟨visitSnapshotRecipient_inSight work peer, work.trans (visitSnapshotRecipient_effect middle peer)⟩
  · exact ⟨rfl, fun _ => rfl, posts_of_sent_eq rfl⟩

end Snapshots

/-! Cell hydration. -/
section Cells
variable {F : Type} [Platform F] {base server middle after : Server F} {peer : PeerId} {here : Cell}

/-- A session whose subscription stays within `radius` of its own cell. -/
structure Sighted (radius : Nat) (session : Session F) : Prop where
  tidy : Tidy session
  centered : ∃ here, session.cell = some here ∧
    ∀ cell ∈ session.sub.cells, cell.chebyshevDistance here ≤ (radius : Int)

omit [Platform F] in
theorem sighted_interest (radius : Nat) : KeptByInterest (Sighted (F := F) radius) := by
  constructor
  · exact fun session sighted => ⟨tidy_applyAoiChunk sighted.tidy, sighted.centered⟩
  · intro session players sighted
    have hydrates := prepareHydration_hydrates session players
    refine ⟨hydrates.tidy sighted.tidy, ?_⟩
    rw [hydrates.sub]
    have same : (prepareHydration session players).1.cell = session.cell := by
      unfold prepareHydration
      split
      · rfl
      · split <;> rfl
    rw [same]
    exact sighted.centered
  · exact fun session change kept sighted => ⟨(hydrates_active session change kept).tidy sighted.tidy, sighted.centered⟩
  · exact fun session sighted => ⟨(hydrates_done session).tidy sighted.tidy, sighted.centered⟩

/-- A visit that publishes nothing finds everything published. -/
theorem nextAoiChunk_none {session : Session F} (found : server.sessions.get? peer = some session)
    (settled : (server.nextAoiChunk peer).2 = none) :
    (server.nextAoiChunk peer).1 = server ∧ session.publishedCells ⊆ session.sub.cells := by
  unfold nextAoiChunk at settled ⊢
  simp only [found] at settled ⊢
  split at settled <;> rename_i nothing
  · rw [if_pos nothing]
    refine ⟨rfl, ?_⟩
    simp only [aoiChunk, Bool.and_eq_true, List.isEmpty_iff] at nothing
    have removed := nothing.2
    rw [List.take_eq_nil_iff, or_iff_right (by decide), ← List.length_eq_zero_iff, OrderedSet.ascending_length,
      Finset.card_eq_zero] at removed
    exact Finset.sdiff_eq_empty_iff_subset.mp removed
  · cases settled

omit [Platform F] in
/-- The cell a prepared hydration works on is published, and subscribed once nothing is left to withdraw. -/
theorem prepareHydration_subscribed {session : Session F} {players : Nat} {hydration : CellHydration}
    (tidy : Tidy session) (settled : session.publishedCells ⊆ session.sub.cells)
    (prepared : (prepareHydration session players).2 = some hydration) : hydration.cell ∈ session.sub.cells := by
  unfold prepareHydration at prepared
  split at prepared <;> rename_i standing
  · cases prepared
    obtain ⟨held, -⟩ := Option.filter_eq_some_iff.mp standing
    exact settled (tidy.active _ held).1
  · split at prepared <;> rename_i next
    · cases prepared
    · cases prepared
      exact settled (tidy.waiting (nextHydrationCell_mem next))

/-- Only players in the cell are found. -/
theorem scanPlayers_found (server : Server F) (cell : Cell) (candidates : List UInt64) (scan : PlayerScan F)
    (good : ∀ other ∈ scan.found, (∃ peer, server.sessions.get? peer = some other) ∧ other.cell = some cell) :
    ∀ other ∈ (server.scanPlayers cell candidates scan).found,
      (∃ peer, server.sessions.get? peer = some other) ∧ other.cell = some cell := by
  induction candidates generalizing scan with
  | nil => exact good
  | cons player rest ih =>
      unfold scanPlayers
      simp only
      split
      · exact ih _ good
      rename_i session looked
      split <;> rename_i here
      · exact ih _ good
      have grown : ∀ other ∈ scan.found ++ [session], (∃ peer, server.sessions.get? peer = some other) ∧
          other.cell = some cell := by
        intro other member
        rcases List.mem_append.mp member with old | new
        · exact good other old
        · rw [List.mem_singleton.mp new]
          exact ⟨sessionByPlayer_live looked, not_not.mp here⟩
      split
      · exact grown
      · exact ih _ grown

variable [Codec F]

omit [Codec F] in
theorem aoiEffect_alike (work : AoiEffect base server) : Alike base server :=
  .of_touches work (congrArg Server.cfg work.frame :) (congrArg Server.db work.frame :) fun _ => rfl

/-- Sessions and moorings of one cell, shown to a peer that subscribes it. -/
theorem sendCellSnapshot_inSight (seen : Beholds base peer here) (alike : Alike base middle) (cell : Cell)
    (others : List (Session F)) (rows : List (MooringRow F)) (near : ∀ other ∈ others, Near middle here other)
    (moored : ∀ row ∈ rows, row ∈ middle.db.moorings ∧
      ({ cx := row.cellX, cz := row.cellZ } : Cell).chebyshevDistance here ≤ (base.cfg.aoiRadiusI32 : Int)) :
    Hands (InSight base) server (server.sendCellSnapshot peer cell others (rows.map mooringSnap)) := by
  obtain ⟨players, boats⟩ := snaps_inSight alike seen near
  have shown : InSight base peer (.cellSnapshot cell (playerSnaps others) (boatSnaps others) (rows.map mooringSnap)) := by
    refine ⟨players, boats, ?_, ?_⟩
    · intro snap listed
      obtain ⟨row, member, rfl⟩ := List.mem_map.mp listed
      obtain ⟨present, close⟩ := moored row member
      rw [alike.moorings] at present
      exact ⟨here, row, present, seen, close, rfl⟩
    · rintro ⟨⟩
  have posted : Hands (InSight base) server _ := Hands.postBounded shown
  unfold sendCellSnapshot
  split <;> rename_i sending <;> rw [sending] at posted
  · exact posted
  · exact posted.trans (.of_sent rfl)

theorem hydratePlayers_inSight (alike : Alike base server) (seen : Beholds base peer here)
    {hydration : CellHydration} (close : hydration.cell.chebyshevDistance here ≤ (base.cfg.aoiRadiusI32 : Int)) :
    Hands (InSight base) server (server.hydratePlayers peer hydration).1 := by
  have found := scanPlayers_found server hydration.cell (server.playerCandidatesAfter
    hydration.playerCursor (min hydration.playersRemaining cellEntityScanPerWork)) {} (by simp)
  unfold hydratePlayers
  simp only
  refine Hands.trans (.of_sent rfl) ?_
  split
  · exact .of_sent rfl
  · refine sendCellSnapshot_inSight seen alike _ _ [] ?_ (by simp)
    intro other listed
    obtain ⟨live, there⟩ := found other listed
    exact ⟨live, _, there, alike.cfg ▸ close⟩

omit [Codec F] in
/-- An empty cell shows nobody. -/
theorem snaps_none (cell : Cell) : InSight base peer (.cellSnapshot cell [] [] [] : ServerMessage F) := by
  constructor
  · rintro snap ⟨⟩
  · rintro snap ⟨⟩
  · rintro snap ⟨⟩
  · rintro - snap ⟨⟩

omit [Platform F] [Codec F] in
theorem mem_page {db : Db F} {cellX cellZ : Int} {cursor : Option Int64} {limit : Nat} {fails : Bool}
    {rows : List (MooringRow F)} {row : MooringRow F}
    (page : attempt fails (db.mooringsInCellAfter cellX cellZ cursor limit) = .ok rows) (member : row ∈ rows) :
    row ∈ db.moorings ∧ ({ cx := row.cellX, cz := row.cellZ } : Cell) = { cx := cellX, cz := cellZ } := by
  have read := attempt_eq_ok page
  unfold Db.mooringsInCellAfter at read
  split at read
  · cases read
    obtain ⟨listed, wanted⟩ := List.mem_filter.mp (List.mem_of_mem_take member)
    simp only [Bool.and_eq_true, decide_eq_true_eq] at wanted
    exact ⟨listed, by rw [wanted.1.1, wanted.1.2]⟩
  · cases read

theorem processOneAoiWork_inSight (work : AoiEffect base server)
    (every : Everyone (Sighted base.cfg.aoiRadiusI32) server) {session : Session F}
    (found : server.sessions.get? peer = some session) (fails : Bool) :
    Hands (InSight base) server (server.processOneAoiWork peer fails).1 := by
  have alike := aoiEffect_alike work
  obtain ⟨tidy, here, place, covers⟩ := every peer session found
  have seen : Beholds base peer here := alike.beholds ⟨session, found, place⟩
  unfold processOneAoiWork
  split <;> rename_i chunking
  · rcases nextAoiChunk_cases found with settled | published
    · rw [settled] at chunking
      cases chunking
    · rw [published] at chunking
      cases chunking
      exact Hands.trans (.of_sent rfl) (.postBounded (inSight_of_topic (by simp [topicOf]) (by simp [topicOf])))
  · rename_i idle
    obtain ⟨same, settled⟩ := nextAoiChunk_none found (congrArg Prod.snd chunking)
    rw [chunking] at same
    rw [show idle = server from same]
    have prepared := aoiEffect_alike (work.trans (prepareCellHydration_effect server peer))
    have silent : (server.prepareCellHydration peer).1.sent = server.sent := by
      unfold prepareCellHydration
      rw [found]
      rfl
    have subscribed : ∀ hydration, (server.prepareCellHydration peer).2 = some hydration →
        hydration.cell.chebyshevDistance here ≤ (base.cfg.aoiRadiusI32 : Int) := by
      intro hydration held
      unfold prepareCellHydration at held
      rw [found] at held
      exact covers _ (prepareHydration_subscribed tidy settled held)
    split <;> rename_i preparing <;> rw [preparing] at prepared silent
    · exact .of_sent silent
    rename_i ready hydration
    have close := subscribed hydration (congrArg Prod.snd preparing)
    refine Hands.trans (.of_sent silent) ?_
    split
    · exact hydratePlayers_inSight prepared seen close
    split
    · exact .of_sent rfl
    · unfold completeHydration
      refine Hands.trans ?_ (.of_sent rfl)
      split
      · exact .of_sent rfl
      · exact .postBounded (snaps_none hydration.cell)
    · rename_i row rest page
      have listed := mem_page page (List.mem_cons_self ..)
      unfold hydrateMooring
      simp only
      refine Hands.trans (.of_sent rfl) ?_
      split
      · refine sendCellSnapshot_inSight seen prepared _ [] [row] (by simp) ?_
        intro own member
        rw [List.mem_singleton.mp member]
        exact ⟨listed.1, by rw [listed.2]; exact close⟩
      · exact .of_sent rfl

/-- The visits of one call leave the next recipient as sighted as it was. -/
theorem processAoiWork_inSight (fails : PeerId → Bool) (every : Everyone (Sighted server.cfg.aoiRadiusI32) server) :
    Hands (InSight server) server (server.processAoiWork fails) := by
  unfold processAoiWork
  simp only
  refine Hands.trans (.of_sent rfl) (Hands.foldl
    (fun middle => AoiEffect server middle ∧ Everyone (Sighted server.cfg.aoiRadiusI32) middle) ?_ _ ?_)
  · rintro middle peer ⟨work, sighted⟩
    refine ⟨?_, work.trans (serveAoiRecipient_effect fails middle peer),
      sighted.serveAoiRecipient (sighted_interest _) fails peer⟩
    have taken : AoiEffect server { middle with aoiRecipients := middle.aoiRecipients.erase peer } :=
      work.trans ⟨rfl, fun _ => rfl, posts_of_sent_eq rfl⟩
    unfold serveAoiRecipient
    refine Hands.trans (.of_sent rfl) ?_
    simp only
    cases found : middle.sessions.get? peer with
    | none => exact .of_sent rfl
    | some session =>
        have shown := processOneAoiWork_inSight taken (sighted.of_sessions rfl) found (fails peer)
        simp only [Option.isNone_some, Bool.false_eq_true, if_false]
        split
        · refine Hands.trans shown (.of_sent ?_)
          unfold scheduleAoi
          split <;> rfl
        · exact shown
  · exact ⟨⟨rfl, fun _ => rfl, posts_of_sent_eq rfl⟩, every.of_sessions rfl⟩

end Cells

/-! Every stage of a run. -/
section Stages
variable {F : Type} [Platform F] [Codec F] {db : Db F} {trace : List (Stage F)} {server : Server F}
  {pending : List Event} {stage : Stage F}

theorem run_sighted (run : Run db trace server pending) : Everyone (Sighted server.cfg.aoiRadiusI32) server := by
  have interest := run_interest run
  intro peer session found
  obtain ⟨here, place, -, center⟩ := run.inv.agree.cells peer session found
  refine ⟨interest.tidy peer session found, here, place, fun cell member => ?_⟩
  rw [(interest.blocks peer session found).cells here center, List.mem_toFinset] at member
  exact (World.mem_cellsInRadius ..).mp member

theorem handled_inSight (run : Run db trace server pending) (moment : Moment) (event : Event) :
    Hands (InSight server) server (server.handleEvent moment event).1 := by
  have outcome := handleEvent_outcome run.inv moment event
  generalize (server.handleEvent moment event).1 = after at outcome ⊢
  cases outcome with
  | calm frame posts kept =>
      refine .of_posts posts fun peer message about => inSight_of_topic ?_ ?_
      · rintro same
        simp [same] at about
      · rintro same
        simp [same] at about
  | moved found motion state cell placed => exact .of_sent rfl
  | spoke found here about captured => exact .of_sent rfl
  | @joined peer bytes base middle numbered player identityHash name generation reply vacant frame posts
      superseded numbering =>
      have greeted := entered_sent peer (withGeneration generation (firstSession server player identityHash name))
        reply superseded numbering
      rw [posts] at greeted
      refine ⟨_, greeted, ?_⟩
      intro post member
      rw [List.mem_singleton.mp member]
      exact inSight_of_topic (by simp [topicOf]) (by simp [topicOf])
  | left found => exact .of_sent rfl

theorem ticked_inSight (run : Run db trace server pending) (tick : Tick) :
    Hands (InSight server) server (tick.run server) := by
  cases tick with
  | aoi fails => exact processAoiWork_inSight fails (run_sighted run)
  | snapshots => exact broadcastSnapshots_inSight server
  | fanout =>
      refine .of_posts ((processFanoutWork_run server).posts (reachable_jobsAbout run.reachable)).1 ?_
      intro peer message about
      apply inSight_of_topic <;> rintro same <;> simp [fanoutTopics, same] at about
  | dirtyFlush fails now =>
      exact .of_posts (processDirtyFlushAt_effect server fails now).posts fun _ _ about => by cases about
  | beginFlush => exact .of_sent rfl
  | clock clockMs => exact .of_sent (congrArg Server.sent (broadcastClock_frame server clockMs) :)

theorem stage_inSight (run : Run db (trace ++ [stage]) server pending) :
    Hands (InSight stage.before) stage.before stage.after := by
  obtain ⟨⟨waiting, earlier⟩, lawful, -⟩ := run.unsnoc
  obtain ⟨before, action, after⟩ := stage
  cases action with
  | poll now script =>
      obtain ⟨state, -, same⟩ := lawful
      exact .of_sent (congrArg Server.sent same :)
  | handle moment event =>
      replace lawful : after = (before.handleEvent moment event).1 := lawful
      rw [lawful]
      exact handled_inSight earlier moment event
  | tick tick =>
      replace lawful : after = tick.run before := lawful
      rw [lawful]
      exact ticked_inSight earlier tick

/-- In every stage of every run, what a datagram shows of other players, their boats and moorings is within the
interest radius of its recipient's cell, and is as it stands at that stage. -/
theorem shown_in_sight (run : Run db trace server pending) {early later : List (Stage F)}
    (split : trace = early ++ stage :: later) :
    ∀ post ∈ stage.posted, InSight stage.before post.1 post.2.payload := by
  rw [split] at run
  obtain ⟨rest, upto⟩ := run.upto
  obtain ⟨posts, grown, sighted⟩ := stage_inSight upto
  rw [Stage.posted_eq grown]
  exact sighted

end Stages

/-! The snapshot that follows the two joins of `joinedServer`. -/

def snappedStage : Stage Int := ⟨joinedServer, .tick .snapshots, Tick.snapshots.run joinedServer⟩

theorem snapped_run : Run emptyDb (joinStages ++ [snappedStage]) (Tick.snapshots.run joinedServer) [] :=
  .tick .snapshots joinStages_run

theorem shown_in_sight_snapped : ∃ post ∈ snappedStage.posted, post.1 = 1 ∧
    (playersShown post.2.payload).map PlayerSnap.playerId = [2] ∧ InSight joinedServer 1 post.2.payload := by
  have shown : snappedStage.posted.map (fun post => (post.1, (playersShown post.2.payload).map PlayerSnap.playerId)) =
      [(1, [2]), (2, [1])] := by decide +kernel
  have first : (1, [2]) ∈ snappedStage.posted.map
      (fun post => (post.1, (playersShown post.2.payload).map PlayerSnap.playerId)) := by simp [shown]
  obtain ⟨post, member, told⟩ := List.mem_map.mp first
  simp only [Prod.mk.injEq] at told
  have sight := shown_in_sight snapped_run (rfl : joinStages ++ [snappedStage] = joinStages ++ snappedStage :: []) post member
  exact ⟨post, member, told.1, told.2, told.1 ▸ sight⟩

/-! Where a pose comes from. -/
section Reports
variable {F : Type} [Platform F]

structure Pose (F : Type) where
  pos : Vec3 F
  rot : Quat F
  vel : Vec3 F
  aboardBoat : UInt64
  tMs : UInt32

def poseOf (session : Session F) : Pose F :=
  ⟨session.pos, session.rot, session.vel, session.aboardBoat, session.tMs⟩

/-- The pose of a session whose client has reported nothing. -/
def spawnPose : Pose F where
  pos := (Platform.zero, Platform.zero, Platform.zero)
  rot := (Platform.zero, Platform.zero, Platform.zero, Platform.one)
  vel := (Platform.zero, Platform.zero, Platform.zero)
  aboardBoat := 0
  tMs := 0

/-- What `state` reports, once sanitized. -/
def reportedPose (motion : Motion F) (state : ClientState F) : Pose F :=
  ⟨motion.pos, motion.rot, motion.vel, state.aboardBoat, state.tMs⟩

/-- Whose session it is and the pose it shows. -/
def bearing (session : Session F) : UInt64 × Pose F := (session.playerId, poseOf session)

variable [Codec F] {server after : Server F} {peer : PeerId} {pending : List Event}

/-- The event of one stage that gave the session of `peer` this pose: its hello, or a state its client sent. -/
inductive Source (server : Server F) (peer : PeerId) (player : UInt64) : Event → Pose F → Prop
  | joined {bytes : WireProtocol.Bytes} {hello : ClientHello} (vacant : server.sessions.get? peer = none)
      (greeting : Codec.decode (F := F) bytes = some (.hello hello)) :
      Source server peer player (.data peer bytes) spawnPose
  | reported {bytes : WireProtocol.Bytes} {state : ClientState F} {motion : Motion F} {session : Session F}
      (found : server.sessions.get? peer = some session) (own : session.playerId = player)
      (report : Codec.decode bytes = some (.state state))
      (sanitized : sanitizeMotion (vec3Of state.pos) (quatOf state.rot) (vec3Of state.vel) = some motion) :
      Source server peer player (.data peer bytes) (reportedPose motion state)

/-- Every session of `after` is one of `server` with the same bearing, unless the event is its source. -/
def Sourced (server : Server F) (event : Event) (after : Server F) : Prop :=
  ∀ peer later, after.sessions.get? peer = some later →
    (∃ session, server.sessions.get? peer = some session ∧ bearing later = bearing session) ∨
      Source server peer later.playerId event (poseOf later)

theorem sourced_same {event : Event} (same : after.sessions = server.sessions) : Sourced server event after := by
  intro peer later found
  rw [same] at found
  exact Or.inl ⟨later, found, rfl⟩

omit [Codec F] in
theorem emitAoi_sessions (server : Server F) (peer : PeerId) (aoi : World.AoiUpdate) :
    (server.emitAoi peer aoi).sessions = server.sessions := by
  unfold emitAoi scheduleAoi
  split
  · rfl
  · split <;> rfl

omit [Codec F] in
theorem onClientState_sessions (moment : Moment) (state : ClientState F) {session : Session F}
    (found : server.sessions.get? peer = some session) :
    (server.onClientState moment peer state).sessions = server.sessions ∨
      ∃ motion sub cell, sanitizeMotion (vec3Of state.pos) (quatOf state.rot) (vec3Of state.vel) = some motion ∧
        (server.onClientState moment peer state).sessions =
          server.sessions.insert peer (movedSession session motion state sub cell) := by
  unfold onClientState
  simp only [found]
  split
  · exact Or.inl rfl
  split
  · exact Or.inl rfl
  · rename_i motion sanitized
    exact Or.inr ⟨motion, _, _, sanitized, emitAoi_sessions _ _ _⟩

theorem onClientState_sourced (moment : Moment) {bytes : WireProtocol.Bytes} {state : ClientState F}
    (report : Codec.decode bytes = some (.state state)) :
    Sourced server (.data peer bytes) (server.onClientState moment peer state) := by
  cases found : server.sessions.get? peer with
  | none =>
      apply sourced_same
      unfold onClientState
      rw [found]
  | some session =>
      rcases onClientState_sessions moment state found with same | ⟨motion, sub, cell, sanitized, moved⟩
      · exact sourced_same same
      · intro other later kept
        rw [moved, FiniteMap.get?_insert] at kept
        split at kept <;> rename_i own
        · cases kept
          rw [own]
          exact Or.inr (.reported found rfl report sanitized)
        · exact Or.inl ⟨later, kept, rfl⟩

theorem onHelloAt_sourced (inv : Inv pending server) (moment : Moment) {bytes : WireProtocol.Bytes}
    {hello : ClientHello} (greeting : Codec.decode (F := F) bytes = some (.hello hello)) :
    Sourced server (.data peer bytes) (server.onHelloAt moment peer hello).1 := by
  have effect : HelloEffect server moment peer hello (server.onHelloAt moment peer hello) :=
    onHelloAt_effect inv moment hello
  generalize server.onHelloAt moment peer hello = handled at effect ⊢
  cases effect with
  | silent charges storage => exact sourced_same (congrArg Server.sessions charges.frame :)
  | answered charges other => exact sourced_same (congrArg Server.sessions charges.frame :)
  | full gated unknown crowded =>
      exact sourced_same (congrArg Server.sessions (Charges.identity gated.presented gated.fresh).frame :)
  | faulted gated admitted fault =>
      exact sourced_same (congrArg Server.sessions (Charges.identity gated.presented gated.fresh).frame :)
  | repeated found greets => exact sourced_same rfl
  | @joined identityHash name ip row db middle numbered generation reply gated admitted consistent superseded
      numbering greets =>
      have based := (enrolled_calm server moment peer ip identityHash row.id.toUInt64 db).1
      have sessions : (enrolled server moment peer ip identityHash row.id.toUInt64 db).sessions = server.sessions :=
        (congrArg Server.sessions based :)
      intro other later kept
      rcases entered_sessions peer _ reply superseded numbering kept with ⟨rfl, rfl⟩ | ⟨-, old, present, -, same⟩
      · exact Or.inr (.joined gated.presented.vacant greeting)
      · rw [sessions] at present
        exact Or.inl ⟨old, present, (congrArg bearing same :)⟩

theorem queueChat_sessions (server : Server F) (envelope : Envelope F) (cell : Cell) :
    (server.queueChat envelope cell).sessions = server.sessions := by
  unfold queueChat
  split
  · rfl
  · rcases captureFanoutRecipients_spec server with nobody | ⟨audience, nextAudience, -, captured⟩
    · simp only [nobody]
    · simp only [captured]

theorem onChat_sessions (moment : Moment) (chat : ChatSend) :
    (server.onChat moment peer chat).sessions = server.sessions := by
  unfold onChat
  split
  · rfl
  split
  · rfl
  simp only
  split
  · rfl
  split
  · rfl
  split
  · rfl
  · exact queueChat_sessions _ _ _

theorem handleDataAt_sourced (inv : Inv pending server) (moment : Moment) (bytes : WireProtocol.Bytes) :
    Sourced server (.data peer bytes) (server.handleDataAt moment peer bytes).1 := by
  have served : ∀ {handled : Server F}, (server.sessions.get? peer = none → handled = server) →
      (∀ session, server.sessions.get? peer = some session → Served server session handled) →
      Sourced server (.data peer bytes) handled := by
    intro handled absent present
    cases found : server.sessions.get? peer with
    | none => exact sourced_same (congrArg Server.sessions (absent found))
    | some session => exact sourced_same (congrArg Server.sessions (present session found).frame :)
  unfold handleDataAt
  split
  · exact sourced_same rfl
  · rename_i hello greeting
    exact onHelloAt_sourced inv moment greeting
  · rename_i state report
    exact onClientState_sourced moment report
  · rename_i txn _
    exact served (fun vacant => by simp [onEcon, vacant]) fun _ found => onEcon_served moment txn found
  · rename_i request _
    exact served (fun vacant => by simp [onTrade, vacant]) fun _ found => onTrade_served moment request found
  · rename_i request _
    exact served (fun vacant => by simp [onMoor, vacant]) fun _ found => onMoor_served moment request found
  · exact sourced_same (onChat_sessions moment _)

theorem handleEvent_sourced (inv : Inv pending server) (moment : Moment) (event : Event) :
    Sourced server event (server.handleEvent moment event).1 := by
  cases event with
  | connected peer => exact sourced_same rfl
  | data peer bytes => exact handleDataAt_sourced inv moment bytes
  | disconnected peer reason =>
      have outcome := handleEvent_outcome inv moment (.disconnected peer reason)
      generalize (server.handleEvent moment (.disconnected peer reason)).1 = after at outcome ⊢
      cases outcome with
      | calm frame posts kept => exact sourced_same (congrArg Server.sessions frame :)
      | left found =>
          intro other later kept
          simp only [departed, dropped, FiniteMap.get?_erase] at kept
          split at kept
          · cases kept
          · exact Or.inl ⟨later, kept, rfl⟩

/-- The fixed-tick work leaves every session its bearing. -/
theorem tick_bearing (tick : Tick) {later : Session F} (found : (tick.run server).sessions.get? peer = some later) :
    ∃ session, server.sessions.get? peer = some session ∧ bearing later = bearing session := by
  have touched : ∀ {rest : Server F → Server F} {view : Session F → Session F} {topics : List Topic}
      {after : Server F}, Touches rest view topics server after →
      (∀ session, bearing (view session) = bearing session) → after.sessions.get? peer = some later →
      ∃ session, server.sessions.get? peer = some session ∧ bearing later = bearing session := by
    intro rest view topics after work seen present
    have same := work.sessions peer
    rw [present, Option.map_some, eq_comm, Option.map_eq_some_iff] at same
    obtain ⟨session, held, viewed⟩ := same
    exact ⟨session, held, by rw [← seen later, ← viewed, seen]⟩
  have kept : ∀ {after : Server F}, after.sessions = server.sessions → after.sessions.get? peer = some later →
      ∃ session, server.sessions.get? peer = some session ∧ bearing later = bearing session := by
    intro after same present
    exact ⟨later, same ▸ present, rfl⟩
  cases tick with
  | aoi fails => exact touched (processAoiWork_effect server fails) (fun _ => rfl) found
  | snapshots => exact touched (broadcastSnapshots_effect server) (fun _ => rfl) found
  | fanout => exact kept (congrArg Server.sessions (processFanoutWork_run server).frame :) found
  | dirtyFlush fails now =>
      exact touched (processDirtyFlushAt_effect server fails now).toTouches (fun _ => rfl) found
  | beginFlush => exact kept rfl found
  | clock clockMs => exact kept (congrArg Server.sessions (broadcastClock_frame server clockMs) :) found

end Reports

/-! The source of each pose, over a run. -/
section Sources
variable {F : Type} [Platform F] [Codec F] {db : Db F} {trace : List (Stage F)} {server : Server F}
  {pending : List Event} {stage : Stage F} {peer : PeerId} {session : Session F}

/-- The stage at which the session of `peer` got its pose, and that it has shown it ever since. -/
def Standing (trace : List (Stage F)) (peer : PeerId) (session : Session F) : Prop :=
  ∃ early stage later moment event, trace = early ++ stage :: later ∧ stage.action = .handle moment event ∧
    Source stage.before peer session.playerId event (poseOf session) ∧
    ∀ since ∈ later, ∃ held, since.before.sessions.get? peer = some held ∧ bearing held = bearing session

theorem Standing.kept {before : Session F} (standing : Standing trace peer before)
    (found : stage.before.sessions.get? peer = some before) (same : bearing session = bearing before) :
    Standing (trace ++ [stage]) peer session := by
  obtain ⟨early, source, later, moment, event, rfl, action, given, since⟩ := standing
  simp only [bearing, Prod.mk.injEq] at same
  refine ⟨early, source, later ++ [stage], moment, event, by simp, action, ?_, ?_⟩
  · rw [same.1, same.2]
    exact given
  · intro between member
    have own : bearing session = bearing before := by simp only [bearing, same.1, same.2]
    rw [own]
    rcases List.mem_append.mp member with old | new
    · exact since between old
    · rw [List.mem_singleton.mp new]
      exact ⟨before, found, rfl⟩

/-- Every session has a standing. -/
theorem run_standing (run : Run db trace server pending) (found : server.sessions.get? peer = some session) :
    Standing trace peer session := by
  induction run generalizing session with
  | start opened =>
      obtain ⟨identityPlayers, -, rfl⟩ := new_opened opened
      simp [Server.opened] at found
  | poll now script run polled ih => exact (ih found).kept found rfl
  | @handle trace server event pending moment run ih =>
      rcases handleEvent_sourced run.inv moment event peer session found with ⟨before, present, same⟩ | source
      · exact (ih present).kept present same
      · exact ⟨trace, _, [], moment, event, rfl, rfl, source, by simp⟩
  | tick tick run ih =>
      obtain ⟨before, present, same⟩ := tick_bearing tick found
      exact (ih present).kept present same

/-- Of `recipient` and of a session that stands as its own client reported, each in sight of the other. -/
structure Sighting (trace : List (Stage F)) (stage : Stage F) (recipient : PeerId) (session : Session F) : Prop where
  near : ∃ here, Beholds stage.before recipient here ∧ Near stage.before here session
  standing : ∃ peer, stage.before.sessions.get? peer = some session ∧ Standing trace peer session

theorem stage_sightings (run : Run db trace server pending) {early later : List (Stage F)}
    (split : trace = early ++ stage :: later) : ∀ post ∈ stage.posted,
      (∀ snap ∈ playersShown post.2.payload, ∃ session, Sighting early stage post.1 session ∧
        snap = playerSnap session) ∧
      ∀ snap ∈ boatsShown post.2.payload, ∃ session, Sighting early stage post.1 session ∧
        session.aboardBoat ≠ 0 ∧ snap = boatSnap session := by
  rw [split] at run
  obtain ⟨rest, upto⟩ := run.upto
  obtain ⟨⟨waiting, earlier⟩, -, -⟩ := upto.unsnoc
  obtain ⟨posts, grown, sighted⟩ := stage_inSight upto
  rw [Stage.posted_eq grown]
  intro post member
  have sight := sighted post member
  constructor
  · intro snap shown
    obtain ⟨here, other, seen, near, same⟩ := sight.players snap shown
    obtain ⟨peer, live⟩ := near.live
    exact ⟨other, ⟨⟨here, seen, near⟩, peer, live, run_standing earlier live⟩, same⟩
  · intro snap shown
    obtain ⟨here, other, seen, near, aboard, same⟩ := sight.boats snap shown
    obtain ⟨peer, live⟩ := near.live
    exact ⟨other, ⟨⟨here, seen, near⟩, peer, live, run_standing earlier live⟩, aboard, same⟩

/-- Whoever a datagram shows, it shows in the pose its own client last reported, or at the spawn when it has reported
nothing, over the connection that has held its session ever since. -/
theorem shown_as_reported (run : Run db trace server pending) {early later : List (Stage F)}
    (split : trace = early ++ stage :: later) : ∀ post ∈ stage.posted,
      (∀ snap ∈ playersShown post.2.payload, ∃ peer session, stage.before.sessions.get? peer = some session ∧
        Standing early peer session ∧ snap = playerSnap session) ∧
      ∀ snap ∈ boatsShown post.2.payload, ∃ peer session, stage.before.sessions.get? peer = some session ∧
        Standing early peer session ∧ session.aboardBoat ≠ 0 ∧ snap = boatSnap session := by
  intro post member
  obtain ⟨players, boats⟩ := stage_sightings run split post member
  constructor
  · intro snap shown
    obtain ⟨session, ⟨-, peer, live, standing⟩, same⟩ := players snap shown
    exact ⟨peer, session, live, standing, same⟩
  · intro snap shown
    obtain ⟨session, ⟨-, peer, live, standing⟩, aboard, same⟩ := boats snap shown
    exact ⟨peer, session, live, standing, aboard, same⟩

end Sources

theorem shown_as_reported_snapped : ∃ post ∈ snappedStage.posted, post.1 = 1 ∧
    ∃ snap ∈ playersShown post.2.payload, ∃ peer session, joinedServer.sessions.get? peer = some session ∧
      Standing joinStages peer session ∧ snap = playerSnap session := by
  have shown : snappedStage.posted.map (fun post => (post.1, (playersShown post.2.payload).length)) =
      [(1, 1), (2, 1)] := by decide +kernel
  have first : (1, 1) ∈ snappedStage.posted.map
      (fun post => (post.1, (playersShown post.2.payload).length)) := by simp [shown]
  obtain ⟨post, member, told⟩ := List.mem_map.mp first
  simp only [Prod.mk.injEq] at told
  obtain ⟨snap, only⟩ := List.length_eq_one_iff.mp told.2
  have listed : snap ∈ playersShown post.2.payload := by simp [only]
  have reported := shown_as_reported snapped_run
    (rfl : joinStages ++ [snappedStage] = joinStages ++ snappedStage :: []) post member
  exact ⟨post, member, told.1, snap, listed, reported.1 snap listed⟩

end SailwindOnline.Disclosure
