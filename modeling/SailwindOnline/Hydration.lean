import SailwindOnline.CursorScan
import SailwindOnline.Interest

/-!
Hydration of a cell for one recipient, as a counted walk over the players. Every
stage of a run moves the recipient's hydration by at most one visit of that walk;
joins and departures change the order it walks over in between.
-/

namespace SailwindOnline.Hydration
open World (Cell)
open OrderedSet CursorScan Server SessionIndex SessionRuns Effects TickEffects Traces Interest

section Telling
variable {F : Type}

def playersIn (cell : Cell) (envelope : Envelope F) : List UInt64 :=
  match envelope.payload with
  | .cellSnapshot place players _ _ => if place = cell then players.map PlayerSnap.playerId else []
  | _ => []

/-- The players that datagrams to `peer` describe as inside `cell`. -/
def playersTo (peer : PeerId) (cell : Cell) (posts : List (PeerId × Envelope F)) : List UInt64 :=
  posts.flatMap fun post => if post.1 = peer then playersIn cell post.2 else []

theorem playersTo_other_topics {peer : PeerId} {cell : Cell} {posts : List (PeerId × Envelope F)}
    (others : ∀ post ∈ posts, topicOf post.2.payload ≠ .cell) : playersTo peer cell posts = [] := by
  rw [playersTo, List.flatMap_eq_nil_iff]
  intro post member
  split
  · unfold playersIn
    split <;> rename_i payload
    · exact absurd (by rw [payload]; rfl) (others post member)
    · rfl
  · rfl

theorem playersTo_other_peers {peer : PeerId} {cell : Cell} {posts : List (PeerId × Envelope F)}
    (others : ∀ post ∈ posts, post.1 ≠ peer) : playersTo peer cell posts = [] := by
  rw [playersTo, List.flatMap_eq_nil_iff]
  intro post member
  exact if_neg (others post member)

theorem playersTo_append (peer : PeerId) (cell : Cell) (early late : List (PeerId × Envelope F)) :
    playersTo peer cell (early ++ late) = playersTo peer cell early ++ playersTo peer cell late :=
  List.flatMap_append

end Telling

/-! Scans. -/
section Scans
variable {F : Type} [Platform F] {server after : Server F}

def houses (server : Server F) (cell : Cell) (player : UInt64) : Bool :=
  decide ((server.sessionByPlayer player).bind Session.cell = some cell)

theorem houses_of_keeps (keeps : KeepsIndex server after) (cell : Cell) (player : UInt64) :
    houses after cell player = houses server cell player := by
  rw [houses, cell_of_keeps keeps, houses]

theorem sessionByPlayer_own {player : UInt64} {session : Session F}
    (found : server.sessionByPlayer player = some session) : session.playerId = player := by
  unfold sessionByPlayer at found
  split at found
  · cases found
  · split at found
    · cases found
    · split at found <;> rename_i own
      · cases found
        exact own
      · cases found

/-- A scan looks at some first of its candidates and finds those of them that are in the cell. -/
structure Scanned (server : Server F) (cell : Cell) (candidates : List UInt64) (scan result : PlayerScan F)
    (taken : List UInt64) : Prop where
  walked : taken <+: candidates
  some : candidates ≠ [] → taken ≠ []
  examined : result.examined = scan.examined + taken.length
  last : result.lastExamined = taken.getLast?.or scan.lastExamined
  found : result.found.map Session.playerId =
    scan.found.map Session.playerId ++ taken.filter (houses server cell)
  few : result.found.length ≤ cellEntitiesPerPacket

theorem scanPlayers_scanned (server : Server F) (cell : Cell) (candidates : List UInt64) (scan : PlayerScan F)
    (few : scan.found.length < cellEntitiesPerPacket) :
    ∃ taken, Scanned server cell candidates scan (scanPlayers server cell candidates scan) taken := by
  induction candidates generalizing scan with
  | nil => exact ⟨[], List.prefix_rfl, id, rfl, rfl, by simp [scanPlayers], few.le⟩
  | cons player rest ih =>
      have skip : ∀ (next : PlayerScan F), next.examined = scan.examined + 1 → next.lastExamined = some player →
          next.found.map Session.playerId = scan.found.map Session.playerId ++ [player].filter (houses server cell) →
          next.found.length < cellEntitiesPerPacket →
          ∃ taken, Scanned server cell (player :: rest) scan (scanPlayers server cell rest next) taken := by
        intro next examined last found small
        obtain ⟨taken, inner⟩ := ih next small
        refine ⟨player :: taken, List.cons_prefix_cons.mpr ⟨rfl, inner.walked⟩, by simp, ?_, ?_, ?_, inner.few⟩
        · rw [inner.examined, examined, List.length_cons]
          omega
        · rw [inner.last, last]
          rw [List.getLast?_cons]
          cases taken.getLast? <;> rfl
        · rw [inner.found, found, List.append_assoc, ← List.filter_append]
          rfl
      unfold scanPlayers
      simp only
      split <;> rename_i lookup
      · refine skip _ rfl rfl ?_ few
        simp [houses, lookup]
      · rename_i session
        split <;> rename_i elsewhere
        · refine skip _ rfl rfl ?_ few
          simp [houses, lookup, elsewhere]
        · rw [not_not] at elsewhere
          have here : houses server cell player = true := by simp [houses, lookup, elsewhere]
          have own := sessionByPlayer_own lookup
          have grown : (scan.found ++ [session]).length = scan.found.length + 1 := by simp
          split <;> rename_i full
          · refine ⟨[player], ⟨rest, rfl⟩, by simp, rfl, rfl, ?_, full.le⟩
            simp [here, own]
          · refine skip _ rfl rfl ?_ ?_
            · simp [here, own]
            · simp only [grown] at full ⊢
              omega

end Scans

/-! Visits. -/
section Visits
variable {F : Type} [Platform F] {server middle after : Server F} {peer : PeerId} {session : Session F}

/-- New datagrams tell `peer` of the players `told` for each cell. -/
def Tells (peer : PeerId) (server after : Server F) (told : Cell → List UInt64) : Prop :=
  ∃ posts, after.sent = server.sent ++ posts ∧ ∀ cell, playersTo peer cell posts = told cell

theorem Tells.of_sent_eq (same : after.sent = server.sent) : Tells peer server after fun _ => [] :=
  ⟨[], by simp [same], fun _ => rfl⟩

theorem Tells.trans {early late : Cell → List UInt64} (first : Tells peer server middle early)
    (second : Tells peer middle after late) : Tells peer server after fun cell => early cell ++ late cell := by
  obtain ⟨posts, grown, told⟩ := first
  obtain ⟨more, grownAgain, toldAgain⟩ := second
  refine ⟨posts ++ more, by rw [grownAgain, grown, List.append_assoc], fun cell => ?_⟩
  rw [playersTo_append, told, toldAgain]

theorem Tells.congr {told other : Cell → List UInt64} (tells : Tells peer server after told)
    (same : told = other) : Tells peer server after other := same ▸ tells

/-- The walk a hydration makes. -/
def scanOf (hydration : CellHydration) : Scan UInt64 := ⟨hydration.playerCursor, hydration.playersRemaining⟩

def progressOf (hydration : CellHydration) : Cell × Scan UInt64 × Bool :=
  (hydration.cell, scanOf hydration, hydration.playersComplete)

/-- The hydration a visit works on: the one in progress, or one that starts now. -/
inductive Prepared (server : Server F) (session : Session F) : CellHydration → Prop
  | standing {hydration : CellHydration} (active : session.activeHydration = some hydration) :
      Prepared server session hydration
  | fresh {hydration : CellHydration} (idle : session.activeHydration = none)
      (scan : scanOf hydration = Scan.start server.playerOrder) : Prepared server session hydration

/-- What one stage does to the hydration of a session, and the players it tells of. -/
inductive HydrationStep (server : Server F) (session later : Session F) (told : Cell → List UInt64) : Prop
  | rests (same : later.activeHydration.map progressOf = session.activeHydration.map progressOf)
      (silent : ∀ cell, told cell = [])
  | ends {hydration : CellHydration} (active : session.activeHydration = some hydration)
      (finished : hydration.playersComplete = true ∨ hydration.cell ∉ later.publishedCells)
      (idle : later.activeHydration = none) (silent : ∀ cell, told cell = [])
  | visits {hydration : CellHydration} {taken : List UInt64} (prepared : Prepared server session hydration)
      (walked : taken <+: circle server.playerOrder hydration.playerCursor)
      (some : hydration.playersRemaining ≠ 0 → taken ≠ [])
      (moved : later.activeHydration.map progressOf = .some (hydration.cell, (scanOf hydration).past taken,
        decide (((scanOf hydration).past taken).remaining = 0 ∨ taken = [])))
      (tells : told hydration.cell = taken.filter (houses server hydration.cell))

theorem settled_published (found : server.sessions.get? peer = some session)
    (settled : server.nextAoiChunk peer = (server, none)) : session.publishedCells = session.sub.cells := by
  unfold nextAoiChunk at settled
  simp only [found] at settled
  split at settled <;> rename_i nothing
  · have empty : ∀ (cells : Finset Cell) (limit : Nat), 0 < limit →
        (ascending cells).take limit = [] → cells = ∅ := by
      intro cells limit positive none
      rw [List.take_eq_nil_iff] at none
      have listed := none.resolve_left (Nat.ne_of_gt positive)
      rw [← Finset.card_eq_zero, ← ascending_length, listed, List.length_nil]
    simp only [aoiChunk, Bool.and_eq_true, List.isEmpty_iff] at nothing
    obtain ⟨added, removed⟩ := nothing
    have stale := empty _ _ (by decide) removed
    rw [removed] at added
    have missing := empty _ _ (by decide) added
    exact Finset.Subset.antisymm (Finset.sdiff_eq_empty_iff_subset.mp stale)
      (Finset.sdiff_eq_empty_iff_subset.mp missing)
  · cases congrArg Prod.snd settled

/-- A chunk of updates abandons the hydration of a cell that it removes. -/
theorem applyAoiChunk_step (server : Server F) (session : Session F) :
    HydrationStep server session (applyAoiChunk session (aoiChunk session)) fun _ => [] := by
  cases active : session.activeHydration with
  | none =>
      refine .rests ?_ fun _ => rfl
      simp [applyAoiChunk, active]
  | some hydration =>
      by_cases removed : hydration.cell ∈ (aoiChunk session).removed
      · refine .ends active (Or.inr ?_) ?_ fun _ => rfl
        · have stale := (mem_ascending _ _).mp (List.mem_of_mem_take removed)
          rw [Finset.mem_sdiff] at stale
          have absent : hydration.cell ∉ (aoiChunk session).added := by
            intro added
            have wanted := (mem_ascending _ _).mp (List.mem_of_mem_take added)
            exact stale.2 (Finset.mem_sdiff.mp wanted).1
          simp [applyAoiChunk, removed, absent]
        · simp [applyAoiChunk, active, removed]
      · refine .rests ?_ fun _ => rfl
        simp [applyAoiChunk, active, removed]

structure Begun (server : Server F) (session prepared : Session F) (hydration : CellHydration) : Prop where
  active : prepared.activeHydration = some hydration
  published : prepared.publishedCells = session.publishedCells
  prepared : Prepared server session hydration
  fresh : session.activeHydration = none → hydration.playersComplete = decide (server.playerOrder.card = 0)

omit [Platform F] in
/-- What is published is what is wanted, so a hydration in progress stands. -/
theorem standing_settled (tidy : Tidy session) (published : session.publishedCells = session.sub.cells)
    {hydration : CellHydration} (active : session.activeHydration = some hydration) :
    standingHydration session = some hydration := by
  have held := (tidy.active hydration active).1
  have wanted : session.sub.contains hydration.cell = true := by
    rw [published] at held
    simpa [World.Subscription.contains] using held
  simp [standingHydration, active, wanted, held]

theorem prepareCellHydration_cases (found : server.sessions.get? peer = some session) (tidy : Tidy session)
    (published : session.publishedCells = session.sub.cells) :
    ∃ prepared, (server.prepareCellHydration peer).1.sessions.get? peer = some prepared ∧
      (server.prepareCellHydration peer).1.sent = server.sent ∧
      (((server.prepareCellHydration peer).2 = none ∧ session.activeHydration = none ∧
          prepared.activeHydration = none) ∨
        ∃ hydration, (server.prepareCellHydration peer).2 = some hydration ∧
          Begun server session prepared hydration) := by
  unfold prepareCellHydration
  simp only [found, modifySession, FiniteMap.get?_modify, if_true, Option.map_some]
  refine ⟨_, rfl, trivial, ?_⟩
  cases active : session.activeHydration with
  | some hydration =>
      right
      simp only [prepareHydration, standing_settled tidy published active]
      exact ⟨hydration, rfl, rfl, rfl, .standing active, fun idle => by simp [active] at idle⟩
  | none =>
      have standing : standingHydration session = none := by simp [standingHydration, active]
      simp only [prepareHydration, standing]
      cases nextHydrationCell session.hydrationCells session.hydrationCursor with
      | none => exact Or.inl ⟨rfl, trivial, rfl⟩
      | some cell => exact Or.inr ⟨_, rfl, rfl, rfl, .fresh active rfl, fun _ => rfl⟩

theorem get?_modifyHydration (found : server.sessions.get? peer = some session)
    (change : CellHydration → CellHydration) :
    (server.modifyHydration peer change).sessions.get? peer =
      some { session with activeHydration := session.activeHydration.map change } := by
  simp [modifyHydration, modifySession, FiniteMap.get?_modify, found]

variable [Codec F]

/-- Assumed of the codec: a snapshot of as many players as one visit finds fits one datagram. -/
def CellSnapshotsFit (F : Type) [Codec F] : Prop :=
  ∀ seq cell (players : List (PlayerSnap F)) (boats : List (BoatSnap F)),
    players.length ≤ cellEntitiesPerPacket → boats.length ≤ cellEntitiesPerPacket →
    (Codec.encode ({ seq, payload := .cellSnapshot cell players boats [] } : Envelope F)).length ≤ payloadLimit

theorem postBounded_tells (server : Server F) (peer : PeerId) (payload : ServerMessage F)
    (fit : (Codec.encode ({ seq := server.seq + 1, payload } : Envelope F)).length ≤ payloadLimit ∨
      ∀ cell, playersIn cell ⟨server.seq + 1, payload⟩ = []) :
    Tells peer server (server.postBounded peer payload).1 fun cell => playersIn cell ⟨server.seq + 1, payload⟩ := by
  unfold postBounded
  split <;> rename_i large
  · have silent := fit.resolve_left (not_le.mpr large)
    exact ⟨[], by simp, fun cell => (silent cell).symm⟩
  · refine ⟨_, rfl, fun cell => ?_⟩
    simp [playersTo]

theorem postBounded_sessions (server : Server F) (peer : PeerId) (payload : ServerMessage F) :
    (server.postBounded peer payload).1.sessions = server.sessions := by
  unfold postBounded
  split <;> rfl

theorem sendCellSnapshot_hydration (found : server.sessions.get? peer = some session) (cell : Cell)
    (sessions : List (Session F)) (moorings : List (MooringSnap F)) :
    ∃ later, (server.sendCellSnapshot peer cell sessions moorings).sessions.get? peer = some later ∧
      later.activeHydration.map progressOf = session.activeHydration.map progressOf := by
  have kept := postBounded_sessions server peer
    (.cellSnapshot cell (playerSnaps sessions) (boatSnaps sessions) moorings)
  unfold sendCellSnapshot
  split <;> rename_i sending <;> rw [sending] at kept
  · exact ⟨session, (congrArg (fun table => table.get? peer) kept).trans found, rfl⟩
  · have present := (congrArg (fun table => table.get? peer) kept).trans found
    refine ⟨_, get?_modifyHydration present _, ?_⟩
    rw [Option.map_map]
    rfl

theorem sendCellSnapshot_tells (server : Server F) (peer : PeerId) (cell : Cell) (sessions : List (Session F))
    (moorings : List (MooringSnap F))
    (fit : sessions = [] ∨ (Codec.encode (⟨server.seq + 1,
      .cellSnapshot cell (playerSnaps sessions) (boatSnaps sessions) moorings⟩ : Envelope F)).length ≤ payloadLimit) :
    Tells peer server (server.sendCellSnapshot peer cell sessions moorings) fun place =>
      if cell = place then sessions.map Session.playerId else [] := by
  have posted := postBounded_tells server peer
    (.cellSnapshot cell (playerSnaps sessions) (boatSnaps sessions) moorings) (by
      rcases fit with empty | fits
      · refine Or.inr fun place => ?_
        simp [playersIn, empty, playerSnaps]
      · exact Or.inl fits)
  have told : (fun place => playersIn place ⟨server.seq + 1,
      .cellSnapshot cell (playerSnaps sessions) (boatSnaps sessions) moorings⟩) = fun place =>
      if cell = place then sessions.map Session.playerId else [] := by
    funext place
    simp only [playersIn, playerSnaps, List.map_map]
    rfl
  rw [told] at posted
  unfold sendCellSnapshot
  split <;> rename_i sending <;> rw [sending] at posted
  · exact posted
  · obtain ⟨posts, grown, about⟩ := posted
    exact ⟨posts, grown, about⟩

/-- The scan of one visit: it takes the next players of the walk, at most as many as remain. -/
structure Surveyed (server : Server F) (hydration : CellHydration) (scan : PlayerScan F) (taken : List UInt64) :
    Prop where
  walked : taken <+: circle server.playerOrder hydration.playerCursor
  within : taken.length ≤ hydration.playersRemaining
  some : hydration.playersRemaining ≠ 0 → server.playerOrder.Nonempty → taken ≠ []
  examined : scan.examined = taken.length
  last : scan.lastExamined = taken.getLast?
  told : scan.found.map Session.playerId = taken.filter (houses server hydration.cell)
  players : (playerSnaps scan.found).length ≤ cellEntitiesPerPacket
  boats : (boatSnaps scan.found).length ≤ cellEntitiesPerPacket

omit [Codec F] in
theorem scanPlayers_surveyed (server : Server F) (hydration : CellHydration) :
    ∃ taken, Surveyed server hydration (scanPlayers server hydration.cell (server.playerCandidatesAfter
      hydration.playerCursor (min hydration.playersRemaining cellEntityScanPerWork)) {}) taken := by
  have walk : server.playerCandidatesAfter hydration.playerCursor
      (min hydration.playersRemaining cellEntityScanPerWork) =
      (circle server.playerOrder hydration.playerCursor).take
        (min (min hydration.playersRemaining cellEntityScanPerWork) server.playerOrder.card) :=
    orderedAfter_eq_take _ _ _
  obtain ⟨taken, scanned⟩ := scanPlayers_scanned server hydration.cell
    (server.playerCandidatesAfter hydration.playerCursor (min hydration.playersRemaining cellEntityScanPerWork)) {}
    (show 0 < cellEntitiesPerPacket by decide)
  refine ⟨taken, ?_⟩
  have short := scanned.walked.length_le
  rw [walk, List.length_take] at short
  constructor
  · refine scanned.walked.trans ?_
    rw [walk]
    exact List.take_prefix _ _
  · omega
  · intro remaining inhabited
    apply scanned.some
    rw [walk]
    intro none
    have length := congrArg List.length none
    have peopled := Finset.card_pos.mpr inhabited
    rw [List.length_take, circle_length, List.length_nil] at length
    unfold cellEntityScanPerWork at length
    omega
  · simpa using scanned.examined
  · simpa using scanned.last
  · exact scanned.found
  · simpa [playerSnaps] using scanned.few
  · rw [boatSnaps, List.length_map]
    exact (List.length_filter_le _ _).trans scanned.few

/-- A visit that scans sends the players it found. -/
theorem hydratePlayers_step (fits : CellSnapshotsFit F) {hydration : CellHydration}
    (found : server.sessions.get? peer = some session) (active : session.activeHydration = some hydration)
    (unfinished : hydration.playersComplete = false) (inhabited : 0 < server.playerOrder.card) :
    ∃ later taken, (server.hydratePlayers peer hydration).1.sessions.get? peer = some later ∧
      Tells peer server (server.hydratePlayers peer hydration).1 (fun cell =>
        if hydration.cell = cell then taken.filter (houses server hydration.cell) else []) ∧
      taken <+: circle server.playerOrder hydration.playerCursor ∧
      (hydration.playersRemaining ≠ 0 → taken ≠ []) ∧
      later.activeHydration.map progressOf = some (hydration.cell, (scanOf hydration).past taken,
        decide (((scanOf hydration).past taken).remaining = 0 ∨ taken = [])) := by
  obtain ⟨taken, surveyed⟩ := scanPlayers_surveyed server hydration
  unfold hydratePlayers
  simp only
  generalize scanPlayers server hydration.cell (server.playerCandidatesAfter hydration.playerCursor
    (min hydration.playersRemaining cellEntityScanPerWork)) {} = scan at surveyed ⊢
  have recorded := get?_modifyHydration found fun hydration => recordScan hydration scan
  have told := surveyed.told
  have moved : (session.activeHydration.map fun hydration => recordScan hydration scan).map progressOf =
      some (hydration.cell, (scanOf hydration).past taken,
        decide (((scanOf hydration).past taken).remaining = 0 ∨ taken = [])) := by
    have complete : decide (hydration.playersRemaining - scan.examined = 0 ∨ scan.examined = 0) =
        decide (((scanOf hydration).past taken).remaining = 0 ∨ taken = []) := by
      rw [surveyed.examined, decide_eq_decide, List.length_eq_zero_iff]
      exact Iff.rfl
    rw [active, Option.map_some, Option.map_some, ← complete]
    simp only [progressOf, scanOf, recordScan, Scan.past, unfinished, Bool.false_or, surveyed.last,
      surveyed.examined]
  have some : hydration.playersRemaining ≠ 0 → taken ≠ [] := fun remaining =>
    surveyed.some remaining (Finset.card_pos.mp inhabited)
  split <;> rename_i nothing
  · refine ⟨_, taken, recorded, ?_, surveyed.walked, some, moved⟩
    rw [List.isEmpty_iff] at nothing
    rw [← told, nothing]
    exact Tells.congr (.of_sent_eq rfl) (by simp)
  · obtain ⟨later, kept, same⟩ := sendCellSnapshot_hydration recorded hydration.cell scan.found []
    refine ⟨later, taken, kept, ?_, surveyed.walked, some, same.trans moved⟩
    rw [← told]
    exact sendCellSnapshot_tells _ peer hydration.cell scan.found []
      (Or.inr (fits _ _ _ _ surveyed.players surveyed.boats))

theorem completeHydration_step (found : server.sessions.get? peer = some session) (hydration : CellHydration) :
    ∃ later, (server.completeHydration peer hydration).1.sessions.get? peer = some later ∧
      later.activeHydration = none ∧ Tells peer server (server.completeHydration peer hydration).1 fun _ => [] := by
  unfold completeHydration
  split
  · refine ⟨{ session with activeHydration := none }, ?_, rfl, .of_sent_eq rfl⟩
    simp [modifySession, FiniteMap.get?_modify, found]
  · obtain ⟨posts, grown, told⟩ := postBounded_tells server peer (.cellSnapshot hydration.cell [] [] [])
      (Or.inr fun cell => by simp [playersIn])
    refine ⟨{ session with activeHydration := none }, ?_, rfl, posts, grown, fun cell => ?_⟩
    · simp [modifySession, FiniteMap.get?_modify, postBounded_sessions, found]
    · rw [told]
      simp [playersIn]

theorem hydrateMooring_step (found : server.sessions.get? peer = some session) (hydration : CellHydration)
    (row : Persistence.MooringRow F) :
    ∃ later, (server.hydrateMooring peer hydration row).sessions.get? peer = some later ∧
      later.activeHydration.map progressOf = session.activeHydration.map progressOf ∧
      Tells peer server (server.hydrateMooring peer hydration row) fun _ => [] := by
  have marked := get?_modifyHydration found fun hydration => { hydration with mooringCursor := some row.boatId }
  have same : (session.activeHydration.map fun hydration => { hydration with mooringCursor := some row.boatId }).map
      progressOf = session.activeHydration.map progressOf := by
    rw [Option.map_map]
    rfl
  unfold hydrateMooring
  simp only
  split
  · obtain ⟨later, kept, still⟩ := sendCellSnapshot_hydration marked hydration.cell [] [mooringSnap row]
    refine ⟨later, kept, still.trans same, ?_⟩
    have tells := sendCellSnapshot_tells (server.modifyHydration peer fun hydration =>
      { hydration with mooringCursor := some row.boatId }) peer hydration.cell [] [mooringSnap row] (Or.inl rfl)
    exact Tells.congr tells (by simp)
  · exact ⟨_, marked, same, .of_sent_eq rfl⟩

/-- One visit of the interest scheduler moves the hydration of its recipient by one step. -/
theorem processOneAoiWork_step (fits : CellSnapshotsFit F) (found : server.sessions.get? peer = some session)
    (tidy : Tidy session) (inhabited : 0 < server.playerOrder.card) (fails : Bool) :
    ∃ later told, (server.processOneAoiWork peer fails).1.sessions.get? peer = some later ∧
      Tells peer server (server.processOneAoiWork peer fails).1 told ∧ HydrationStep server session later told := by
  rcases nextAoiChunk_cases found with settled | chunking
  · have published := settled_published found settled
    obtain ⟨prepared, present, sent, cases⟩ := prepareCellHydration_cases found tidy published
    have keeps := keeps_prepareCellHydration server peer
    unfold processOneAoiWork
    simp only [settled]
    generalize server.prepareCellHydration peer = preparation at present sent cases keeps ⊢
    obtain ⟨middle, hydrating⟩ := preparation
    simp only at present sent cases keeps
    have unsent : ∀ (after : Server F) told, Tells peer middle after told → Tells peer server after told := by
      rintro after told ⟨posts, grown, about⟩
      exact ⟨posts, by rw [grown, sent], about⟩
    rcases cases with ⟨rfl, idle, inactive⟩ | ⟨hydration, rfl, begun⟩
    · exact ⟨prepared, _, present, .of_sent_eq sent, .rests (by rw [idle, inactive]) fun _ => rfl⟩
    cases complete : hydration.playersComplete with
    | false =>
        have order := keeps.order
        obtain ⟨later, taken, kept, tells, walked, some, moved⟩ := hydratePlayers_step fits present begun.active
          complete (order ▸ inhabited)
        simp only [complete, Bool.not_false, if_true]
        refine ⟨later, _, kept, unsent _ _ tells, .visits begun.prepared (order ▸ walked) some moved ?_⟩
        rw [if_pos rfl]
        exact List.filter_congr fun player _ => houses_of_keeps keeps _ player
    | true =>
        have standing : session.activeHydration = some hydration := by
          rcases begun.prepared with active | ⟨idle, -⟩
          · exact active
          · have fresh := begun.fresh idle
            rw [complete, eq_comm, decide_eq_true_eq] at fresh
            omega
        have still : prepared.activeHydration.map progressOf = session.activeHydration.map progressOf := by
          rw [begun.active, standing]
        simp only [complete, Bool.not_true, Bool.false_eq_true, if_false]
        split
        · exact ⟨prepared, _, present, .of_sent_eq sent, .rests still fun _ => rfl⟩
        · obtain ⟨later, kept, idle, tells⟩ := completeHydration_step present hydration
          exact ⟨later, _, kept, unsent _ _ tells, .ends standing (Or.inl complete) idle fun _ => rfl⟩
        · rename_i row rest paged
          obtain ⟨later, kept, same, tells⟩ := hydrateMooring_step present hydration row
          exact ⟨later, _, kept, unsent _ _ tells, .rests (same.trans still) fun _ => rfl⟩
  · unfold processOneAoiWork
    simp only [chunking]
    refine ⟨applyAoiChunk session (aoiChunk session), _, ?_, postBounded_tells _ peer _ (Or.inr fun _ => rfl),
      ?_⟩
    · rw [postBounded_sessions]
      simp [modifySession, FiniteMap.get?_modify, found]
    · exact applyAoiChunk_step server session

/-- What a visit to another recipient leaves alone. -/
structure Elsewhere (peer : PeerId) (server after : Server F) : Prop where
  session : after.sessions.get? peer = server.sessions.get? peer
  keeps : KeepsIndex server after
  silent : Tells peer server after fun _ => []

omit [Codec F] in
theorem Elsewhere.trans (first : Elsewhere peer server middle) (second : Elsewhere peer middle after) :
    Elsewhere peer server after :=
  ⟨second.session.trans first.session, first.keeps.trans second.keeps, first.silent.trans second.silent⟩

omit [Codec F] in
theorem Elsewhere.of_same (sessions : after.sessions = server.sessions) (keeps : KeepsIndex server after)
    (sent : after.sent = server.sent) : Elsewhere peer server after :=
  ⟨by rw [sessions], keeps, .of_sent_eq sent⟩

omit [Codec F] in
theorem HydrationStep.of_keeps {later : Session F} {told : Cell → List UInt64} (keeps : KeepsIndex server middle)
    (step : HydrationStep middle session later told) : HydrationStep server session later told := by
  cases step with
  | rests same silent => exact .rests same silent
  | ends active finished idle silent => exact .ends active finished idle silent
  | visits prepared walked some moved tells =>
      rw [keeps.order] at walked
      refine .visits ?_ walked some moved ?_
      · cases prepared with
        | standing active => exact .standing active
        | fresh idle scan => exact .fresh idle (keeps.order ▸ scan)
      · rw [tells]
        exact List.filter_congr fun player _ => houses_of_keeps keeps _ player

omit [Codec F] in
theorem Elsewhere.foldl {Item : Type} {step : Server F → Item → Server F} {items : List Item}
    (each : ∀ item ∈ items, ∀ server, Elsewhere peer server (step server item)) (server : Server F) :
    Elsewhere peer server (items.foldl step server) := by
  induction items generalizing server with
  | nil => exact .of_same rfl (.refl server) rfl
  | cons item rest ih =>
      exact (each item List.mem_cons_self server).trans (ih (fun later member => each later
        (List.mem_cons_of_mem item member)) _)

/-- New datagrams go to `peer` alone. -/
def Addressed (peer : PeerId) (server after : Server F) : Prop :=
  ∃ posts, after.sent = server.sent ++ posts ∧ ∀ post ∈ posts, post.1 = peer

omit [Codec F] in
theorem Addressed.of_sent_eq (same : after.sent = server.sent) : Addressed peer server after :=
  ⟨[], by simp [same], by simp⟩

omit [Codec F] in
theorem Addressed.trans (first : Addressed peer server middle) (second : Addressed peer middle after) :
    Addressed peer server after := by
  obtain ⟨posts, grown, own⟩ := first
  obtain ⟨more, grownAgain, ownAgain⟩ := second
  refine ⟨posts ++ more, by rw [grownAgain, grown, List.append_assoc], fun post member => ?_⟩
  rcases List.mem_append.mp member with old | new
  · exact own post old
  · exact ownAgain post new

theorem addressed_postBounded (server : Server F) (peer : PeerId) (payload : ServerMessage F) :
    Addressed peer server (server.postBounded peer payload).1 := by
  unfold postBounded
  split
  · exact .of_sent_eq rfl
  · exact ⟨_, rfl, by simp⟩

theorem addressed_sendCellSnapshot (server : Server F) (peer : PeerId) (cell : Cell) (sessions : List (Session F))
    (moorings : List (MooringSnap F)) :
    Addressed peer server (server.sendCellSnapshot peer cell sessions moorings) := by
  have posted := addressed_postBounded server peer
    (.cellSnapshot cell (playerSnaps sessions) (boatSnaps sessions) moorings)
  unfold sendCellSnapshot
  split <;> rename_i sending <;> rw [sending] at posted
  · exact posted
  · exact posted.trans (.of_sent_eq rfl)

theorem addressed_processOneAoiWork (server : Server F) (peer : PeerId) (fails : Bool) :
    Addressed peer server (server.processOneAoiWork peer fails).1 := by
  have chunked : (server.nextAoiChunk peer).1.sent = server.sent := by
    unfold nextAoiChunk
    split
    · rfl
    · simp only
      split <;> rfl
  have prepared : ∀ server : Server F, (server.prepareCellHydration peer).1.sent = server.sent := by
    intro server
    unfold prepareCellHydration
    split <;> rfl
  unfold processOneAoiWork
  split <;> rename_i chunking <;> rw [chunking] at chunked
  · exact Addressed.trans (.of_sent_eq chunked) (addressed_postBounded _ peer _)
  · rename_i settled
    have begun := prepared settled
    refine Addressed.trans (.of_sent_eq chunked) ?_
    split <;> rename_i preparing <;> rw [preparing] at begun
    · exact .of_sent_eq begun
    refine Addressed.trans (.of_sent_eq begun) ?_
    split
    · unfold hydratePlayers
      simp only
      split
      · exact .of_sent_eq rfl
      · exact Addressed.trans (.of_sent_eq rfl) (addressed_sendCellSnapshot _ peer _ _ _)
    split
    · exact .of_sent_eq rfl
    · unfold completeHydration
      split
      · exact .of_sent_eq rfl
      · exact (addressed_postBounded _ peer _).trans (.of_sent_eq rfl)
    · unfold hydrateMooring
      simp only
      split
      · exact Addressed.trans (.of_sent_eq rfl) (addressed_sendCellSnapshot _ peer _ _ _)
      · exact .of_sent_eq rfl

theorem addressed_serveAoiRecipient (fails : PeerId → Bool) (server : Server F) (peer : PeerId) :
    Addressed peer server (serveAoiRecipient fails server peer) := by
  have worked := addressed_processOneAoiWork
    { server with aoiRecipients := server.aoiRecipients.erase peer } peer (fails peer)
  unfold serveAoiRecipient
  simp only
  split
  · exact .of_sent_eq rfl
  split
  · unfold scheduleAoi
    split <;> exact worked
  · exact worked

theorem serveAoiRecipient_elsewhere {other : PeerId} (apart : peer ≠ other) (fails : PeerId → Bool)
    (server : Server F) : Elsewhere peer server (serveAoiRecipient fails server other) := by
  refine ⟨?_, keeps_serveAoiRecipient fails server other, ?_⟩
  · unfold serveAoiRecipient
    simp only
    cases found : server.sessions.get? other with
    | none => rfl
    | some session =>
        have present : ({ server with aoiRecipients := server.aoiRecipients.erase other } : Server F).sessions.get?
            other = some session := found
        have kept := (processOneAoiWork_work (fails other) present).2.2 peer apart
        simp only [Option.isNone_some, Bool.false_eq_true, if_false]
        split
        · unfold scheduleAoi
          split <;> exact kept
        · exact kept
  · obtain ⟨posts, grown, own⟩ := addressed_serveAoiRecipient fails server other
    refine ⟨posts, grown, fun cell => playersTo_other_peers fun post member => ?_⟩
    rw [own post member]
    exact apart.symm

/-- What the stage `server → after` did to the hydration of `peer`. -/
structure Stepped (peer : PeerId) (session : Session F) (server after : Server F) (told : Cell → List UInt64) :
    Prop where
  tells : Tells peer server after told
  step : ∃ later, after.sessions.get? peer = some later ∧ HydrationStep server session later told

theorem serveAoiRecipient_step (fits : CellSnapshotsFit F) (found : server.sessions.get? peer = some session)
    (tidy : Tidy session) (inhabited : 0 < server.playerOrder.card) (fails : PeerId → Bool) :
    ∃ told, Stepped peer session server (serveAoiRecipient fails server peer) told := by
  have present : ({ server with aoiRecipients := server.aoiRecipients.erase peer } : Server F).sessions.get? peer =
      some session := found
  obtain ⟨later, told, kept, tells, step⟩ := processOneAoiWork_step fits present tidy inhabited (fails peer)
  have keeps : KeepsIndex server { server with aoiRecipients := server.aoiRecipients.erase peer } :=
    ⟨rfl, rfl, rfl, rfl, rfl, rfl, (Finset.erase_subset _ _).trans Finset.subset_union_left, fun _ => rfl, .refl _⟩
  have still : HydrationStep server session later told := .of_keeps keeps step
  unfold serveAoiRecipient
  simp only [found, Option.isNone_some, Bool.false_eq_true, if_false]
  refine ⟨told, ?_⟩
  split
  · unfold scheduleAoi
    split <;> exact ⟨tells, later, kept, still⟩
  · exact ⟨tells, later, kept, still⟩

omit [Codec F] in
/-- Visits to others before and after one to `peer` change nothing about it. -/
theorem Stepped.between {before visited : Server F} {told : Cell → List UInt64} (first : Elsewhere peer server before)
    (stepped : Stepped peer session before visited told) (last : Elsewhere peer visited after) :
    Stepped peer session server after told := by
  obtain ⟨tells, later, kept, step⟩ := stepped
  refine ⟨Tells.congr ((first.silent.trans tells).trans last.silent) ?_, later, last.session.trans kept,
    .of_keeps first.keeps step⟩
  funext cell
  rw [List.nil_append, List.append_nil]

omit [Codec F] in
theorem Stepped.rests (elsewhere : Elsewhere peer server after) (found : server.sessions.get? peer = some session) :
    Stepped peer session server after fun _ => [] :=
  ⟨elsewhere.silent, session, elsewhere.session.trans found, .rests rfl fun _ => rfl⟩

theorem processAoiWork_step (fits : CellSnapshotsFit F) (found : server.sessions.get? peer = some session)
    (tidy : Tidy session) (inhabited : 0 < server.playerOrder.card) (fails : PeerId → Bool) :
    ∃ told, Stepped peer session server (server.processAoiWork fails) told := by
  have unique : (orderedPeersAfter server.aoiRecipients server.aoiRecipientCursor aoiWorkItemsPerTick).Nodup := by
    rw [orderedPeersAfter, orderedAfter_eq_take]
    exact (circle_nodup _ _).sublist (List.take_sublist _ _)
  unfold processAoiWork
  simp only
  generalize orderedPeersAfter server.aoiRecipients server.aoiRecipientCursor aoiWorkItemsPerTick =
    recipients at unique ⊢
  have started : Elsewhere peer server { server with
      aoiRecipientCursor := recipients.getLast?.or server.aoiRecipientCursor } :=
    .of_same rfl (.of_sessions_eq rfl rfl) rfl
  generalize ({ server with aoiRecipientCursor := recipients.getLast?.or server.aoiRecipientCursor } : Server F) =
    begun at started ⊢
  by_cases member : peer ∈ recipients
  · obtain ⟨earlier, later, rfl⟩ := List.append_of_mem member
    rw [List.nodup_append] at unique
    obtain ⟨-, rest, apart⟩ := unique
    have before : Elsewhere peer server (earlier.foldl (serveAoiRecipient fails) begun) := by
      refine started.trans (Elsewhere.foldl ?_ _)
      intro other listed server
      refine serveAoiRecipient_elsewhere ?_ fails server
      rintro rfl
      exact apart peer listed peer List.mem_cons_self rfl
    have order := congrArg Finset.card before.keeps.order
    obtain ⟨told, stepped⟩ := serveAoiRecipient_step fits (before.session.trans found) tidy
      (inhabited.trans_eq order.symm) fails
    rw [List.foldl_append, List.foldl_cons]
    refine ⟨told, stepped.between before (Elsewhere.foldl ?_ _)⟩
    intro other listed server
    refine serveAoiRecipient_elsewhere ?_ fails server
    rintro rfl
    exact (List.nodup_cons.mp rest).1 listed
  · refine ⟨_, Stepped.rests (started.trans (Elsewhere.foldl ?_ _)) found⟩
    intro other listed server
    refine serveAoiRecipient_elsewhere ?_ fails server
    rintro rfl
    exact member listed

end Visits

/-! Stages. -/
section Stages
variable {F : Type} [Platform F] {server after : Server F} {peer : PeerId} {session later : Session F}

/-- Stages that send no cell snapshot and leave the hydration of `peer` alone. -/
theorem Stepped.quiet {topics : List Topic} (posts : Posts topics server after) (others : Topic.cell ∉ topics)
    (kept : after.sessions.get? peer = some later) (same : later.activeHydration = session.activeHydration) :
    Stepped peer session server after fun _ => [] := by
  obtain ⟨new, grown, about⟩ := posts
  refine ⟨⟨new, grown, fun cell => ?_⟩, later, kept, .rests (by rw [same]) fun _ => rfl⟩
  exact playersTo_other_topics fun post member told => others (told ▸ about post member)

theorem Stepped.silent (sent : after.sent = server.sent) (kept : after.sessions.get? peer = some later)
    (same : later.activeHydration = session.activeHydration) : Stepped peer session server after fun _ => [] :=
  ⟨.of_sent_eq sent, later, kept, .rests (by rw [same]) fun _ => rfl⟩

/-- Events leave the hydration of a session alone and send no cell snapshot. -/
theorem outcome_quiet {moment : Moment} {event : Event} (outcome : Outcome server moment event after)
    (found : server.sessions.get? peer = some session) (kept : after.sessions.get? peer = some later) :
    later.activeHydration = session.activeHydration ∧ ∃ topics, Posts topics server after ∧ Topic.cell ∉ topics := by
  refine ⟨outcome.kept_session Session.activeHydration (fun _ _ _ _ _ => rfl) (fun _ _ => rfl) found kept, ?_⟩
  cases outcome with
  | calm frame posts => exact ⟨_, posts, by decide⟩
  | moved | spoke | left => exact ⟨[], posts_of_sent_eq rfl, List.not_mem_nil⟩
  | joined vacant frame posts superseded numbering =>
      exact ⟨[.hello], ⟨_, by rw [entered_sent _ _ _ superseded numbering, posts], by simp [topicOf]⟩, by decide⟩

/-- A session that has just joined hydrates nothing. -/
theorem outcome_fresh {moment : Moment} {event : Event} (outcome : Outcome server moment event after)
    (vacant : server.sessions.get? peer = none) (kept : after.sessions.get? peer = some later) :
    later.activeHydration = none := by
  cases outcome with
  | calm frame posts =>
      have sessions : after.sessions = server.sessions := (congrArg Server.sessions frame :)
      rw [sessions, vacant] at kept
      cases kept
  | @moved other bytes mover present motion state cell placed =>
      simp only [FiniteMap.get?_insert] at kept
      split at kept <;> rename_i own
      · rw [own, present] at vacant
        cases vacant
      · rw [vacant] at kept
        cases kept
  | spoke =>
      rw [show _ = server.sessions.get? peer from rfl, vacant] at kept
      cases kept
  | @joined other bytes base middle numbered player identityHash name generation reply free frame posts
      superseded numbering =>
      have sessions : base.sessions = server.sessions := (congrArg Server.sessions frame :)
      rcases entered_sessions other _ reply superseded numbering kept with ⟨-, rfl⟩ | ⟨-, old, present, -⟩
      · rfl
      · rw [sessions, vacant] at present
        cases present
  | @left other reason gone db flushPlayers dirtyPlayers flushPaused present =>
      simp only [departed, dropped, FiniteMap.get?_erase] at kept
      split at kept
      · cases kept
      · rw [vacant] at kept
        cases kept

theorem touches_stepped {rest : Server F → Server F} {view : Session F → Session F} {topics : List Topic}
    (touches : Touches rest view topics server after)
    (seen : ∀ session, (view session).activeHydration = session.activeHydration) (others : Topic.cell ∉ topics)
    (found : server.sessions.get? peer = some session) : ∃ told, Stepped peer session server after told := by
  have same := touches.sessions peer
  rw [found, Option.map_some, Option.map_eq_some_iff] at same
  obtain ⟨later, kept, viewed⟩ := same
  refine ⟨_, .quiet touches.posts others kept ?_⟩
  rw [← seen later, viewed, seen]

theorem tick_stepped [Codec F] (fits : CellSnapshotsFit F) (tick : Tick)
    (found : server.sessions.get? peer = some session) (tidy : Tidy session)
    (inhabited : 0 < server.playerOrder.card) (about : JobsAbout fanoutTopics server) :
    ∃ told, Stepped peer session server (tick.run server) told := by
  cases tick with
  | aoi fails => exact processAoiWork_step fits found tidy inhabited fails
  | snapshots => exact touches_stepped (broadcastSnapshots_effect server) (fun _ => rfl) (by decide) found
  | fanout =>
      have run := processFanoutWork_run server
      have sessions : server.processFanoutWork.sessions = server.sessions := (congrArg Server.sessions run.frame :)
      have kept : server.processFanoutWork.sessions.get? peer = some session := sessions ▸ found
      exact ⟨_, .quiet (run.posts about).1 (by decide) kept rfl⟩
  | dirtyFlush fails now =>
      exact touches_stepped (processDirtyFlushAt_effect server fails now).toTouches (fun _ => rfl) (by simp) found
  | beginFlush => exact ⟨_, .silent rfl found rfl⟩
  | clock clockMs =>
      have frame := broadcastClock_frame server clockMs
      have sessions : (server.broadcastClock clockMs).sessions = server.sessions := (congrArg Server.sessions frame :)
      have kept : (server.broadcastClock clockMs).sessions.get? peer = some session := sessions ▸ found
      exact ⟨_, .silent (congrArg Server.sent frame :) kept rfl⟩

/-- One event brings in one player at most. -/
theorem outcome_order {moment : Moment} {event : Event} (outcome : Outcome server moment event after) :
    ∃ joined, after.playerOrder ⊆ insert joined server.playerOrder := by
  cases outcome with
  | calm frame posts =>
      have order : after.playerOrder = server.playerOrder := (congrArg Server.playerOrder frame :)
      exact ⟨0, order ▸ Finset.subset_insert _ _⟩
  | moved => exact ⟨0, Finset.subset_insert _ _⟩
  | spoke => exact ⟨0, Finset.subset_insert _ _⟩
  | @joined other bytes base middle numbered player identityHash name generation reply vacant frame posts
      superseded numbering =>
      have order : base.playerOrder = server.playerOrder := (congrArg Server.playerOrder frame :)
      have fewer : middle.playerOrder ⊆ server.playerOrder := by
        rw [← order]
        cases superseded with
        | absent unowned => exact Finset.Subset.refl _
        | evicted owned present own addrs => exact Finset.erase_subset _ _
      have same : numbered.playerOrder = middle.playerOrder := by cases numbering <;> rfl
      refine ⟨player, Finset.insert_subset_insert _ ?_⟩
      rw [same]
      exact fewer
  | left => exact ⟨0, (Finset.erase_subset _ _).trans (Finset.subset_insert _ _)⟩

end Stages

/-! Runs. -/
section Runs
variable {F : Type} [Platform F] [Codec F] {db : Persistence.Db F} {trace : List (Stage F)} {stage : Stage F}
  {server : Server F} {pending : List Event} {peer : PeerId} {cell : Cell} {player : UInt64} {session later : Session F}

theorem stage_order (run : Run db (trace ++ [stage]) server pending) :
    ∃ joined, stage.after.playerOrder ⊆ insert joined stage.before.playerOrder := by
  obtain ⟨server, action, after, rfl, move, -⟩ := run_move run
  cases move with
  | poll host => exact ⟨0, Finset.subset_insert _ _⟩
  | handle outcome => exact outcome_order outcome
  | tick tick =>
      have order := (keeps_tick server tick).order
      exact ⟨0, order ▸ Finset.subset_insert _ _⟩

/-- A stage that keeps the session of `peer` moves its hydration by at most one visit, and then no
player joins or leaves in it. -/
theorem stage_step (fits : CellSnapshotsFit F) (run : Run db (trace ++ [stage]) server pending)
    (found : stage.before.sessions.get? peer = some session) (kept : stage.after.sessions.get? peer = some later) :
    HydrationStep stage.before session later (fun cell => playersTo peer cell stage.posted) ∧
      (later.activeHydration = session.activeHydration ∨ stage.after.playerOrder = stage.before.playerOrder) := by
  obtain ⟨server, action, after, rfl, move, -, earlier, before⟩ := run_move run
  have stepped : (∃ told, Stepped peer session server after told) ∧
      (later.activeHydration = session.activeHydration ∨ after.playerOrder = server.playerOrder) := by
    cases move with
    | poll host => exact ⟨⟨_, .silent rfl found rfl⟩, Or.inr rfl⟩
    | handle outcome =>
        obtain ⟨same, topics, posts, others⟩ := outcome_quiet outcome found kept
        exact ⟨⟨_, .quiet posts others kept same⟩, Or.inl same⟩
    | tick tick =>
        have owner := (before.inv.agree.owner_iff session.playerId peer).mpr ⟨session, found, rfl⟩
        have member : session.playerId ∈ server.playerOrder := by
          rw [before.inv.agree.order]
          exact (FiniteMap.mem_keys_iff_exists _ _).mpr ⟨peer, owner⟩
        refine ⟨?_, Or.inr (keeps_tick server tick).order⟩
        exact tick_stepped fits tick found ((run_interest before).tidy peer session found)
          (Finset.card_pos.mpr ⟨_, member⟩) (reachable_jobsAbout before.reachable)
  obtain ⟨⟨told, ⟨posts, grown, about⟩, final, present, step⟩, still⟩ := stepped
  rw [kept, Option.some.injEq] at present
  subst present
  rw [Stage.posted_eq grown]
  have same : told = fun cell => playersTo peer cell posts := funext fun cell => (about cell).symm
  rw [same] at step
  exact ⟨step, still⟩

theorem stage_fresh (run : Run db (trace ++ [stage]) server pending)
    (vacant : stage.before.sessions.get? peer = none) (kept : stage.after.sessions.get? peer = some later) :
    later.activeHydration = none := by
  obtain ⟨server, action, after, rfl, move, -⟩ := run_move run
  cases move with
  | poll host =>
      rw [show _ = none from vacant] at kept
      cases kept
  | handle outcome => exact outcome_fresh outcome vacant kept
  | tick tick =>
      obtain ⟨old, present, -⟩ := (keeps_tick server tick).session_of kept
      rw [show _ = none from vacant] at present
      cases present

def hydrationOf (server : Server F) (peer : PeerId) : Option CellHydration :=
  (server.sessions.get? peer).bind Session.activeHydration

def playersSent (peer : PeerId) (cell : Cell) (stages : List (Stage F)) : List UInt64 :=
  stages.flatMap fun stage => playersTo peer cell stage.posted

omit [Codec F] in
theorem playersSent_snoc (peer : PeerId) (cell : Cell) (stages : List (Stage F)) (stage : Stage F) :
    playersSent peer cell (stages ++ [stage]) =
      playersSent peer cell stages ++ playersTo peer cell stage.posted := by
  simp [playersSent]

/-- The stages from the one that starts the hydration of `cell` for `peer` to the one that completes
it, with the cell still published. -/
structure Hydrated (peer : PeerId) (cell : Cell) (first : Stage F) (middle : List (Stage F)) (last : Stage F) :
    Prop where
  starts : ∀ hydration, hydrationOf first.before peer = some hydration → hydration.cell ≠ cell
  active : ∀ stage ∈ first :: middle, ∃ hydration, hydrationOf stage.after peer = some hydration ∧
    hydration.cell = cell
  completes : ∃ session, last.after.sessions.get? peer = some session ∧ session.activeHydration = none ∧
    cell ∈ session.publishedCells

/-- `Hydrated`, computed, from a server that hydrates nothing for `peer`. -/
def hydratedListed (peer : PeerId) (cell : Cell) (first : Stage F) (middle : List (Stage F)) (last : Stage F) : Bool :=
  (hydrationOf first.before peer).isNone &&
    (first :: middle).all (fun stage => (hydrationOf stage.after peer).map CellHydration.cell = some cell) &&
      (last.after.sessions.get? peer).any fun session =>
        session.activeHydration.isNone && decide (cell ∈ session.publishedCells)

omit [Codec F] in
theorem Hydrated.of_listed {first last : Stage F} {middle : List (Stage F)}
    (listed : hydratedListed peer cell first middle last = true) : Hydrated peer cell first middle last := by
  unfold hydratedListed at listed
  rw [Bool.and_eq_true, Bool.and_eq_true, List.all_eq_true] at listed
  obtain ⟨⟨starts, active⟩, completes⟩ := listed
  refine ⟨?_, ?_, ?_⟩
  · intro hydration held
    rw [held] at starts
    cases starts
  · intro stage listed
    exact Option.map_eq_some_iff.mp (of_decide_eq_true (active stage listed))
  · obtain ⟨session, found, finished⟩ := (Option.any_eq_true _ _).mp completes
    rw [Bool.and_eq_true, Option.isNone_iff_eq_none, decide_eq_true_eq] at finished
    exact ⟨session, found, finished.1, finished.2⟩

/-- A join between the cursor and `player` leaves the count covering the players up to `player`. -/
def Spares (peer : PeerId) (player : UInt64) (stage : Stage F) : Prop :=
  ∀ hydration, hydrationOf stage.before peer = some hydration →
    ∀ joined ∈ stage.after.playerOrder, joined ∉ stage.before.playerOrder →
      Beyond hydration.playerCursor joined → joined < player →
        (upTo stage.before.playerOrder hydration.playerCursor player).card < hydration.playersRemaining

/-- Either the player has been sent, or the walk will meet it within its count. -/
def Underway (peer : PeerId) (cell : Cell) (player : UInt64) (sent : List UInt64) (server : Server F) : Prop :=
  player ∈ sent ∨ ∃ hydration, hydrationOf server peer = some hydration ∧ hydration.cell = cell ∧
    hydration.playersComplete = false ∧ (scanOf hydration).Reaches server.playerOrder player

omit [Codec F] in
theorem hydrationOf_some {hydration : CellHydration} (active : hydrationOf server peer = some hydration) :
    ∃ session, server.sessions.get? peer = some session ∧ session.activeHydration = some hydration :=
  Option.bind_eq_some_iff.mp active

omit [Codec F] in
/-- A visit sends the player or comes closer to it. -/
theorem underway_visit {hydration next : CellHydration} {taken : List UInt64} {sent : List UInt64}
    (member : player ∈ server.playerOrder) (housed : houses server cell player = true)
    (reaches : (scanOf hydration).Reaches server.playerOrder player) (here : hydration.cell = cell)
    (walked : taken <+: circle server.playerOrder hydration.playerCursor)
    (some : hydration.playersRemaining ≠ 0 → taken ≠ []) {after : Server F}
    (order : after.playerOrder = server.playerOrder) (active : hydrationOf after peer = .some next)
    (moved : progressOf next = (hydration.cell, (scanOf hydration).past taken,
      decide (((scanOf hydration).past taken).remaining = 0 ∨ taken = []))) :
    Underway peer cell player (sent ++ taken.filter (houses server cell)) after := by
  -- A walk that still reaches the player has places left, so the visit takes at least one key.
  have progress := some (Nat.ne_of_gt (reaches.positive member))
  rcases reaches.visit member walked progress with met | closer
  · exact Or.inl (List.mem_append_right _ (List.mem_filter.mpr ⟨met, housed⟩))
  · simp only [progressOf, Prod.mk.injEq] at moved
    obtain ⟨place, scan, complete⟩ := moved
    refine Or.inr ⟨next, active, place.trans here, ?_, ?_⟩
    · rw [complete, decide_eq_false_iff_not, not_or]
      exact ⟨Nat.ne_of_gt (closer.positive member), progress⟩
    · rw [scan, order]
      exact closer

/-- The stage that starts a hydration makes its first visit. -/
theorem underway_first (fits : CellSnapshotsFit F) (run : Run db (trace ++ [stage]) server pending)
    (starts : ∀ hydration, hydrationOf stage.before peer = some hydration → hydration.cell ≠ cell)
    {next : CellHydration} (active : hydrationOf stage.after peer = some next) (here : next.cell = cell)
    (housed : houses stage.before cell player = true) (member : player ∈ stage.before.playerOrder) :
    Underway peer cell player (playersTo peer cell stage.posted) stage.after := by
  obtain ⟨later, kept, hydrating⟩ := hydrationOf_some active
  cases found : stage.before.sessions.get? peer with
  | none =>
      rw [stage_fresh run found kept] at hydrating
      cases hydrating
  | some session =>
      have before : hydrationOf stage.before peer = session.activeHydration := by
        rw [hydrationOf, found, Option.bind_some]
      have other : ∀ hydration, session.activeHydration = some hydration → hydration.cell ≠ cell := by
        intro hydration held
        exact starts hydration (before.trans held)
      obtain ⟨step, still⟩ := stage_step fits run found kept
      cases step with
      | rests same =>
          rw [hydrating, Option.map_some, eq_comm, Option.map_eq_some_iff] at same
          obtain ⟨hydration, held, same⟩ := same
          have place : hydration.cell = next.cell := congrArg Prod.fst same
          exact absurd (place.trans here) (other hydration held)
      | ends active finished idle =>
          rw [idle] at hydrating
          cases hydrating
      | @visits hydration taken prepared walked some moved tells =>
          rw [hydrating, Option.map_some, Option.some.injEq] at moved
          have place : next.cell = hydration.cell := congrArg Prod.fst moved
          have cell : hydration.cell = cell := place.symm.trans here
          rcases prepared with held | ⟨idle, scan⟩
          · exact absurd cell (other hydration held)
          · have order := still.resolve_left fun same => by rw [hydrating, idle] at same; cases same
            rw [cell] at tells
            rw [tells]
            have reaches : (scanOf hydration).Reaches stage.before.playerOrder player :=
              scan ▸ Scan.reaches_start stage.before.playerOrder player
            have underway : Underway peer _ player ([] ++ taken.filter (houses stage.before _)) stage.after :=
              underway_visit member housed reaches cell walked some order active moved
            exact underway

/-- Later stages send the player, come closer to it or leave it within the count. -/
theorem underway_next (fits : CellSnapshotsFit F) (run : Run db (trace ++ [stage]) server pending) {sent : List UInt64}
    (underway : Underway peer cell player sent stage.before) {next : CellHydration}
    (active : hydrationOf stage.after peer = some next) (housed : houses stage.before cell player = true)
    (member : player ∈ stage.before.playerOrder) (spares : player ∉ sent → Spares peer player stage) :
    Underway peer cell player (sent ++ playersTo peer cell stage.posted) stage.after := by
  by_cases met : player ∈ sent
  · exact Or.inl (List.mem_append_left _ met)
  obtain ⟨hydration, hydrating, here, unfinished, reaches⟩ := underway.resolve_left met
  obtain ⟨session, found, held⟩ := hydrationOf_some hydrating
  obtain ⟨later, kept, continuing⟩ := hydrationOf_some active
  obtain ⟨step, still⟩ := stage_step fits run found kept
  rcases still with same | order
  · -- The walk rests while at most one player joins.
    rw [continuing, held, Option.some.injEq] at same
    subst same
    obtain ⟨joined, single⟩ := stage_order run
    refine Or.inr ⟨next, active, here, unfinished, ?_⟩
    by_cases overtakes : joined ∈ stage.after.playerOrder ∧ joined ∉ stage.before.playerOrder ∧
        Beyond next.playerCursor joined ∧ joined < player
    · obtain ⟨entered, fresh, beyond, below⟩ := overtakes
      exact reaches.insertion (fun key listed => Finset.mem_insert.mp (single listed))
        (spares met next hydrating joined entered fresh beyond below)
    · refine reaches.churn fun key entered fresh beyond => ?_
      have own := (Finset.mem_insert.mp (single entered)).resolve_right fresh
      subst own
      refine lt_of_le_of_ne (not_lt.mp fun below => overtakes ⟨entered, fresh, beyond, below⟩) ?_
      rintro rfl
      exact fresh member
  · cases step with
    | rests same =>
        rw [continuing, held, Option.map_some, Option.map_some, Option.some.injEq] at same
        simp only [progressOf, Prod.mk.injEq] at same
        obtain ⟨place, scan, complete⟩ := same
        refine Or.inr ⟨next, active, place.trans here, complete.trans unfinished, ?_⟩
        rw [scan, order]
        exact reaches
    | ends _ _ idle =>
        rw [idle] at continuing
        cases continuing
    | visits prepared walked some moved tells =>
        rw [continuing, Option.map_some, Option.some.injEq] at moved
        rcases prepared with standing | ⟨idle, -⟩
        · rw [held, Option.some.injEq] at standing
          subst standing
          rw [here] at tells
          rw [tells]
          exact underway_visit member housed reaches here walked some order active moved
        · rw [held] at idle
          cases idle

omit [Codec F] in
theorem member_of_houses (agree : SessionsAgree noStray server) (housed : houses server cell player = true) :
    player ∈ server.playerOrder := by
  rw [houses, decide_eq_true_eq, Option.bind_eq_some_iff] at housed
  obtain ⟨session, found, -⟩ := housed
  unfold sessionByPlayer at found
  rw [agree.order]
  split at found <;> rename_i owner
  · cases found
  · exact (FiniteMap.mem_keys_iff_exists _ _).mpr ⟨_, owner⟩

theorem underway_through (fits : CellSnapshotsFit F) {earlier early late : List (Stage F)} {first : Stage F}
    {middle : List (Stage F)} {last : Stage F} (hydrated : Hydrated peer cell first middle last)
    (stays : ∀ stage ∈ first :: middle, houses stage.before cell player = true)
    (spared : ∀ early stage late, middle = early ++ stage :: late → player ∉ playersSent peer cell (first :: early) →
      Spares peer player stage)
    (split : middle = early ++ late) (run : Run db (earlier ++ first :: early) server pending) :
    Underway peer cell player (playersSent peer cell (first :: early)) server := by
  induction early using List.reverseRecOn generalizing late server pending with
  | nil =>
      obtain ⟨⟨waiting, before⟩, -, rfl⟩ := Run.unsnoc run
      obtain ⟨next, active, here⟩ := hydrated.active first List.mem_cons_self
      have housed := stays first List.mem_cons_self
      have underway := underway_first fits run hydrated.starts active here housed
        (member_of_houses before.inv.agree housed)
      simpa [playersSent] using underway
  | append_singleton early stage ih =>
      rw [← List.cons_append, ← List.append_assoc] at run
      obtain ⟨⟨waiting, before⟩, -, rfl⟩ := run.unsnoc
      have rest : middle = early ++ stage :: late := by rw [split, List.append_assoc, List.singleton_append]
      have listed : stage ∈ first :: middle := by
        rw [rest]
        exact List.mem_cons_of_mem _ (List.mem_append_right _ List.mem_cons_self)
      obtain ⟨next, active, -⟩ := hydrated.active stage listed
      have housed := stays stage listed
      rw [← List.cons_append, playersSent_snoc]
      exact underway_next fits run (ih rest before) active housed (member_of_houses before.inv.agree housed)
        (spared early stage late rest)

/-- A hydration sends every player that stays in its cell, as long as no join takes up the place of the
count that the player needs. -/
theorem stayers_hydrated (fits : CellSnapshotsFit F) {earlier middle : List (Stage F)} {first last : Stage F}
    (run : Run db (earlier ++ first :: middle ++ [last]) server pending)
    (hydrated : Hydrated peer cell first middle last)
    (stays : ∀ stage ∈ first :: middle, houses stage.before cell player = true)
    (spared : ∀ early stage late, middle = early ++ stage :: late → player ∉ playersSent peer cell (first :: early) →
      Spares peer player stage) :
    player ∈ playersSent peer cell (first :: middle ++ [last]) := by
  obtain ⟨⟨waiting, before⟩, -, -⟩ := run.unsnoc
  have underway := underway_through fits hydrated stays spared (List.append_nil middle).symm before
  rw [playersSent_snoc]
  refine List.mem_append_left _ ?_
  rcases underway with met | ⟨hydration, hydrating, here, unfinished, -⟩
  · exact met
  -- The completing stage finds the walk finished.
  obtain ⟨session, found, held⟩ := hydrationOf_some hydrating
  obtain ⟨later, kept, idle, published⟩ := hydrated.completes
  obtain ⟨step, -⟩ := stage_step fits run found kept
  cases step with
  | rests same =>
      rw [idle, held] at same
      cases same
  | ends active finished =>
      rw [held, Option.some.injEq] at active
      subst active
      rcases finished with complete | left
      · rw [unfinished] at complete
        cases complete
      · exact absurd (here ▸ published) left
  | visits _ _ _ moved =>
      rw [idle] at moved
      cases moved

end Runs

/-! Eight players are known from before; the seventh comes back while the first one's client, a cell
away from the crowd, is sent the crowd's cell. -/
section Reunion

def reunionToken (number : Nat) : String := String.singleton (Char.ofNat (96 + number))

def reunionRow (number : Nat) : Persistence.PlayerRow :=
  { id := Int64.ofNat number
    name := "sailor"
    tokenHash := tokenHash (reunionToken number)
    gold := 0
    createdAt := 0
    lastSeen := 0 }

def reunionDb : Persistence.Db Int :=
  ⟨(List.range 8).map fun index => reunionRow (index + 1), 8, [], FiniteMap.empty, [], []⟩

def cornerState : ClientState Int :=
  { pos := some (1024, 0, 1024), rot := some (0, 0, 0, 1), vel := none, aboardBoat := 0, tMs := 0 }

local instance reunionCodec : Codec Int where
  encode _ := List.replicate 64 0
  decode
    | [code] =>
      if code < 9 then some (.hello (helloOf (reunionToken code.toNat))) else some (.state cornerState)
    | _ => none

def reunionConfig : ValidConfig Int := { Config.default 1024 with aoiRadiusCells := 1, valid := rfl }

def reunionServer : Server Int :=
  Server.opened reunionConfig reunionDb ((loadIdentityPlayers reunionDb).toOption.getD FiniteMap.empty) 0 0

def callFrom (ip : UInt32) : SocketTurn :=
  datagramFrom ip (WireProtocol.buildConnectRequest 0 7 0 16 (WireProtocol.writeLitenetString "sailwind-online"))

def gatheringScript : List SocketTurn :=
  [1, 2, 3, 4, 5, 6, 8].map callFrom ++
    [datagramFrom 1 [0, 1], datagramFrom 2 [0, 2], datagramFrom 3 [0, 3], datagramFrom 4 [0, 4],
      datagramFrom 5 [0, 5], datagramFrom 6 [0, 6], datagramFrom 8 [0, 8], datagramFrom 1 [0, 9]]

def gatheringEvents : List Event :=
  [1, 2, 3, 4, 5, 6, 7].map .connected ++
    [.data 1 [1], .data 2 [2], .data 3 [3], .data 4 [4], .data 5 [5], .data 6 [6], .data 7 [8], .data 1 [9]]

def aoiTick (server : Server Int) : Server Int := (Tick.aoi fun _ => false).run server

def aoiStage (server : Server Int) : Stage Int := ⟨server, .tick (.aoi fun _ => false), aoiTick server⟩

theorem aoi_run {db : Persistence.Db Int} {trace : List (Stage Int)} {server : Server Int} {pending : List Event}
    (run : Run db trace server pending) : Run db (trace ++ [aoiStage server]) (aoiTick server) pending :=
  .tick (.aoi fun _ => false) run

/-- The first client's cells are published and none of them is hydrated yet. -/
def gatheredServer : Server Int :=
  aoiTick (handleAll (polledBy reunionServer gatheringScript) 1000 gatheringEvents)

theorem reunion_fits : CellSnapshotsFit Int := by
  intro seq cell players boats _ _
  have length : (List.replicate 64 (0 : UInt8)).length ≤ payloadLimit := by decide
  exact length

theorem gathered_run : ∃ trace, Run reunionDb trace gatheredServer [] := by
  have loaded : (loadIdentityPlayers reunionDb).toOption.isSome = true := by decide +kernel
  have opened : Server.new reunionConfig reunionDb 0 0 = .ok reunionServer := by
    unfold Server.new reunionServer
    cases identities : loadIdentityPlayers reunionDb with
    | error failure =>
        rw [identities] at loaded
        cases loaded
    | ok players => rfl
  have begun : Run reunionDb [] reunionServer [] := .start opened
  have seen : (reunionServer.host.pollWithWork 0 gatheringScript).toOption.map
      (fun after => after.events.map Prod.fst) = some gatheringEvents := by decide +kernel
  have waiting := polledBy_run begun gatheringScript seen
  rw [← List.append_nil gatheringEvents] at waiting
  exact ⟨_, aoi_run (handleAll_run gatheringEvents 1000 waiting)⟩

/-- The visit to the origin cell stops after the sixth player, with one player to go. -/
def hydratingServer : Server Int := aoiTick gatheredServer

theorem tick_spares (server : Server Int) (peer : PeerId) (player : UInt64) :
    Spares peer player (aoiStage server) := by
  intro hydration active joined entered fresh
  have order : (aoiTick server).playerOrder = server.playerOrder := (keeps_tick server _).order
  exact absurd (order ▸ entered) fresh

theorem stayers_hydrated_reunion : 8 ∈ playersSent 1 ⟨0, 0⟩
    (aoiStage gatheredServer :: [aoiStage hydratingServer] ++ [aoiStage (aoiTick hydratingServer)]) := by
  obtain ⟨trace, gathered⟩ := gathered_run
  have run : Run reunionDb (trace ++ aoiStage gatheredServer :: [aoiStage hydratingServer] ++
      [aoiStage (aoiTick hydratingServer)]) (aoiTick (aoiTick hydratingServer)) [] := by
    have walked := aoi_run (aoi_run (aoi_run gathered))
    rw [List.append_assoc trace] at walked
    exact walked
  obtain ⟨hydrated, stays⟩ : hydratedListed 1 ⟨0, 0⟩ (aoiStage gatheredServer) [aoiStage hydratingServer]
      (aoiStage (aoiTick hydratingServer)) = true ∧
      ∀ stage ∈ [aoiStage gatheredServer, aoiStage hydratingServer], houses stage.before ⟨0, 0⟩ 8 = true := by
    decide +kernel
  refine stayers_hydrated reunion_fits run (.of_listed hydrated) stays fun early stage late split _ => ?_
  have single : stage = aoiStage hydratingServer := by
    have listed : stage ∈ [aoiStage hydratingServer] := split ▸ List.mem_append_right _ List.mem_cons_self
    exact List.mem_singleton.mp listed
  exact single ▸ tick_spares hydratingServer 1 8

def rejoinScript : List SocketTurn := [callFrom 7, datagramFrom 7 [0, 7]]

def answeringServer : Server Int := polledBy hydratingServer rejoinScript

def rejoinedServer : Server Int := handleAll answeringServer 20000 [.connected 8, .data 8 [7]]

/-- The seventh player joins while the visits have one player to go. -/
def rejoinStages : List (Stage Int) :=
  ⟨hydratingServer, .poll 0 rejoinScript, answeringServer⟩ ::
    handling answeringServer 20000 [.connected 8, .data 8 [7]]

theorem stayer_missed : ∃ (earlier middle : List (Stage Int)) (first last : Stage Int) (server : Server Int),
    CellSnapshotsFit Int ∧ Run reunionDb (earlier ++ first :: middle ++ [last]) server [] ∧
      Hydrated 1 ⟨0, 0⟩ first middle last ∧
      (∀ stage ∈ first :: middle ++ [last],
        houses stage.before ⟨0, 0⟩ 8 = true ∧ houses stage.after ⟨0, 0⟩ 8 = true) ∧
      8 ∉ playersSent 1 ⟨0, 0⟩ (first :: middle ++ [last]) := by
  obtain ⟨trace, gathered⟩ := gathered_run
  have seen : (hydratingServer.host.pollWithWork 0 rejoinScript).toOption.map
      (fun after => after.events.map Prod.fst) = some [.connected 8, .data 8 [7]] := by decide +kernel
  have waiting : Run reunionDb _ answeringServer [.connected 8, .data 8 [7]] :=
    polledBy_run (aoi_run gathered) rejoinScript seen
  have joined : Run reunionDb _ rejoinedServer [] := handleAll_run [.connected 8, .data 8 [7]] 20000 waiting
  have walked := aoi_run (aoi_run joined)
  obtain ⟨hydrated, stays, missed⟩ : hydratedListed 1 ⟨0, 0⟩ (aoiStage gatheredServer)
        (rejoinStages ++ [aoiStage rejoinedServer]) (aoiStage (aoiTick rejoinedServer)) = true ∧
      (∀ stage ∈ aoiStage gatheredServer :: (rejoinStages ++ [aoiStage rejoinedServer]) ++
          [aoiStage (aoiTick rejoinedServer)],
        houses stage.before ⟨0, 0⟩ 8 = true ∧ houses stage.after ⟨0, 0⟩ 8 = true) ∧
      8 ∉ playersSent 1 ⟨0, 0⟩ (aoiStage gatheredServer :: (rejoinStages ++ [aoiStage rejoinedServer]) ++
        [aoiStage (aoiTick rejoinedServer)]) := by
    decide +kernel
  refine ⟨trace, rejoinStages ++ [aoiStage rejoinedServer], aoiStage gatheredServer,
    aoiStage (aoiTick rejoinedServer), aoiTick (aoiTick rejoinedServer), reunion_fits, ?_, .of_listed hydrated,
    stays, missed⟩
  simp only [List.append_assoc] at walked
  simp only [List.append_assoc]
  exact walked

end Reunion
end SailwindOnline.Hydration
