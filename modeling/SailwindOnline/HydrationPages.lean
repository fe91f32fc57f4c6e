import SailwindOnline.Hydration
import SailwindOnline.Moorage

/-!
Hydration page by page. A visit to a recipient publishes cells of its interest, or
moves the hydration of one cell by a page of players, by a mooring or to its end.
What it does depends only on the session and on the scene: who is there, where,
and the moorings table.
-/

namespace SailwindOnline.HydrationPages
open World (Cell)
open OrderedSet CursorScan Server Persistence SessionIndex Effects TickEffects Traces Interest Hydration

section Scenes
variable {F : Type}

structure Scene (F : Type) where
  players : Finset UInt64
  houses : Cell → UInt64 → Bool
  moorings : List (MooringRow F)

namespace Scene

def housed (scene : Scene F) (cell : Cell) : List UInt64 :=
  (ascending scene.players).filter (scene.houses cell)

def berths (scene : Scene F) (cell : Cell) : List (MooringRow F) :=
  scene.moorings.filter fun row => decide (row.cellX = cell.cx ∧ row.cellZ = cell.cz)

/-- The rows that a hydration has still to read. -/
def unread (scene : Scene F) (hydration : CellHydration) : List (MooringRow F) :=
  (scene.berths hydration.cell).filter fun row =>
    decide (Beyond (hydration.mooringCursor.map Int64.toInt) row.boatId.toInt)

end Scene

def nameFits (row : MooringRow F) : Bool := decide (row.name.utf8ByteSize ≤ maxMooringNameBytes)

/-- What one cell snapshot tells of. -/
structure Page (F : Type) where
  cell : Cell
  players : List UInt64
  moorings : List (MooringSnap F)

def pageOf (envelope : Envelope F) : Option (Page F) :=
  match envelope.payload with
  | .cellSnapshot cell players _ moorings => some ⟨cell, players.map PlayerSnap.playerId, moorings⟩
  | _ => none

def pagesTo (peer : PeerId) (posts : List (PeerId × Envelope F)) : List (Page F) :=
  posts.filterMap fun post => if post.1 = peer then pageOf post.2 else none

theorem pagesTo_append (peer : PeerId) (early late : List (PeerId × Envelope F)) :
    pagesTo peer (early ++ late) = pagesTo peer early ++ pagesTo peer late :=
  List.filterMap_append

theorem pagesTo_other_peers {peer : PeerId} {posts : List (PeerId × Envelope F)}
    (others : ∀ post ∈ posts, post.1 ≠ peer) : pagesTo peer posts = [] := by
  apply List.filterMap_eq_nil_iff.mpr
  intro post member
  exact if_neg (others post member)

/-! What one visit does to a session, and the pages it sends. -/

def freshHydration (scene : Scene F) (cell : Cell) : CellHydration :=
  { cell, playersRemaining := scene.players.card, playersComplete := decide (scene.players.card = 0) }

/-- The hydration a visit works on, and the session that holds it. -/
inductive Begins (scene : Scene F) (session : Session F) : Session F → CellHydration → Prop
  | standing {hydration : CellHydration} (active : session.activeHydration = some hydration) :
      Begins scene session session hydration
  | fresh {cell : Cell} (idle : session.activeHydration = none) (waiting : cell ∈ session.hydrationCells) :
      Begins scene session
        { session with
          hydrationCells := session.hydrationCells.erase cell
          hydrationCursor := some cell
          activeHydration := some (freshHydration scene cell) }
        (freshHydration scene cell)

/-- The hydration after a scan that met `taken`. -/
def scanned (hydration : CellHydration) (taken found : List UInt64) : CellHydration :=
  { hydration with
    playerCursor := taken.getLast?.or hydration.playerCursor
    playersRemaining := hydration.playersRemaining - taken.length
    playersComplete := decide (hydration.playersRemaining - taken.length = 0 ∨ taken = [])
    sentAny := hydration.sentAny || !found.isEmpty }

def read (hydration : CellHydration) (row : MooringRow F) : CellHydration :=
  { hydration with mooringCursor := some row.boatId, sentAny := hydration.sentAny || nameFits row }

inductive Act (scene : Scene F) (hydration : CellHydration) : Option CellHydration → List (Page F) → Prop
  | scans {taken : List UInt64} (unfinished : hydration.playersComplete = false)
      (walked : taken <+: circle scene.players hydration.playerCursor)
      (within : taken.length ≤ hydration.playersRemaining)
      (some : hydration.playersRemaining ≠ 0 → scene.players.Nonempty → taken ≠ []) :
      Act scene hydration (.some (scanned hydration taken (taken.filter (scene.houses hydration.cell))))
        (if (taken.filter (scene.houses hydration.cell)).isEmpty then []
          else [⟨hydration.cell, taken.filter (scene.houses hydration.cell), []⟩])
  | reads {row : MooringRow F} {rest : List (MooringRow F)} (complete : hydration.playersComplete = true)
      (next : scene.unread hydration = row :: rest) :
      Act scene hydration (.some (read hydration row))
        (if nameFits row then [⟨hydration.cell, [], [mooringSnap row]⟩] else [])
  | completes (complete : hydration.playersComplete = true) (none : scene.unread hydration = []) :
      Act scene hydration .none (if hydration.sentAny then [] else [⟨hydration.cell, [], []⟩])

inductive Visit (scene : Scene F) (session : Session F) : Session F → List (Page F) → Prop
  | publishes (unsettled : session.publishedCells ≠ session.sub.cells) :
      Visit scene session (applyAoiChunk session (aoiChunk session)) []
  | rests {later : Session F} (settled : session.publishedCells = session.sub.cells)
      (idle : session.activeHydration = none) (done : session.hydrationCells = ∅)
      (same : interestOf later = interestOf session) : Visit scene session later []
  | hydrates {prepared : Session F} {hydration : CellHydration} {after : Option CellHydration}
      {pages : List (Page F)} (settled : session.publishedCells = session.sub.cells)
      (begins : Begins scene session prepared hydration) (act : Act scene hydration after pages) :
      Visit scene session { prepared with activeHydration := after } pages

end Scenes

/-! The visits of the server. -/
section Visits
variable {F : Type} [Platform F] {server middle after : Server F} {peer : PeerId} {session : Session F}

def sceneOf (server : Server F) : Scene F := ⟨server.playerOrder, houses server, server.db.moorings⟩

theorem sceneOf_keeps (keeps : KeepsIndex server after) (same : after.db.moorings = server.db.moorings) :
    sceneOf after = sceneOf server := by
  have housed : houses after = houses server := by
    funext cell player
    exact houses_of_keeps keeps cell player
  rw [sceneOf, sceneOf, keeps.order, same, housed]

/-- The new datagrams bring `peer` these pages. -/
def Sends (peer : PeerId) (server after : Server F) (pages : List (Page F)) : Prop :=
  ∃ posts, after.sent = server.sent ++ posts ∧ pagesTo peer posts = pages

theorem Sends.of_sent_eq (same : after.sent = server.sent) : Sends peer server after [] :=
  ⟨[], by simp [same], rfl⟩

theorem Sends.trans {early late : List (Page F)} (first : Sends peer server middle early)
    (second : Sends peer middle after late) : Sends peer server after (early ++ late) := by
  obtain ⟨posts, grown, told⟩ := first
  obtain ⟨more, grownAgain, toldAgain⟩ := second
  refine ⟨posts ++ more, by rw [grownAgain, grown, List.append_assoc], ?_⟩
  rw [pagesTo_append, told, toldAgain]

theorem Sends.elsewhere {other : PeerId} (apart : other ≠ peer) (addressed : Addressed other server after) :
    Sends peer server after [] := by
  obtain ⟨posts, grown, own⟩ := addressed
  refine ⟨posts, grown, pagesTo_other_peers fun post member => ?_⟩
  rw [own post member]
  exact apart

variable [Codec F]

/-- Assumed of the codec: a snapshot of one mooring with a name within the limit fits one datagram. -/
def MooringPagesFit (F : Type) [Codec F] : Prop :=
  ∀ seq cell (mooring : MooringSnap F), mooring.name.utf8ByteSize ≤ maxMooringNameBytes →
    (Codec.encode ({ seq, payload := .cellSnapshot cell [] [] [mooring] } : Envelope F)).length ≤ payloadLimit

theorem sendCellSnapshot_sends (found : server.sessions.get? peer = some session) (cell : Cell)
    (sessions : List (Session F)) (moorings : List (MooringSnap F))
    (fit : (Codec.encode (⟨server.seq + 1,
      .cellSnapshot cell (playerSnaps sessions) (boatSnaps sessions) moorings⟩ : Envelope F)).length ≤ payloadLimit) :
    (server.sendCellSnapshot peer cell sessions moorings).sessions.get? peer =
        some { session with
          activeHydration := session.activeHydration.map fun hydration => { hydration with sentAny := true } } ∧
      Sends peer server (server.sendCellSnapshot peer cell sessions moorings)
        [⟨cell, sessions.map Session.playerId, moorings⟩] := by
  have posted : server.postBounded peer (.cellSnapshot cell (playerSnaps sessions) (boatSnaps sessions) moorings) =
      (server.post peer (.cellSnapshot cell (playerSnaps sessions) (boatSnaps sessions) moorings), true) := by
    unfold postBounded
    rw [if_neg (not_lt.mpr fit)]
  unfold sendCellSnapshot
  rw [posted]
  refine ⟨get?_modifyHydration found _, ?_⟩
  refine ⟨_, rfl, ?_⟩
  simp [pagesTo, pageOf, playerSnaps, playerSnap]

/-- What a piece of work on the hydration in progress leaves `peer` with. -/
structure Acts (peer : PeerId) (session : Session F) (hydration : CellHydration) (server after : Server F) : Prop where
  act : ∃ next pages, Act (sceneOf server) hydration next pages ∧ Sends peer server after pages ∧
    after.sessions.get? peer = some { session with activeHydration := next }

theorem hydratePlayers_acts (fits : CellSnapshotsFit F) {hydration : CellHydration}
    (found : server.sessions.get? peer = some session) (active : session.activeHydration = some hydration)
    (unfinished : hydration.playersComplete = false) :
    Acts peer session hydration server (server.hydratePlayers peer hydration).1 := by
  obtain ⟨taken, surveyed⟩ := scanPlayers_surveyed server hydration
  unfold hydratePlayers
  simp only
  generalize scanPlayers server hydration.cell (server.playerCandidatesAfter hydration.playerCursor
    (min hydration.playersRemaining cellEntityScanPerWork)) {} = scan at surveyed ⊢
  have act : Act (sceneOf server) hydration _ _ :=
    .scans unfinished surveyed.walked surveyed.within surveyed.some
  have recorded := get?_modifyHydration found fun hydration => recordScan hydration scan
  have marked : recordScan hydration scan = { scanned hydration taken [] with sentAny := hydration.sentAny } := by
    simp [recordScan, scanned, surveyed.examined, surveyed.last, unfinished, List.length_eq_zero_iff]
  rw [active, Option.map_some, marked] at recorded
  refine ⟨_, _, act, ?_⟩
  have same : (sceneOf server).houses hydration.cell = houses server hydration.cell := rfl
  rw [same, ← surveyed.told]
  split <;> rename_i nothing
  · rw [List.isEmpty_iff] at nothing
    rw [nothing]
    refine ⟨.of_sent_eq rfl, ?_⟩
    rw [recorded]
    simp [scanned]
  · obtain ⟨kept, sends⟩ := sendCellSnapshot_sends recorded hydration.cell scan.found []
      (fits _ _ _ _ surveyed.players surveyed.boats)
    have crowd : (scan.found.map Session.playerId).isEmpty = false := by
      simpa [List.isEmpty_map] using nothing
    rw [crowd]
    refine ⟨sends, ?_⟩
    rw [kept]
    simp [scanned, crowd]

theorem hydrateMooring_acts (fits : MooringPagesFit F) {hydration : CellHydration} {row : MooringRow F}
    {rest : List (MooringRow F)} (found : server.sessions.get? peer = some session)
    (active : session.activeHydration = some hydration) (complete : hydration.playersComplete = true)
    (next : (sceneOf server).unread hydration = row :: rest) :
    Acts peer session hydration server (server.hydrateMooring peer hydration row) := by
  have marked := get?_modifyHydration found fun hydration => { hydration with mooringCursor := some row.boatId }
  rw [active, Option.map_some] at marked
  refine ⟨_, _, .reads complete next, ?_⟩
  unfold hydrateMooring
  simp only
  split <;> rename_i fit
  · have short : nameFits row = true := by simpa [nameFits] using fit
    obtain ⟨kept, sends⟩ := sendCellSnapshot_sends marked hydration.cell [] [mooringSnap row] (fits _ _ _ fit)
    rw [if_pos short]
    refine ⟨sends, ?_⟩
    rw [kept]
    simp [read, short]
  · have long : nameFits row = false := by simpa [nameFits] using fit
    rw [if_neg (by simp [long])]
    refine ⟨.of_sent_eq rfl, ?_⟩
    rw [marked]
    simp [read, long]

theorem completeHydration_acts (fits : CellSnapshotsFit F) {hydration : CellHydration}
    (found : server.sessions.get? peer = some session) (complete : hydration.playersComplete = true)
    (none : (sceneOf server).unread hydration = []) :
    Acts peer session hydration server (server.completeHydration peer hydration).1 := by
  refine ⟨_, _, .completes complete none, ?_⟩
  unfold completeHydration
  split
  · refine ⟨.of_sent_eq rfl, ?_⟩
    simp [modifySession, FiniteMap.get?_modify, found]
  · have fit := fits (server.seq + 1) hydration.cell [] [] (Nat.zero_le _) (Nat.zero_le _)
    refine ⟨⟨[(peer, ⟨server.seq + 1, .cellSnapshot hydration.cell [] [] []⟩)], ?_, ?_⟩, ?_⟩
    · unfold postBounded
      rw [if_neg (not_lt.mpr fit)]
      rfl
    · simp [pagesTo, pageOf]
    · simp [modifySession, FiniteMap.get?_modify, postBounded_sessions, found]

omit [Codec F] in
theorem nextAoiChunk_settled (found : server.sessions.get? peer = some session)
    (settled : session.publishedCells = session.sub.cells) : server.nextAoiChunk peer = (server, none) := by
  have nothing : ascending (∅ : Finset Cell) = [] := by
    rw [← List.length_eq_zero_iff, ascending_length, Finset.card_empty]
  unfold nextAoiChunk
  simp [found, aoiChunk, settled, nothing]

omit [Codec F] in
/-- The session a visit prepares works on what is published, within the same scene. -/
theorem prepareCellHydration_begins (found : server.sessions.get? peer = some session) (tidy : Tidy session)
    (settled : session.publishedCells = session.sub.cells) :
    (server.prepareCellHydration peer).1.sent = server.sent ∧
      ∃ prepared, (server.prepareCellHydration peer).1.sessions.get? peer = some prepared ∧
        (((server.prepareCellHydration peer).2 = none ∧ session.activeHydration = none ∧
            session.hydrationCells = ∅ ∧ interestOf prepared = interestOf session) ∨
          ∃ hydration, (server.prepareCellHydration peer).2 = some hydration ∧
            prepared.activeHydration = some hydration ∧ Begins (sceneOf server) session prepared hydration) := by
  unfold prepareCellHydration
  simp only [found, modifySession, FiniteMap.get?_modify, if_true, Option.map_some]
  refine ⟨trivial, _, rfl, ?_⟩
  cases active : session.activeHydration with
  | some hydration =>
      right
      simp only [prepareHydration, standing_settled tidy settled active]
      refine ⟨hydration, rfl, rfl, ?_⟩
      have same : { session with activeHydration := some hydration } = session := by rw [← active]
      rw [same]
      exact .standing active
  | none =>
      have standing : standingHydration session = none := by simp [standingHydration, active]
      simp only [prepareHydration, standing]
      cases next : nextHydrationCell session.hydrationCells session.hydrationCursor with
      | none =>
          refine Or.inl ⟨rfl, trivial, ?_, ?_⟩
          · unfold nextHydrationCell at next
            rw [Option.or_eq_none_iff, List.head?_eq_none_iff] at next
            rw [← Finset.card_eq_zero, ← ascending_length, next.2, List.length_nil]
          · rw [interestOf, interestOf, active]
      | some cell => exact Or.inr ⟨_, rfl, rfl, .fresh active (nextHydrationCell_mem next)⟩

omit [Codec F] in
/-- The rows after the cursor are the next page, of which a visit takes the first row. -/
theorem mooringsInCellAfter_unread (server : Server F) (hydration : CellHydration) :
    server.db.mooringsInCellAfter hydration.cell.cx hydration.cell.cz hydration.mooringCursor
        (min cellMooringsPerPacket maxMooringsPageRows) =
      .ok (((sceneOf server).unread hydration).take (min cellMooringsPerPacket maxMooringsPageRows)) := by
  unfold Db.mooringsInCellAfter
  rw [if_pos (by decide)]
  congr 2
  rw [Scene.unread, Scene.berths, List.filter_filter]
  apply List.filter_congr
  intro row _
  rw [Bool.and_comm]
  congr 1
  cases hydration.mooringCursor <;> simp [Beyond, Int64.lt_iff_toInt_lt]

theorem processOneAoiWork_visit (fits : CellSnapshotsFit F) (mooringsFit : MooringPagesFit F)
    (found : server.sessions.get? peer = some session) (tidy : Tidy session) :
    ∃ later pages, (server.processOneAoiWork peer false).1.sessions.get? peer = some later ∧
      Sends peer server (server.processOneAoiWork peer false).1 pages ∧
      Visit (sceneOf server) session later pages := by
  rcases nextAoiChunk_cases found with settled | chunking
  · have published := settled_published found settled
    obtain ⟨sent, prepared, present, cases⟩ := prepareCellHydration_begins found tidy published
    have scene : sceneOf (server.prepareCellHydration peer).1 = sceneOf server := by
      refine sceneOf_keeps (keeps_prepareCellHydration server peer) ?_
      exact (congrArg (fun frame => frame.db.moorings) (prepareCellHydration_effect server peer).frame :)
    unfold processOneAoiWork
    simp only [settled]
    generalize server.prepareCellHydration peer = preparation at present sent cases scene ⊢
    obtain ⟨middle, hydrating⟩ := preparation
    simp only at present sent cases scene
    rcases cases with ⟨rfl, idle, done, same⟩ | ⟨hydration, rfl, active, begins⟩
    · exact ⟨prepared, [], present, .of_sent_eq sent, .rests published idle done same⟩
    have worked : ∀ after : Server F, Acts peer prepared hydration middle after →
        ∃ later pages, after.sessions.get? peer = some later ∧ Sends peer server after pages ∧
          Visit (sceneOf server) session later pages := by
      rintro after ⟨next, pages, act, sends, kept⟩
      exact ⟨_, pages, kept, (Sends.of_sent_eq sent).trans sends, .hydrates published begins (scene ▸ act)⟩
    simp only
    cases complete : hydration.playersComplete with
    | false => exact worked _ (hydratePlayers_acts fits present active complete)
    | true =>
        rw [mooringsInCellAfter_unread]
        simp only [Bool.not_true, Bool.false_eq_true, if_false, attempt]
        cases next : (sceneOf middle).unread hydration with
        | nil => exact worked _ (completeHydration_acts fits present complete next)
        | cons row rest => exact worked _ (hydrateMooring_acts mooringsFit present active complete next)
  · have unsettled : session.publishedCells ≠ session.sub.cells := by
      intro settled
      rw [nextAoiChunk_settled found settled] at chunking
      cases congrArg Prod.snd chunking
    unfold processOneAoiWork
    simp only [chunking]
    refine ⟨applyAoiChunk session (aoiChunk session), [], ?_, ?_, .publishes unsettled⟩
    · rw [postBounded_sessions]
      simp [modifySession, FiniteMap.get?_modify, found]
    · unfold postBounded
      split
      · exact .of_sent_eq rfl
      · exact ⟨_, rfl, by simp [pagesTo, pageOf]⟩

/-! The calls of the fixed tick. -/

/-- A visit to another recipient. -/
structure Aside (peer : PeerId) (server after : Server F) : Prop where
  session : after.sessions.get? peer = server.sessions.get? peer
  scene : sceneOf after = sceneOf server
  silent : Sends peer server after []

omit [Codec F] in
theorem Aside.trans (first : Aside peer server middle) (second : Aside peer middle after) :
    Aside peer server after :=
  ⟨second.session.trans first.session, second.scene.trans first.scene, first.silent.trans second.silent⟩

omit [Codec F] in
theorem Aside.foldl {Item : Type} {step : Server F → Item → Server F} {items : List Item}
    (each : ∀ item ∈ items, ∀ server, Aside peer server (step server item)) (server : Server F) :
    Aside peer server (items.foldl step server) := by
  induction items generalizing server with
  | nil => exact ⟨rfl, rfl, .of_sent_eq rfl⟩
  | cons item rest ih =>
      apply (each item List.mem_cons_self server).trans
      exact ih (fun later member => each later (List.mem_cons_of_mem item member)) _

theorem serveAoiRecipient_scene (fails : PeerId → Bool) (server : Server F) (peer : PeerId) :
    sceneOf (serveAoiRecipient fails server peer) = sceneOf server := by
  refine sceneOf_keeps (keeps_serveAoiRecipient fails server peer) ?_
  exact (congrArg (fun frame => frame.db.moorings) (serveAoiRecipient_effect fails server peer).frame :)

theorem serveAoiRecipient_aside {other : PeerId} (apart : peer ≠ other) (fails : PeerId → Bool)
    (server : Server F) : Aside peer server (serveAoiRecipient fails server other) := by
  constructor
  · exact (serveAoiRecipient_elsewhere apart fails server).session
  · exact serveAoiRecipient_scene fails server other
  · exact .elsewhere apart.symm (addressed_serveAoiRecipient fails server other)

/-- The fixed tick's interest work, with every page read. -/
def aoiCall (server : Server F) : Server F := server.processAoiWork fun _ => false

def aoiServed (server : Server F) : List PeerId :=
  orderedPeersAfter server.aoiRecipients server.aoiRecipientCursor aoiWorkItemsPerTick

def aoiMarked (server : Server F) : Server F :=
  { server with aoiRecipientCursor := (aoiServed server).getLast?.or server.aoiRecipientCursor }

theorem aoiCall_eq (server : Server F) :
    aoiCall server = (aoiServed server).foldl (serveAoiRecipient fun _ => false) (aoiMarked server) := rfl

omit [Codec F] in
theorem aoiMarked_aside (server : Server F) (peer : PeerId) : Aside peer server (aoiMarked server) :=
  ⟨rfl, rfl, .of_sent_eq rfl⟩

theorem aoiCall_keeps (server : Server F) : KeepsIndex server (aoiCall server) := keeps_processAoiWork server _

theorem aoiCall_scene (server : Server F) : sceneOf (aoiCall server) = sceneOf server := by
  refine sceneOf_keeps (aoiCall_keeps server) ?_
  exact (congrArg (fun frame => frame.db.moorings) (processAoiWork_effect server fun _ => false).frame :)

theorem aoiCall_aside (passed : peer ∉ aoiServed server) : Aside peer server (aoiCall server) := by
  rw [aoiCall_eq]
  refine (aoiMarked_aside server peer).trans (Aside.foldl ?_ _)
  intro other listed server
  refine serveAoiRecipient_aside ?_ _ server
  rintro rfl
  exact passed listed

theorem serveAoiRecipient_visit (fits : CellSnapshotsFit F) (mooringsFit : MooringPagesFit F)
    (found : server.sessions.get? peer = some session) (tidy : Tidy session) :
    ∃ later pages, (serveAoiRecipient (fun _ => false) server peer).sessions.get? peer = some later ∧
      Sends peer server (serveAoiRecipient (fun _ => false) server peer) pages ∧
      Visit (sceneOf server) session later pages := by
  have present : ({ server with aoiRecipients := server.aoiRecipients.erase peer } : Server F).sessions.get? peer =
      some session := found
  obtain ⟨later, pages, kept, sends, visit⟩ := processOneAoiWork_visit fits mooringsFit present tidy
  unfold serveAoiRecipient
  simp only [found, Option.isNone_some, Bool.false_eq_true, if_false]
  refine ⟨later, pages, ?_⟩
  split
  · unfold scheduleAoi
    split <;> exact ⟨kept, sends, visit⟩
  · exact ⟨kept, sends, visit⟩

theorem aoiCall_visit (fits : CellSnapshotsFit F) (mooringsFit : MooringPagesFit F)
    (found : server.sessions.get? peer = some session) (tidy : Tidy session) (served : peer ∈ aoiServed server) :
    ∃ later pages, (aoiCall server).sessions.get? peer = some later ∧ Sends peer server (aoiCall server) pages ∧
      Visit (sceneOf server) session later pages := by
  have unique : (aoiServed server).Nodup := by
    rw [aoiServed, orderedPeersAfter, orderedAfter_eq_take]
    exact (circle_nodup _ _).sublist (List.take_sublist _ _)
  rw [aoiCall_eq]
  obtain ⟨earlier, late, split⟩ := List.append_of_mem served
  rw [split] at unique ⊢
  rw [List.nodup_append] at unique
  obtain ⟨-, rest, apart⟩ := unique
  have before : Aside peer server (earlier.foldl (serveAoiRecipient fun _ => false) (aoiMarked server)) := by
    refine (aoiMarked_aside server peer).trans (Aside.foldl ?_ _)
    intro other listed server
    refine serveAoiRecipient_aside ?_ _ server
    rintro rfl
    exact apart peer listed peer List.mem_cons_self rfl
  rw [List.foldl_append, List.foldl_cons]
  generalize earlier.foldl (serveAoiRecipient fun _ => false) (aoiMarked server) = begun at before ⊢
  obtain ⟨later, pages, kept, sends, visit⟩ :=
    serveAoiRecipient_visit fits mooringsFit (before.session.trans found) tidy
  have behind : Aside peer (serveAoiRecipient (fun _ => false) begun peer)
      (late.foldl (serveAoiRecipient fun _ => false) (serveAoiRecipient (fun _ => false) begun peer)) := by
    refine Aside.foldl ?_ _
    intro other listed server
    refine serveAoiRecipient_aside ?_ _ server
    rintro rfl
    exact (List.nodup_cons.mp rest).1 listed
  refine ⟨later, pages, behind.session.trans kept, ?_, before.scene ▸ visit⟩
  have whole := (before.silent.trans sends).trans behind.silent
  rwa [List.nil_append, List.append_nil] at whole

end Visits
end SailwindOnline.HydrationPages
