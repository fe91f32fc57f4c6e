import SailwindOnline.Moorage

/-!
Whose row a mooring replaces. Only a saved mooring changes the table, under the
key its sender asserts, so a run leaves every owner's rows alone exactly when
each saved mooring finds its key free or its sender's own.
-/

namespace SailwindOnline.MoorageOwnership
open Server Persistence PlayerTable Traces Effects TickEffects SessionRuns Moorage

/-! What leaves the table as it is. -/
section Frames
variable {F : Type} [Platform F] {server : Server F} {moment : Moment} {peer : PeerId}

omit [Platform F] in
theorem ledgerApply_moorings (faults : EconStore.StoreFaults) (nowMs : Int64) (db : Db F) (player : UInt64)
    (txn : Ledger.Txn) : (EconStore.ledgerApply faults nowMs db player txn).2.moorings = db.moorings := by
  rcases ledgerApply_tables faults nowMs db player txn with same | ⟨row, newBalance, committed⟩
  · rw [same]
  · rw [committed]
    rfl

omit [Platform F] in
theorem marketApply_moorings (faults : EconStore.StoreFaults) (nowMs : Int64) (db : Db F)
    (trade : Market.Trade) : (EconStore.marketApply faults nowMs db trade).2.moorings = db.moorings := by
  obtain ⟨market, marketTrades, committed⟩ := marketApply_tables faults nowMs db trade
  rw [committed]

theorem applyEcon_moorings (player : UInt64) (txn : Ledger.Txn) :
    (server.applyEcon moment peer player txn).1.db.moorings = server.db.moorings := by
  have kept := ledgerApply_moorings (storeFaults moment) moment.persistenceMs server.db player txn
  unfold applyEcon
  split <;> rename_i applied
  · rw [applied] at kept
    exact kept
  · rw [applied] at kept
    exact kept

theorem applyTrade_moorings (trade : Market.Trade) :
    (server.applyTrade moment peer trade).1.db.moorings = server.db.moorings := by
  have kept := marketApply_moorings (storeFaults moment) moment.persistenceMs server.db trade
  unfold applyTrade
  split <;> rename_i applied
  · rw [applied] at kept
    exact kept
  · rw [applied] at kept
    exact kept

theorem onEcon_moorings (txn : EconTxn) :
    (server.onEcon moment peer txn).1.db.moorings = server.db.moorings := by
  unfold onEcon
  split
  · rfl
  · simp only
    split
    · rfl
    · split
      · rfl
      · exact applyEcon_moorings _ _
      · split
        · exact applyEcon_moorings _ _
        · rfl

theorem onTrade_moorings (request : MarketTradeRequest) :
    (server.onTrade moment peer request).1.db.moorings = server.db.moorings := by
  unfold onTrade
  split
  · rfl
  · simp only
    split
    · rfl
    · exact applyTrade_moorings _
    · split
      · exact applyTrade_moorings _
      · unfold throttleTrade
        split <;> rfl

omit [Platform F] in
theorem admitted_moorings {db after : Db F} {tokenHash name : String} {now : Int64} {maxRows : UInt32}
    {admission : PlayerAdmission} (admitted : Admitted db tokenHash name now maxRows admission after) :
    after.moorings = db.moorings := by
  cases admitted <;> rfl

theorem enrolled_db (ip : IpAddr) (identityHash : String) (player : UInt64) (db : Db F) :
    (enrolled server moment peer ip identityHash player db).db = db := by
  unfold enrolled
  simp only
  split <;> rfl

theorem settleFlushed_db (player : UInt64) : (server.settleFlushed player).db = server.db := by
  unfold settleFlushed
  simp only
  split <;> rfl

theorem flushEach_moorings (fails : UInt64 → Bool) (now : Int64) (players : List UInt64) (server : Server F) :
    (flushEach fails now players server).1.db.moorings = server.db.moorings := by
  induction players generalizing server with
  | nil => rfl
  | cons player rest ih =>
      unfold flushEach
      split <;> rename_i touched
      · rfl
      · cases attempt_eq_ok touched
        rw [ih, settleFlushed_db]
        rfl

variable [Codec F]

omit [Codec F] in
theorem hello_moorings {hello : ClientHello} {handled : Handled F}
    (effect : HelloEffect server moment peer hello handled) : handled.1.db.moorings = server.db.moorings := by
  cases effect with
  | silent charges storage => exact (congrArg (fun view => view.db.moorings) charges.frame :)
  | answered charges other => exact (congrArg (fun view => view.db.moorings) charges.frame :)
  | full gated unknown crowded =>
      exact (congrArg (fun view => view.db.moorings) (identityCharged_frame server moment peer _ _) :)
  | faulted gated admitted fault => exact admitted_moorings admitted
  | repeated found greets => rfl
  | @joined identityHash name ip row db middle numbered generation reply gated admitted consistent
        superseded numbering greets =>
      have frame := entered_frame peer
        (withGeneration generation (firstSession server row.id.toUInt64 identityHash name)) reply
        superseded numbering
      have opened : (entered numbered peer (withGeneration generation
          (firstSession server row.id.toUInt64 identityHash name)) reply).db.moorings =
          (enrolled server moment peer ip identityHash row.id.toUInt64 db).db.moorings :=
        (congrArg (fun view => view.db.moorings) frame :)
      rw [opened, enrolled_db]
      exact admitted_moorings admitted

omit [Codec F] in
theorem onClientState_db (state : ClientState F) : (server.onClientState moment peer state).db = server.db := by
  unfold onClientState
  split
  · rfl
  · simp only
    split
    · rfl
    · split
      · rfl
      · unfold emitAoi scheduleAoi
        split
        · rfl
        · split <;> rfl

theorem queueChat_db (envelope : Envelope F) (cell : World.Cell) :
    (server.queueChat envelope cell).db = server.db := by
  unfold queueChat
  split
  · rfl
  · rcases captureFanoutRecipients_spec server with none_captured | ⟨audience, nextAudience, -, captured⟩
    · simp only [none_captured]
    · simp only [captured]

theorem onChat_db (chat : ChatSend) : (server.onChat moment peer chat).db = server.db := by
  unfold onChat
  split
  · rfl
  · split
    · rfl
    · simp only
      split
      · rfl
      · split
        · rfl
        · split
          · rfl
          · rw [queueChat_db]

/-- No datagram but a mooring request changes the table. -/
theorem handleDataAt_moorings {pending : List Event} (inv : Inv pending server) {bytes : WireProtocol.Bytes}
    (other : ∀ request, Codec.decode (F := F) bytes ≠ some (.moor request)) :
    (server.handleDataAt moment peer bytes).1.db.moorings = server.db.moorings := by
  unfold handleDataAt
  split <;> rename_i decoded
  · rfl
  · exact hello_moorings (onHelloAt_effect inv moment _)
  · exact congrArg Db.moorings (onClientState_db _)
  · exact onEcon_moorings _
  · exact onTrade_moorings _
  · exact absurd decoded (other _)
  · exact congrArg Db.moorings (onChat_db _)

omit [Codec F] in
theorem onDisconnect_moorings {pending : List Event} (inv : Inv pending server) :
    (server.onDisconnect moment peer).1.db.moorings = server.db.moorings := by
  cases found : server.sessions.get? peer with
  | none => rw [onDisconnect_absent moment found]
  | some session =>
      rw [onDisconnect_present inv moment found]
      unfold persistDeparture attempt
      cases moment.fails 0 <;> rfl

theorem tick_moorings (tick : Tick) : (tick.run server).db.moorings = server.db.moorings := by
  cases tick with
  | aoi fails => exact (congrArg (fun view => view.db.moorings) (processAoiWork_effect server fails).frame :)
  | snapshots => exact (congrArg (fun view => view.db.moorings) (broadcastSnapshots_effect server).frame :)
  | fanout => exact (congrArg (fun view => view.db.moorings) (processFanoutWork_run server).frame :)
  | dirtyFlush fails now =>
      show (server.processDirtyFlushAt fails now).1.db.moorings = server.db.moorings
      unfold processDirtyFlushAt
      split
      · rfl
      · exact flushEach_moorings _ _ _ _
  | beginFlush => rfl
  | clock clockMs => exact (congrArg (fun view => view.db.moorings) (broadcastClock_frame server clockMs) :)

end Frames

section Runs
variable {F : Type} [Platform F] [Codec F] {db : Db F} {trace : List (Stage F)} {server : Server F}
  {pending : List Event} {stage : Stage F}

/-- The player for whom a stage handles a datagram. -/
def senderOf (stage : Stage F) : Option UInt64 :=
  match stage.action with
  | .handle _ (.data peer _) => (stage.before.sessions.get? peer).map Session.playerId
  | _ => none

/-- Rows of anyone but the sender are left alone. -/
def Respects (stage : Stage F) : Prop :=
  ∀ row ∈ stage.before.db.moorings, (∀ player, senderOf stage = some player → row.owner ≠ player.toInt64) →
    row ∈ stage.after.db.moorings

/-- A mooring about to be saved finds no row of another player under its key. -/
def OwnKey (stage : Stage F) : Prop :=
  ∀ moment peer bytes request session motion, stage.action = .handle moment (.data peer bytes) →
    Codec.decode (F := F) bytes = some (.moor request) →
    stage.before.sessions.get? peer = some session →
    Accepts stage.before moment session request motion →
    ∀ row, mooringAt stage.before.db (moorKey session).toInt64 = some row →
      row.owner = session.playerId.toInt64

/-- A stage leaves the table alone or saves one mooring into it. -/
inductive TableStep (stage : Stage F) : Prop
  | kept (same : stage.after.db.moorings = stage.before.db.moorings)
      (idle : ∀ moment peer bytes request session motion, stage.action = .handle moment (.data peer bytes) →
        Codec.decode (F := F) bytes = some (.moor request) →
        stage.before.sessions.get? peer = some session →
        ¬ Accepts stage.before moment session request motion) : TableStep stage
  | saved {moment : Moment} {peer : PeerId} {bytes : WireProtocol.Bytes} {request : MoorRequest F}
      {session : Session F} {motion : Motion F} (handled : stage.action = .handle moment (.data peer bytes))
      (decoded : Codec.decode (F := F) bytes = some (.moor request))
      (seated : stage.before.sessions.get? peer = some session)
      (accepts : Accepts stage.before moment session request motion)
      (upserted : stage.after.db.moorings =
        Db.upsertMooringRow (mooredRow stage.before moment session request motion) stage.before.db.moorings) :
      TableStep stage

theorem moor_tableStep {moment : Moment} {peer : PeerId} {bytes : WireProtocol.Bytes} {request : MoorRequest F}
    (handled : stage.action = .handle moment (.data peer bytes))
    (decoded : Codec.decode (F := F) bytes = some (.moor request))
    (after : stage.after = (stage.before.onMoor moment peer request).1) : TableStep stage := by
  by_cases accepted : ∃ session, stage.before.sessions.get? peer = some session ∧
      ∃ motion, Accepts stage.before moment session request motion
  · obtain ⟨session, seated, motion, accepts⟩ := accepted
    refine .saved handled decoded seated accepts ?_
    rw [after, onMoor_accepted seated accepts]
    rfl
  · have refused : ∀ session, stage.before.sessions.get? peer = some session →
        ∀ motion, ¬ Accepts stage.before moment session request motion :=
      fun session seated motion accepts => accepted ⟨session, seated, motion, accepts⟩
    refine .kept (after ▸ congrArg Db.moorings (onMoor_refused refused).1) ?_
    intro other source data asked session motion same read seated
    rw [handled] at same
    cases same
    rw [decoded] at read
    cases read
    exact refused session seated motion

/-- Of all that a server does, only an accepted mooring request changes the table. -/
theorem lawful_tableStep (inv : Inv pending stage.before) (lawful : stage.Lawful) : TableStep stage := by
  obtain ⟨before, action, after⟩ := stage
  cases action with
  | poll now script =>
      obtain ⟨state, -, moved⟩ := lawful
      replace moved : after = { before with host := state.host } := moved
      subst moved
      exact .kept rfl (by rintro _ _ _ _ _ _ ⟨⟩)
  | tick tick =>
      have moved : after = tick.run before := lawful
      exact .kept (moved ▸ tick_moorings tick) (by rintro _ _ _ _ _ _ ⟨⟩)
  | handle moment event =>
      have moved : after = (before.handleEvent moment event).1 := lawful
      cases event with
      | connected peer =>
          subst moved
          exact .kept rfl (by rintro _ _ _ _ _ _ ⟨⟩)
      | disconnected peer reason =>
          exact .kept (moved ▸ onDisconnect_moorings inv) (by rintro _ _ _ _ _ _ ⟨⟩)
      | data peer bytes =>
          by_cases moor : ∃ request, Codec.decode (F := F) bytes = some (.moor request)
          · obtain ⟨request, decoded⟩ := moor
            refine moor_tableStep rfl decoded (moved.trans ?_)
            simp [handleEvent, handleDataAt, decoded]
          · have other : ∀ request, Codec.decode (F := F) bytes ≠ some (.moor request) :=
              fun request decoded => moor ⟨request, decoded⟩
            refine .kept (moved ▸ handleDataAt_moorings inv other) ?_
            rintro _ _ _ request _ _ ⟨⟩ decoded
            exact absurd decoded (other request)

theorem tableStep_keyed (step : TableStep stage) (keyed : Keyed stage.before.db.moorings) :
    Keyed stage.after.db.moorings := by
  cases step with
  | kept same idle => exact same ▸ keyed
  | saved handled decoded seated accepts upserted => exact upserted ▸ keyed_upsertMooringRow keyed

theorem run_tableSteps (keyed : Keyed db.moorings) (run : Run db trace server pending) :
    (∀ stage ∈ trace, TableStep stage ∧ Keyed stage.before.db.moorings) ∧ Keyed server.db.moorings := by
  have grown : ∀ (trace : List (Stage F)) (last : Stage F) (waiting : List Event), Inv waiting last.before →
      last.Lawful →
      (∀ stage ∈ trace, TableStep stage ∧ Keyed stage.before.db.moorings) ∧ Keyed last.before.db.moorings →
      (∀ stage ∈ trace ++ [last], TableStep stage ∧ Keyed stage.before.db.moorings) ∧
        Keyed last.after.db.moorings := by
    rintro trace last waiting inv lawful ⟨earlier, sorted⟩
    have step := lawful_tableStep inv lawful
    refine ⟨fun stage member => ?_, tableStep_keyed step sorted⟩
    rcases List.mem_append.mp member with old | final
    · exact earlier stage old
    · rw [List.mem_singleton.mp final]
      exact ⟨step, sorted⟩
  induction run with
  | start opened =>
      obtain ⟨identityPlayers, -, rfl⟩ := new_opened opened
      exact ⟨by simp, keyed⟩
  | @poll trace server state now script run polled ih =>
      exact grown trace ⟨server, .poll now script, { server with host := state.host }⟩ [] run.inv
        ⟨state, polled, rfl⟩ ih
  | @handle trace server event pending moment run ih =>
      exact grown trace ⟨server, .handle moment event, (server.handleEvent moment event).1⟩ _ run.inv rfl ih
  | @tick trace server pending tick run ih =>
      exact grown trace ⟨server, .tick tick, tick.run server⟩ _ run.inv rfl ih

omit [Codec F] in
/-- A saved mooring knows its sender. -/
theorem sender_of {moment : Moment} {peer : PeerId} {bytes : WireProtocol.Bytes} {session : Session F}
    (handled : stage.action = .handle moment (.data peer bytes))
    (seated : stage.before.sessions.get? peer = some session) : senderOf stage = some session.playerId := by
  simp [senderOf, handled, seated]

theorem respects_iff (keyed : Keyed stage.before.db.moorings) (step : TableStep stage) :
    Respects stage ↔ OwnKey stage := by
  constructor
  · intro respects moment peer bytes request session motion handled decoded seated accepts row found
    by_contra foreign
    have member : row ∈ stage.before.db.moorings := List.mem_of_find?_eq_some found
    have here : row.boatId = (moorKey session).toInt64 := by simpa using List.find?_some found
    have kept := respects row member fun player sent same => foreign (by
      rw [sender_of handled seated, Option.some.injEq] at sent
      rw [same, sent])
    cases step with
    | kept same idle => exact idle moment peer bytes request session motion handled decoded seated accepts
    | saved handledHere decodedHere seatedHere acceptsHere upserted =>
        rw [handled] at handledHere
        cases handledHere
        rw [seated] at seatedHere
        cases seatedHere
        rw [upserted, mem_upsertMooringRow keyed] at kept
        rcases kept with fresh | ⟨-, elsewhere⟩
        · exact foreign (by rw [fresh, merged_owner]; rfl)
        · exact elsewhere here
  · intro own row member foreign
    cases step with
    | kept same idle => exact same ▸ member
    | @saved moment peer bytes request session motion handled decoded seated accepts upserted =>
        rw [upserted, mem_upsertMooringRow keyed]
        refine Or.inr ⟨member, fun here => ?_⟩
        have found : mooringAt stage.before.db (moorKey session).toInt64 = some row := by
          have listed := mooringAt_of_mem keyed member
          rwa [here] at listed
        exact foreign session.playerId (sender_of handled seated)
          (own moment peer bytes request session motion handled decoded seated accepts row found)

/-- While every key is free or own, a row keeps its key and its owner. -/
theorem owner_kept (keyed : Keyed stage.before.db.moorings) (step : TableStep stage) (own : OwnKey stage)
    {row : MooringRow F} (member : row ∈ stage.before.db.moorings) :
    ∃ later ∈ stage.after.db.moorings, later.boatId = row.boatId ∧ later.owner = row.owner := by
  cases step with
  | kept same idle => exact ⟨row, same ▸ member, rfl, rfl⟩
  | @saved moment peer bytes request session motion handled decoded seated accepts upserted =>
      rw [upserted]
      by_cases here : row.boatId = (moorKey session).toInt64
      · have found : mooringAt stage.before.db (moorKey session).toInt64 = some row := by
          have listed := mooringAt_of_mem keyed member
          rwa [here] at listed
        refine ⟨_, (mem_upsertMooringRow keyed _).mpr (Or.inl rfl), ?_, ?_⟩
        · rw [merged_boatId, here]
          rfl
        · rw [merged_owner, own moment peer bytes request session motion handled decoded seated accepts row found]
          rfl
      · exact ⟨row, (mem_upsertMooringRow keyed _).mpr (Or.inr ⟨member, here⟩), rfl, rfl⟩

theorem owners_persist (keyed : Keyed db.moorings) (run : Run db trace server pending)
    (own : ∀ stage ∈ trace, OwnKey stage) :
    ∀ stage ∈ trace, ∀ row ∈ stage.before.db.moorings,
      ∃ later ∈ server.db.moorings, later.boatId = row.boatId ∧ later.owner = row.owner := by
  induction trace using List.reverseRecOn generalizing server pending with
  | nil => simp
  | append_singleton earlier last ih =>
      obtain ⟨lastStep, lastKeyed⟩ := (run_tableSteps keyed run).1 last (by simp)
      obtain ⟨⟨waiting, before⟩, -, rfl⟩ := run.unsnoc
      have ownLast := own last (by simp)
      intro stage member row listed
      rcases List.mem_append.mp member with old | final
      · obtain ⟨middle, present, key, owner⟩ :=
          ih before (fun other among => own other (by simp [among])) stage old row listed
        obtain ⟨later, stored, sameKey, sameOwner⟩ := owner_kept lastKeyed lastStep ownLast present
        exact ⟨later, stored, sameKey.trans key, sameOwner.trans owner⟩
      · rw [List.mem_singleton.mp final] at listed
        exact owner_kept lastKeyed lastStep ownLast listed

/-- A run respects the owners of the table at every stage exactly when each mooring it saves finds its
key free or its sender's own; every row then keeps its owner to the end of the run. -/
theorem mooring_owners_respected_iff (keyed : Keyed db.moorings) (run : Run db trace server pending) :
    ((∀ stage ∈ trace, Respects stage) ↔ ∀ stage ∈ trace, OwnKey stage) ∧
      ((∀ stage ∈ trace, OwnKey stage) → ∀ stage ∈ trace, ∀ row ∈ stage.before.db.moorings,
        ∃ later ∈ server.db.moorings, later.boatId = row.boatId ∧ later.owner = row.owner) := by
  have steps := (run_tableSteps keyed run).1
  refine ⟨⟨fun respects stage member => ?_, fun own stage member => ?_⟩, owners_persist keyed run⟩
  · obtain ⟨step, sorted⟩ := steps stage member
    exact (respects_iff sorted step).mp (respects stage member)
  · obtain ⟨step, sorted⟩ := steps stage member
    exact (respects_iff sorted step).mpr (own stage member)

end Runs

/-! Two players who moor. -/
section Quarrel

local instance mooringCodec : Codec Int where
  encode _ := List.replicate 64 0
  decode bytes :=
    if bytes = [1] then some (.hello (helloOf "first"))
    else if bytes = [2] then some (.hello (helloOf "second"))
    else if bytes = [3] then some (.state ⟨none, none, none, 2, 0⟩)
    else if bytes = [4] then some (.moor originRequest)
    else none

/-- Both moor on foot, and the first moors again. -/
def peacefulScript : List SocketTurn :=
  joinScript ++ [datagramFrom 1 [0, 4], datagramFrom 2 [0, 4], datagramFrom 1 [0, 4]]

def peacefulEvents : List Event := joinEvents ++ [.data 1 [4], .data 2 [4], .data 1 [4]]

def peacefulStages : List (Stage Int) :=
  ⟨freshServer, .poll 0 peacefulScript, scriptedServer peacefulScript⟩ ::
    handling (scriptedServer peacefulScript) 1000 peacefulEvents

def peacefulServer : Server Int := handleAll (scriptedServer peacefulScript) 1000 peacefulEvents

theorem peaceful_run : Run emptyDb peacefulStages peacefulServer [] := by
  have waiting : Run emptyDb _ (scriptedServer peacefulScript) (peacefulEvents ++ []) :=
    scripted_run peacefulScript (by decide +kernel)
  exact handleAll_run peacefulEvents 1000 waiting

/-- Whoever is seated holds the boats of the own key. -/
def OwnBoats (server : Server Int) : Prop :=
  ∀ peer ∈ server.sessions.keys, ∀ session ∈ server.sessions.get? peer, ∀ row ∈ server.db.moorings,
    row.boatId = (moorKey session).toInt64 → row.owner = session.playerId.toInt64

theorem OwnBoats.ownKey {stage : Stage Int} (own : OwnBoats stage.before) : OwnKey stage := by
  intro moment peer bytes request session motion _ _ seated _ row found
  have member : row ∈ stage.before.db.moorings := List.mem_of_find?_eq_some found
  have here : row.boatId = (moorKey session).toInt64 := by simpa using List.find?_some found
  exact own peer ((FiniteMap.mem_keys_iff_exists _ _).mpr ⟨session, seated⟩) session seated row member here

/-- All three moorings are saved and answered. -/
theorem mooring_owners_respected_peaceful : (∀ stage ∈ peacefulStages, Respects stage) ∧
    peacefulServer.db.moorings.map (fun row => (row.boatId, row.owner, row.createdAt)) = [(1, 1, 5000), (2, 2, 6000)] ∧
    (peacefulServer.sent.filter fun post => topicOf post.2.payload = .reply).length = 3 := by
  have sorted : Keyed (emptyDb : Db Int).moorings := List.Pairwise.nil
  have own : ∀ stage ∈ peacefulStages, OwnBoats stage.before := by
    unfold OwnBoats
    decide +kernel
  refine ⟨(mooring_owners_respected_iff sorted peaceful_run).1.mpr fun stage member => (own stage member).ownKey, ?_⟩
  decide +kernel

/-! The first player says it is aboard boat 2, and the second is on foot and has the id 2. -/

def quarrelScript : List SocketTurn :=
  joinScript ++ [datagramFrom 1 [0, 3], datagramFrom 1 [0, 4], datagramFrom 2 [0, 4]]

def quarrelEvents : List Event := joinEvents ++ [.data 1 [3], .data 1 [4], .data 2 [4]]

def connectedServer : Server Int :=
  match freshServer.host.pollWithWork 0 quarrelScript with
  | .error _ => freshServer
  | .ok state => { freshServer with host := state.host }

/-- The server before the second player's mooring. -/
def contestedServer : Server Int :=
  let first := (connectedServer.handleEvent (calmAt 1000) (.data 1 [1])).1
  let second := (first.handleEvent (calmAt 2000) (.data 2 [2])).1
  let aboard := (second.handleEvent (calmAt 3000) (.data 1 [3])).1
  (aboard.handleEvent (calmAt 3000) (.data 1 [4])).1

def seizure : Stage Int :=
  ⟨contestedServer, .handle (calmAt 4000) (.data 2 [4]),
    (contestedServer.handleEvent (calmAt 4000) (.data 2 [4])).1⟩

theorem quarrel_run : ∃ trace, Run emptyDb (trace ++ [seizure]) seizure.after [] := by
  have waiting : Run emptyDb _ connectedServer quarrelEvents := scripted_run quarrelScript (by decide +kernel)
  have greeted : Run emptyDb _ connectedServer _ := .handle (calmAt 0) (.handle (calmAt 0) waiting)
  exact ⟨_, .handle (calmAt 4000) (.handle (calmAt 3000) (.handle (calmAt 3000)
    (.handle (calmAt 2000) (.handle (calmAt 1000) greeted))))⟩

/-- The second player's mooring replaces and re-owns the boat the first one moored. -/
theorem foreign_mooring_seized :
    ∃ trace server, Run emptyDb trace server [] ∧ Keyed (emptyDb : Db Int).moorings ∧
      ∃ stage ∈ trace, ¬ Respects stage := by
  obtain ⟨trace, run⟩ := quarrel_run
  refine ⟨_, _, run, List.Pairwise.nil, seizure, by simp, fun respects => ?_⟩
  have sender : senderOf seizure = some 2 := by decide +kernel
  have before : seizure.before.db.moorings.map (fun row => (row.boatId, row.owner)) = [(2, 1)] := by
    decide +kernel
  have after : seizure.after.db.moorings.map MooringRow.owner = [2] := by decide +kernel
  obtain ⟨row, rest, split⟩ := List.exists_cons_of_length_eq_add_one
    (show seizure.before.db.moorings.length = 0 + 1 by simpa using congrArg List.length before)
  rw [split, List.map_cons, List.cons.injEq, Prod.mk.injEq] at before
  have kept := respects row (by rw [split]; exact List.mem_cons_self) fun player sent => by
    rw [sender, Option.some.injEq] at sent
    rw [before.1.2, ← sent]
    decide
  have owned : row.owner ∈ seizure.after.db.moorings.map MooringRow.owner := List.mem_map_of_mem kept
  rw [after, before.1.2] at owned
  exact absurd owned (by decide)

end Quarrel

end SailwindOnline.MoorageOwnership
