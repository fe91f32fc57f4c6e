import SailwindOnline.PlayerIdentity

/-!
The economy's tables and the moorings as a log of what players were told. A
request is answered in the stage that handles it; the answers that say accepted
and are no replays, taken in order over all processes of one file, are exactly
what the file holds, but for a request whose process died before it was told.
What was acknowledged once is there for good, and what was refused is nowhere.
-/

namespace SailwindOnline.RequestLog
open MachineInt Persistence Ledger EconStore EconService Server Traces Effects TickEffects SessionRuns TableWrites
  TableLaws Lifetimes Disclosure DatabaseFile Enrolment Moorage MoorageOwnership PlayerTable

/-! The tables that requests write. -/
section Records
variable {F : Type} {before after : Db F}

inductive Entry (F : Type) where
  | posting (row : LedgerRow)
  | trade (row : TradeRow)
  | mooring (row : MooringRow F)

structure Records (F : Type) where
  ledger : List LedgerRow
  marketTrades : List TradeRow
  market : FiniteMap (UInt32 × UInt32) (Int64 × Int64)
  moorings : List (MooringRow F)

def Records.empty : Records F := ⟨[], [], FiniteMap.empty, []⟩

def Records.add (records : Records F) : Entry F → Records F
  | .posting row => { records with ledger := records.ledger ++ [row] }
  | .trade row =>
      { records with
        marketTrades := records.marketTrades ++ [row]
        market := records.market.insert (row.portId, row.itemId) (row.stock, row.price) }
  | .mooring row => { records with moorings := Db.upsertMooringRow row records.moorings }

def recordsOf (db : Db F) : Records F := ⟨db.ledger, db.marketTrades, db.market, db.moorings⟩

theorem records_committed (db : Db F) (row : LedgerRow) (newBalance : Int64) :
    recordsOf (committedDb db row newBalance) = (recordsOf db).add (.posting row) := rfl

theorem records_traded (db : Db F) (row : TradeRow) :
    recordsOf (tradedDb db row) = (recordsOf db).add (.trade row) := rfl

theorem records_moored (db : Db F) (row : MooringRow F) :
    recordsOf (db.upsertMooring row) = (recordsOf db).add (.mooring row) := rfl

theorem records_admitted {identityHash name : String} {now : Int64} {maxRows : UInt32} {admission : PlayerAdmission}
    (admitted : Admitted before identityHash name now maxRows admission after) : recordsOf after = recordsOf before := by
  cases admitted with
  | returning member own => rfl
  | full unknown crowded => rfl
  | newcomer unknown room next => rfl

end Records

/-! One request against its table. -/
section Tables
variable {F : Type} {faults : StoreFaults} {nowMs : Int64} {db : Db F}

/-- A ledger request fails, finds its id in the log, is posted, or is refused. -/
inductive LedgerAnswer (db : Db F) (player : UInt64) (txn : Txn) (nowMs : Int64) :
    Except DbError LedgerAck × Db F → Prop
  | failed (failure : DbError) : LedgerAnswer db player txn nowMs (.error failure, db)
  | replayed {owner newBalance : Int64} (recorded : db.lookupTxn txn.txnId.toInt64 = some (owner, newBalance)) :
      LedgerAnswer db player txn nowMs (.ok ⟨txn.txnId, true, newBalance, replayReason⟩, db)
  | posted (newBalance : Int64) :
      LedgerAnswer db player txn nowMs
        (.ok ⟨txn.txnId, true, newBalance, ""⟩, committedDb db (ledgerRow player txn nowMs) newBalance)
  | refused (balance : Int64) (reason : String) (unrecorded : db.lookupTxn txn.txnId.toInt64 = none) :
      LedgerAnswer db player txn nowMs (.ok ⟨txn.txnId, false, balance, reason⟩, db)

theorem ledgerApply_answer (faults : StoreFaults) (nowMs : Int64) (db : Db F) (player : UInt64) (txn : Txn) :
    LedgerAnswer db player txn nowMs (ledgerApply faults nowMs db player txn) := by
  unfold ledgerApply
  split <;> rename_i applied
  · unfold Ledger.apply at applied
    split at applied <;> rename_i looked
    · cases applied
    · cases applied
      obtain ⟨found, known, rfl⟩ := Option.map_eq_some_iff.mp (Except.ok.inj (attempt_eq_ok looked))
      exact .replayed known
    have missing : db.lookupTxn txn.txnId.toInt64 = none := by
      have found := Except.ok.inj (attempt_eq_ok looked)
      simpa using found
    split at applied
    · cases applied
    split at applied
    · split at applied
      · split at applied <;> rename_i stored
        · cases applied
        · cases applied
          obtain ⟨after, written, rfl⟩ := attempt_map_ok stored
          obtain ⟨-, rfl⟩ := commitTxn_fresh written
          exact .posted _
      · cases applied
        exact .refused _ _ missing
    · cases applied
      exact .refused _ _ missing
  · exact .failed _

/-- The row a trade is told to have written. -/
def tradeRow (ack : Market.MarketAck) (nowMs : Int64) : TradeRow :=
  ⟨ack.txnId.toInt64, ack.portId, ack.itemId, ack.stock, ack.price, nowMs⟩

inductive TradeAnswer (db : Db F) (trade : Market.Trade) (nowMs : Int64) :
    Except DbError Market.MarketAck × Db F → Prop
  | failed (failure : DbError) : TradeAnswer db trade nowMs (.error failure, db)
  | replayed {row : TradeRow} (recorded : row ∈ db.marketTrades) (own : row.txnId = trade.txnId.toInt64) :
      TradeAnswer db trade nowMs
        (.ok ⟨trade.txnId, true, row.portId, row.itemId, row.stock, row.price, replayReason⟩, db)
  | traded (stock price : Int64) :
      TradeAnswer db trade nowMs (.ok ⟨trade.txnId, true, trade.portId, trade.itemId, stock, price, ""⟩,
        tradedDb db ⟨trade.txnId.toInt64, trade.portId, trade.itemId, stock, price, nowMs⟩)
  | refused (stock price : Int64) (reason : String)
      (unrecorded : ∀ row ∈ db.marketTrades, row.txnId ≠ trade.txnId.toInt64) :
      TradeAnswer db trade nowMs (.ok (Market.reject trade stock price reason), db)

theorem commitTrade_traded {after : Db F} {txnId : UInt64} {portId itemId : UInt32} {stock price now : Int64}
    (committed : db.commitTrade txnId portId itemId stock price now = .ok after) :
    after = tradedDb db ⟨txnId.toInt64, portId, itemId, stock, price, now⟩ := by
  unfold Db.commitTrade at committed
  split at committed <;> rename_i converted
  · cases committed
  · obtain ⟨-, rfl⟩ := (tryI64_some_iff _ _).mp converted
    split at committed
    · cases committed
    · cases committed
      rfl

theorem lookupTrade_found {txnId : UInt64} {found : Option TradeRow} (looked : db.lookupTrade txnId = .ok found) :
    found = db.marketTrades.find? fun row => row.txnId = txnId.toInt64 := by
  unfold Db.lookupTrade at looked
  split at looked <;> rename_i converted
  · cases looked
  · obtain ⟨-, rfl⟩ := (tryI64_some_iff _ _).mp converted
    exact (Except.ok.inj looked).symm

theorem lookupTrade_none {txnId : UInt64} (looked : db.lookupTrade txnId = .ok none) :
    ∀ row ∈ db.marketTrades, row.txnId ≠ txnId.toInt64 := by
  have missing := (lookupTrade_found looked).symm
  intro row member own
  have other := List.find?_eq_none.mp missing row member
  simp [own] at other

theorem marketApply_answer (faults : StoreFaults) (nowMs : Int64) (db : Db F) (trade : Market.Trade) :
    TradeAnswer db trade nowMs (marketApply faults nowMs db trade) := by
  unfold marketApply
  split <;> rename_i applied
  · unfold Market.apply at applied
    split at applied <;> rename_i looked
    · cases applied
    · cases applied
      obtain ⟨found, known, recorded⟩ := attempt_map_ok looked
      rw [lookupTrade_found known] at recorded
      obtain ⟨row, first, rfl⟩ := Option.map_eq_some_iff.mp recorded.symm
      have own : row.txnId = trade.txnId.toInt64 := by simpa using List.find?_some first
      exact .replayed (List.mem_of_find?_eq_some first) own
    have missing : ∀ row ∈ db.marketTrades, row.txnId ≠ trade.txnId.toInt64 := by
      obtain ⟨found, known, recorded⟩ := attempt_map_ok looked
      rw [Option.map_eq_none_iff.mp recorded.symm] at known
      exact lookupTrade_none known
    split at applied
    · cases applied
    split at applied
    · cases applied
      exact .refused _ _ _ missing
    split at applied
    · split at applied
      · split at applied <;> rename_i stored
        · cases applied
        · cases applied
          obtain ⟨after, written, rfl⟩ := attempt_map_ok stored
          rw [commitTrade_traded written]
          exact .traded _ _
      · cases applied
        exact .refused _ _ _ missing
    · cases applied
      exact .refused _ _ _ missing
  · exact .failed _

end Tables

/-! What a stage shows of the write it made. -/
section Stages
variable {F : Type} [Platform F]

def answerOf (stage : Stage F) : Option (ServerMessage F) := stage.posted.head?.map fun post => post.2.payload

/-- The row that a snap describes. -/
def mooringOf (snap : MooringSnap F) : MooringRow F :=
  { boatId := snap.boatId.toInt64
    owner := snap.owner.toInt64
    cellX := snap.cell.1
    cellZ := snap.cell.2
    pos := snap.pos
    rot := snap.rot
    name := snap.name
    createdAt := snap.createdAt.toInt64 }

omit [Platform F] in
theorem mooringOf_snap (row : MooringRow F) : mooringOf (mooringSnap row) = row := rfl

variable [Codec F]

/-- The write a stage acknowledges: an accepted answer that is not called a replay. -/
def entryOf (stage : Stage F) : Option (Entry F) :=
  match stage.action with
  | .handle moment (.data peer bytes) =>
      match Codec.decode (F := F) bytes, answerOf stage with
      | some (.econ txn), some (.ledgerAck ack) =>
          if ack.accepted ∧ ack.reason ≠ replayReason then
            (stage.before.sessions.get? peer).map fun session =>
              .posting (ledgerRow session.playerId (txnOf txn) moment.persistenceMs)
          else none
      | some (.trade _), some (.marketStateAck ack) =>
          if ack.accepted ∧ ack.reason ≠ replayReason then some (.trade (tradeRow ack moment.persistenceMs)) else none
      | some (.moor _), some (.moorAck true (some snap) _) => some (.mooring (mooringOf snap))
      | _, _ => none
  | _ => none

/-- The tables a stage leaves are those it found, with the write it acknowledges. -/
def Logged (stage : Stage F) : Prop :=
  recordsOf stage.after.db = (entryOf stage).elim (recordsOf stage.before.db) (recordsOf stage.before.db).add

end Stages

/-! Handlers. -/
section Handlers
variable {F : Type} [Platform F] {server charged after : Server F} {moment : Moment} {peer : PeerId}

/-- Nothing was written or said, or one answer was posted beside the tables it is about. -/
inductive Answered {Ack : Type} (server : Server F) (peer : PeerId) (message : Ack → ServerMessage F)
    (answer : Ack → Db F → Prop) (after : Server F) : Prop
  | silent (tables : after.db = server.db) (quiet : after.sent = server.sent) : Answered server peer message answer after
  | told {ack : Ack} {seq : UInt32} (answers : answer ack after.db)
      (posted : after.sent = server.sent ++ [(peer, ⟨seq, message ack⟩)]) : Answered server peer message answer after

/-- What a ledger request of a seated player is answered. -/
def EconAnswer (server : Server F) (moment : Moment) (peer : PeerId) (txn : EconTxn) (ack : LedgerAck) (db : Db F) : Prop :=
  ∃ session, server.sessions.get? peer = some session ∧
    LedgerAnswer server.db session.playerId (txnOf txn) moment.persistenceMs (.ok ack, db)

theorem applyEcon_answer {session : Session F} {txn : EconTxn} (found : server.sessions.get? peer = some session)
    (tables : charged.db = server.db) (quiet : charged.sent = server.sent) :
    Answered server peer .ledgerAck (EconAnswer server moment peer txn)
      (charged.applyEcon moment peer session.playerId (txnOf txn)).1 := by
  have answer := ledgerApply_answer (storeFaults moment) moment.persistenceMs charged.db session.playerId (txnOf txn)
  rw [tables] at answer
  unfold applyEcon
  rw [tables]
  split <;> rename_i applied
  · rw [applied] at answer
    cases answer
    exact .silent rfl quiet
  · rw [applied] at answer
    apply Answered.told
    · exact ⟨session, found, answer⟩
    · show charged.sent ++ _ = _
      rw [quiet]

/-- A ledger request is answered out of the table, or not at all. -/
theorem onEcon_answer (txn : EconTxn) :
    Answered server peer .ledgerAck (EconAnswer server moment peer txn) (server.onEcon moment peer txn).1 := by
  unfold onEcon
  split <;> rename_i found
  · exact .silent rfl rfl
  · simp only
    split
    · exact .silent rfl rfl
    split
    · exact .silent rfl rfl
    · exact applyEcon_answer found rfl rfl
    · split
      · apply applyEcon_answer found <;> rfl
      · exact .silent rfl rfl

theorem applyTrade_answer {trade : Market.Trade} (tables : charged.db = server.db) (quiet : charged.sent = server.sent) :
    Answered server peer .marketStateAck
      (fun ack db => TradeAnswer server.db trade moment.persistenceMs (.ok ack, db))
      (charged.applyTrade moment peer trade).1 := by
  have answer := marketApply_answer (storeFaults moment) moment.persistenceMs charged.db trade
  rw [tables] at answer
  unfold applyTrade
  rw [tables]
  split <;> rename_i applied
  · rw [applied] at answer
    cases answer
    exact .silent rfl quiet
  · rw [applied] at answer
    apply Answered.told
    · exact answer
    · show charged.sent ++ _ = _
      rw [quiet]

/-- A trade is answered out of the table, also when its player is throttled. -/
theorem onTrade_answer (request : MarketTradeRequest) :
    Answered server peer .marketStateAck
      (fun ack db => TradeAnswer server.db (tradeOf request) moment.persistenceMs (.ok ack, db))
      (server.onTrade moment peer request).1 := by
  unfold onTrade
  split
  · exact .silent rfl rfl
  · simp only
    split <;> rename_i looked
    · exact .silent rfl rfl
    · exact applyTrade_answer rfl rfl
    · split
      · apply applyTrade_answer <;> rfl
      · unfold throttleTrade
        split <;> rename_i state _
        · exact .silent rfl rfl
        · apply Answered.told
          · exact .refused (state.getD (0, 0)).1 (state.getD (0, 0)).2 "rate limited"
              (lookupTrade_none (attempt_eq_ok looked))
          · rfl

abbrev MoorAck (F : Type) := Bool × Option (MooringSnap F) × String

inductive MoorAnswer (db : Db F) : MoorAck F → Db F → Prop
  | refused (reason : String) : MoorAnswer db (false, none, reason) db
  | saved (row : MooringRow F) : MoorAnswer db (true, some (mooringSnap row), "") (db.upsertMooring row)

variable [Codec F]

theorem onMoor_answer (request : MoorRequest F) :
    Answered server peer (fun ack : MoorAck F => .moorAck ack.1 ack.2.1 ack.2.2) (MoorAnswer server.db)
      (server.onMoor moment peer request).1 := by
  by_cases accepted : ∃ session, server.sessions.get? peer = some session ∧
      ∃ motion, Accepts server moment session request motion
  · obtain ⟨session, seated, motion, accepts⟩ := accepted
    rw [onMoor_accepted seated accepts]
    apply Answered.told
    · exact .saved (mooredRow server moment session request motion)
    · rfl
  · have refused : ∀ session, server.sessions.get? peer = some session →
        ∀ motion, ¬ Accepts server moment session request motion :=
      fun session seated motion accepts => accepted ⟨session, seated, motion, accepts⟩
    obtain ⟨tables, quiet | posted⟩ := onMoor_refused refused
    · exact .silent tables quiet
    · have refusal : MoorAnswer server.db (false, none, moorNameTooLongReason)
          (server.onMoor moment peer request).1.db := by
        rw [tables]
        exact .refused _
      exact .told refusal posted

/-! What the other handlers post. -/

/-- At most one datagram was posted, to `peer` and about `topic`. -/
def PostsOne (topic : Topic) (peer : PeerId) (server after : Server F) : Prop :=
  after.sent = server.sent ∨
    ∃ seq message, topicOf message = topic ∧ after.sent = server.sent ++ [(peer, ⟨seq, message⟩)]

omit [Codec F] in
theorem PostsOne.post {topic : Topic} {message : ServerMessage F} (quiet : charged.sent = server.sent)
    (about : topicOf message = topic) : PostsOne topic peer server (charged.post peer message) := by
  right
  refine ⟨charged.seq + 1, message, about, ?_⟩
  rw [← quiet]
  rfl

omit [Codec F] in
/-- A hello is answered at most once, to its sender. -/
theorem hello_postsOne {hello : ClientHello} {handled : Handled F} (effect : HelloEffect server moment peer hello handled) :
    PostsOne .hello peer server handled.1 := by
  have identity : ∀ {identityHash name : String} {ip : IpAddr}, Gated server moment peer hello identityHash name ip →
      (identityCharged server moment peer ip identityHash).sent = server.sent := fun gated =>
    charges_sent (.identity gated.presented gated.fresh)
  cases effect with
  | silent charges storage => exact Or.inl (charges_sent charges)
  | answered charges other => exact .post (charges_sent charges) rfl
  | full gated unknown crowded => exact .post (identity gated) rfl
  | faulted gated admitted fault => exact Or.inl (identity gated)
  | repeated found greets => exact .post rfl rfl
  | @joined identityHash name ip row db middle numbered generation reply gated admitted consistent
        superseded numbering greets =>
      have posted := entered_sent peer
        (withGeneration generation (firstSession server row.id.toUInt64 identityHash name)) reply superseded numbering
      rw [(enrolled_calm server moment peer ip identityHash row.id.toUInt64 db).2] at posted
      exact Or.inr ⟨_, _, rfl, posted⟩

omit [Codec F] in
theorem onClientState_sent (state : ClientState F) : (server.onClientState moment peer state).sent = server.sent := by
  unfold onClientState
  split
  · rfl
  · simp only
    split
    · rfl
    · split
      · rfl
      · unfold emitAoi scheduleAoi
        split
        · rfl
        · split <;> rfl

theorem queueChat_sent (envelope : Envelope F) (cell : World.Cell) :
    (server.queueChat envelope cell).sent = server.sent := by
  unfold queueChat
  split
  · rfl
  · rcases captureFanoutRecipients_spec server with none_captured | ⟨audience, nextAudience, -, captured⟩
    · simp only [none_captured]
    · simp only [captured]

theorem onChat_sent (chat : ChatSend) : (server.onChat moment peer chat).sent = server.sent := by
  unfold onChat
  split
  · rfl
  · split
    · rfl
    · simp only
      split
      · rfl
      · split
        · rfl
        · split
          · rfl
          · rw [queueChat_sent]

omit [Codec F] in
theorem onDisconnect_sent {pending : List Event} (inv : Inv pending server) :
    (server.onDisconnect moment peer).1.sent = server.sent := by
  cases found : server.sessions.get? peer with
  | none => rw [onDisconnect_absent moment found]
  | some session =>
      rw [onDisconnect_present inv moment found]
      unfold persistDeparture attempt
      cases moment.fails 0 <;> rfl

/-! Everything else leaves these tables alone. -/

omit [Codec F] in
theorem hello_records {hello : ClientHello} {handled : Handled F}
    (effect : HelloEffect server moment peer hello handled) : recordsOf handled.1.db = recordsOf server.db := by
  cases effect with
  | silent charges storage => exact (congrArg (fun view => recordsOf view.db) charges.frame :)
  | answered charges other => exact (congrArg (fun view => recordsOf view.db) charges.frame :)
  | full gated unknown crowded =>
      exact (congrArg (fun view => recordsOf view.db) (identityCharged_frame server moment peer _ _) :)
  | faulted gated admitted fault => exact records_admitted admitted
  | repeated found greets => rfl
  | @joined identityHash name ip row db middle numbered generation reply gated admitted consistent
        superseded numbering greets =>
      rw [PlayerIdentity.joined_db superseded numbering]
      exact records_admitted admitted

omit [Codec F] in
theorem onDisconnect_records {pending : List Event} (inv : Inv pending server) :
    recordsOf (server.onDisconnect moment peer).1.db = recordsOf server.db := by
  cases found : server.sessions.get? peer with
  | none => rw [onDisconnect_absent moment found]
  | some session =>
      rw [onDisconnect_present inv moment found]
      unfold persistDeparture attempt
      cases moment.fails 0 <;> rfl

omit [Codec F] in
theorem flushEach_records (fails : UInt64 → Bool) (now : Int64) (players : List UInt64) (server : Server F) :
    recordsOf (flushEach fails now players server).1.db = recordsOf server.db := by
  induction players generalizing server with
  | nil => rfl
  | cons player rest ih =>
      unfold flushEach
      split <;> rename_i touched
      · rfl
      · cases attempt_eq_ok touched
        rw [ih, settleFlushed_db]
        rfl

theorem tick_records (tick : Tick) : recordsOf (tick.run server).db = recordsOf server.db := by
  cases tick with
  | aoi fails => exact (congrArg (fun view => recordsOf view.db) (processAoiWork_effect server fails).frame :)
  | snapshots => exact (congrArg (fun view => recordsOf view.db) (broadcastSnapshots_effect server).frame :)
  | fanout => exact (congrArg (fun view => recordsOf view.db) (processFanoutWork_run server).frame :)
  | dirtyFlush fails now =>
      show recordsOf (server.processDirtyFlushAt fails now).1.db = recordsOf server.db
      unfold processDirtyFlushAt
      split
      · rfl
      · exact flushEach_records _ _ _ _
  | beginFlush => rfl
  | clock clockMs => exact (congrArg (fun view => recordsOf view.db) (broadcastClock_frame server clockMs) :)

end Handlers

/-! What one stage writes. -/
section Steps
variable {F : Type} [Platform F] [Codec F] {stage : Stage F} {peer : PeerId} {moment : Moment}
  {bytes : WireProtocol.Bytes} {pending : List Event}

/-- The stage handles `message`, sent by `peer`. -/
structure Hears (stage : Stage F) (moment : Moment) (peer : PeerId) (message : ClientMessage F) : Prop where
  heard : ∃ bytes, stage.action = .handle moment (.data peer bytes) ∧ Codec.decode (F := F) bytes = some message

/-- A stage handles a request for one of the tables, or leaves them all alone and answers nobody. -/
inductive Exchange (stage : Stage F) : Prop
  | other (kept : recordsOf stage.after.db = recordsOf stage.before.db) (unwritten : entryOf stage = none)
      (posts : ∀ post ∈ stage.posted, topicOf post.2.payload ≠ .reply) : Exchange stage
  | econ {moment : Moment} {peer : PeerId} {txn : EconTxn} (hears : Hears stage moment peer (.econ txn))
      (answered : Answered stage.before peer .ledgerAck (EconAnswer stage.before moment peer txn) stage.after) :
      Exchange stage
  | trade {moment : Moment} {peer : PeerId} {request : MarketTradeRequest} (hears : Hears stage moment peer (.trade request))
      (answered : Answered stage.before peer .marketStateAck
        (fun ack db => TradeAnswer stage.before.db (tradeOf request) moment.persistenceMs (.ok ack, db)) stage.after) :
      Exchange stage
  | moor {moment : Moment} {peer : PeerId} {request : MoorRequest F} (hears : Hears stage moment peer (.moor request))
      (answered : Answered stage.before peer (fun ack : MoorAck F => .moorAck ack.1 ack.2.1 ack.2.2)
        (MoorAnswer stage.before.db) stage.after) : Exchange stage

omit [Codec F] in
theorem unanswered_of_posts {topics : List Topic} (posts : Posts topics stage.before stage.after)
    (silent : Topic.reply ∉ topics) : ∀ post ∈ stage.posted, topicOf post.2.payload ≠ .reply := by
  obtain ⟨new, grown, about⟩ := posts
  rw [Stage.posted_eq grown]
  intro post member reply
  exact silent (reply ▸ about post member)

omit [Codec F] in
theorem unanswered_of_postsOne {topic : Topic} (said : PostsOne topic peer stage.before stage.after) (other : topic ≠ .reply) :
    ∀ post ∈ stage.posted, topicOf post.2.payload ≠ .reply := by
  rcases said with quiet | ⟨seq, message, about, grown⟩
  · simp [Stage.posted, quiet]
  · rw [Stage.posted_eq grown]
    intro post member
    rw [List.mem_singleton.mp member, about]
    exact other

theorem tick_exchange {before : Server F} {db : Db F} (reached : Reachable db before pending) (tick : Tick) :
    Exchange ⟨before, .tick tick, tick.run before⟩ := by
  apply Exchange.other (tick_records tick) rfl
  have quiet : ∀ {topics : List Topic}, Posts topics before (tick.run before) → Topic.reply ∉ topics →
      ∀ post ∈ (⟨before, .tick tick, tick.run before⟩ : Stage F).posted, topicOf post.2.payload ≠ .reply :=
    fun posts silent => unanswered_of_posts posts silent
  cases tick with
  | aoi fails => exact quiet (processAoiWork_effect before fails).posts (by decide)
  | snapshots => exact quiet (broadcastSnapshots_effect before).posts (by decide)
  | fanout => exact quiet ((processFanoutWork_run before).posts (reachable_jobsAbout reached)).1 (by decide)
  | dirtyFlush fails now => exact quiet (processDirtyFlushAt_effect before fails now).posts (by decide)
  | beginFlush => exact quiet (posts_of_sent_eq rfl : Posts [] _ _) (by decide)
  | clock clockMs =>
      have silent := (congrArg Server.sent (broadcastClock_frame before clockMs) :)
      exact quiet (posts_of_sent_eq silent : Posts [] _ _) (by decide)

theorem data_exchange {before : Server F} (inv : Inv pending before) (moment : Moment) (peer : PeerId)
    (bytes : WireProtocol.Bytes) :
    Exchange ⟨before, .handle moment (.data peer bytes), (before.handleDataAt moment peer bytes).1⟩ := by
  have unsaid : ∀ {after : Server F}, after.sent = before.sent → PostsOne .hello peer before after := Or.inl
  cases decoded : Codec.decode (F := F) bytes with
  | none =>
      have after : (before.handleDataAt moment peer bytes).1 = before := by simp only [handleDataAt, decoded]
      apply Exchange.other
      · simp only [after]
      · simp only [entryOf, decoded]
      · exact unanswered_of_postsOne (unsaid (congrArg Server.sent after)) (by decide)
  | some message =>
      cases message with
      | hello hello =>
          have effect : HelloEffect before moment peer hello _ := onHelloAt_effect inv moment hello
          have after : (before.handleDataAt moment peer bytes).1 = (before.onHelloAt moment peer hello).1 := by
            simp only [handleDataAt, decoded]
          rw [after]
          apply Exchange.other
          · exact hello_records effect
          · simp only [entryOf, decoded]
          · exact unanswered_of_postsOne (hello_postsOne effect) (by decide)
      | state state =>
          have after : (before.handleDataAt moment peer bytes).1 = before.onClientState moment peer state := by
            simp only [handleDataAt, decoded]
          rw [after]
          apply Exchange.other
          · simp only [onClientState_db]
          · simp only [entryOf, decoded]
          · exact unanswered_of_postsOne (unsaid (onClientState_sent _)) (by decide)
      | chat chat =>
          have after : (before.handleDataAt moment peer bytes).1 = before.onChat moment peer chat := by
            simp only [handleDataAt, decoded]
          rw [after]
          apply Exchange.other
          · simp only [onChat_db]
          · simp only [entryOf, decoded]
          · exact unanswered_of_postsOne (unsaid (onChat_sent _)) (by decide)
      | econ txn =>
          apply Exchange.econ ⟨bytes, rfl, decoded⟩
          simp only [handleDataAt, decoded]
          exact onEcon_answer txn
      | trade request =>
          apply Exchange.trade ⟨bytes, rfl, decoded⟩
          simp only [handleDataAt, decoded]
          exact onTrade_answer request
      | moor request =>
          apply Exchange.moor ⟨bytes, rfl, decoded⟩
          simp only [handleDataAt, decoded]
          exact onMoor_answer request

theorem stage_exchange {db : Db F} (reached : Reachable db stage.before pending) (lawful : stage.Lawful) :
    Exchange stage := by
  obtain ⟨before, action, after⟩ := stage
  cases action with
  | poll now script =>
      obtain ⟨state, -, moved⟩ := lawful
      replace moved : after = { before with host := state.host } := moved
      subst moved
      exact .other rfl rfl (by simp [Stage.posted])
  | tick tick =>
      obtain rfl : after = tick.run before := lawful
      exact tick_exchange reached tick
  | handle moment event =>
      obtain rfl : after = (before.handleEvent moment event).1 := lawful
      cases event with
      | connected peer => exact .other rfl rfl (by simp [Stage.posted, handleEvent])
      | data peer bytes => exact data_exchange reached.inv moment peer bytes
      | disconnected peer reason =>
          apply Exchange.other (onDisconnect_records reached.inv) rfl
          simp [Stage.posted, handleEvent, onDisconnect_sent reached.inv]

/-! What a stage acknowledges is what it wrote. -/

omit [Codec F] in
theorem answerOf_silent (quiet : stage.after.sent = stage.before.sent) : answerOf stage = none := by
  simp [answerOf, Stage.posted, quiet]

omit [Codec F] in
theorem answerOf_told {seq : UInt32} {message : ServerMessage F}
    (posted : stage.after.sent = stage.before.sent ++ [(peer, ⟨seq, message⟩)]) : answerOf stage = some message := by
  simp [answerOf, Stage.posted, posted]

theorem logged_of_none (kept : recordsOf stage.after.db = recordsOf stage.before.db) (unwritten : entryOf stage = none) :
    Logged stage := by
  rw [Logged, unwritten]
  exact kept

theorem econ_logged {txn : EconTxn} (hears : Hears stage moment peer (.econ txn))
    (answered : Answered stage.before peer .ledgerAck (EconAnswer stage.before moment peer txn) stage.after) :
    Logged stage := by
  obtain ⟨bytes, action, decoded⟩ := hears
  cases answered with
  | silent tables quiet =>
      apply logged_of_none
      · rw [tables]
      · simp only [entryOf, action, decoded, answerOf_silent quiet]
  | told answers posted =>
      obtain ⟨session, found, answer⟩ := answers
      have told := answerOf_told posted
      generalize outcome : stage.after.db = db at answer
      cases answer with
      | replayed recorded =>
          apply logged_of_none
          · rw [outcome]
          · simp [entryOf, action, decoded, told]
      | posted newBalance =>
          simp [Logged, entryOf, action, decoded, told, found, outcome, records_committed, replayReason]
      | refused balance reason unrecorded =>
          apply logged_of_none
          · rw [outcome]
          · simp [entryOf, action, decoded, told]

theorem trade_logged {request : MarketTradeRequest} (hears : Hears stage moment peer (.trade request))
    (answered : Answered stage.before peer .marketStateAck
      (fun ack db => TradeAnswer stage.before.db (tradeOf request) moment.persistenceMs (.ok ack, db)) stage.after) :
    Logged stage := by
  obtain ⟨bytes, action, decoded⟩ := hears
  cases answered with
  | silent tables quiet =>
      apply logged_of_none
      · rw [tables]
      · simp only [entryOf, action, decoded, answerOf_silent quiet]
  | told answer posted =>
      have told := answerOf_told posted
      generalize outcome : stage.after.db = db at answer
      cases answer with
      | replayed recorded own =>
          apply logged_of_none
          · rw [outcome]
          · simp [entryOf, action, decoded, told]
      | traded stock price =>
          simp [Logged, entryOf, action, decoded, told, outcome, records_traded, replayReason, tradeRow]
      | refused stock price reason unrecorded =>
          apply logged_of_none
          · rw [outcome]
          · simp [entryOf, action, decoded, told, Market.reject]

theorem moor_logged {request : MoorRequest F} (hears : Hears stage moment peer (.moor request))
    (answered : Answered stage.before peer (fun ack : MoorAck F => .moorAck ack.1 ack.2.1 ack.2.2)
      (MoorAnswer stage.before.db) stage.after) : Logged stage := by
  obtain ⟨bytes, action, decoded⟩ := hears
  cases answered with
  | silent tables quiet =>
      apply logged_of_none
      · rw [tables]
      · simp only [entryOf, action, decoded, answerOf_silent quiet]
  | told answer posted =>
      have told := answerOf_told posted
      generalize outcome : stage.after.db = db at answer
      cases answer with
      | refused reason =>
          apply logged_of_none
          · rw [outcome]
          · simp only [entryOf, action, decoded, told]
      | saved row =>
          simp only [Logged, entryOf, action, decoded, told, outcome, records_moored, mooringOf_snap]
          rfl

theorem Exchange.logged (exchange : Exchange stage) : Logged stage := by
  cases exchange with
  | other kept unwritten posts => exact logged_of_none kept unwritten
  | econ hears answered => exact econ_logged hears answered
  | trade hears answered => exact trade_logged hears answered
  | moor hears answered => exact moor_logged hears answered

end Steps

/-! Runs and processes. -/
section Histories
variable {F : Type} [Platform F] [Codec F] {lives : List (Life F)} {file : DbFile F} {db : Db F}
  {trace : List (Stage F)} {opened server : Server F} {pending : List Event}

/-- What the stages of a run acknowledged to have written, oldest first. -/
def entriesOf (trace : List (Stage F)) : List (Entry F) := trace.filterMap entryOf

/-- An entry that the process may have died on: the request after its last stage wrote it and was never answered. -/
def Unanswered (life : Life F) (entry : Entry F) : Prop :=
  ∃ stage : Stage F, stage.Lawful ∧ stage.before = life.last ∧ entryOf stage = some entry

/-- What the processes on a file acknowledged, oldest first, and after each what it died on. -/
def entriesUntil (lives : List (Life F)) (lost : List (Option (Entry F))) : List (Entry F) :=
  (lives.zip lost).flatMap fun ended => entriesOf ended.1.trace ++ ended.2.toList

/-- The file holds these entries in this order and nothing else. -/
structure Replays (lives : List (Life F)) (file : DbFile F) (lost : List (Option (Entry F))) : Prop where
  unanswered : List.Forall₂ (fun life entry => ∀ held ∈ entry, Unanswered life held) lives lost
  records : recordsOf file.rows = (entriesUntil lives lost).foldl Records.add Records.empty

theorem Replays.snoc {cfg : ValidConfig F} {moment : DbFile.BootMoment} {after : DbFile F} {written : Db F}
    {lost : List (Option (Entry F))} {entry : Option (Entry F)} {life : Life F} (history : History lives file)
    (replays : Replays lives file lost) (booted : file.boot cfg moment = (after, .ok life.opened))
    (held : ∀ own ∈ entry, Unanswered life own)
    (ended : recordsOf written = (entriesOf life.trace ++ entry.toList).foldl Records.add (recordsOf life.opened.db)) :
    Replays (lives ++ [life]) (after.holding written) (lost ++ [entry]) := by
  have chronicle := history_chronicle history
  have own := chronicle.opened_db booted
  obtain ⟨-, -, starts⟩ := DbFile.boot_grown chronicle.sound chronicle.stamped cfg moment
  rw [booted] at starts
  have described := starts life.opened rfl
  have longer : entriesUntil (lives ++ [life]) (lost ++ [entry]) =
      entriesUntil lives lost ++ (entriesOf life.trace ++ entry.toList) := by
    simp [entriesUntil, List.zip_append replays.unanswered.length_eq]
  constructor
  · exact List.rel_append replays.unanswered (.cons held .nil)
  · rw [holding_rows described.sound described.latest, ended, own, replays.records, longer]
    exact List.foldl_append.symm

end Histories

/-! What an answer is worth. -/
section Answers
variable {F : Type} {db later : Db F}

/-- An answer is accepted exactly when the tables hold its row, and describes that row. -/
def Tells (db : Db F) : ServerMessage F → Prop
  | .ledgerAck ack =>
      (ack.accepted = true ↔ ∃ row ∈ db.ledger, row.txnId = ack.txnId.toInt64) ∧
      ∀ row ∈ db.ledger, row.txnId = ack.txnId.toInt64 →
        ack.newBalance.toInt = LedgerRefinement.ledgerGold db.ledger row.playerId.toUInt64
  | .marketStateAck ack =>
      (ack.accepted = true ↔ ∃ row ∈ db.marketTrades, row.txnId = ack.txnId.toInt64) ∧
      ∀ row ∈ db.marketTrades, row.txnId = ack.txnId.toInt64 →
        (row.portId, row.itemId, row.stock, row.price) = (ack.portId, ack.itemId, ack.stock, ack.price)
  | .moorAck accepted record _ =>
      (accepted = true ↔ record.isSome) ∧ ∀ snap, record = some snap → ∃ row ∈ db.moorings,
        row = { mooringOf snap with createdAt := row.createdAt }
  | _ => True

/-- The row of an accepted answer is in the tables. -/
def Stays (db : Db F) : ServerMessage F → Prop
  | .ledgerAck ack => ack.accepted = true → ∃ row ∈ db.ledger, row.txnId = ack.txnId.toInt64
  | .marketStateAck ack =>
      ack.accepted = true → ∃ row ∈ db.marketTrades, row.txnId = ack.txnId.toInt64 ∧
        (row.portId, row.itemId, row.stock, row.price) = (ack.portId, ack.itemId, ack.stock, ack.price)
  | .moorAck accepted record _ =>
      accepted = true → ∃ snap, record = some snap ∧ ∃ row ∈ db.moorings, row.boatId = snap.boatId.toInt64
  | _ => True

theorem tells_of_topic {message : ServerMessage F} (other : topicOf message ≠ .reply) : Tells db message := by
  cases message with
  | ledgerAck => exact absurd rfl other
  | marketStateAck => exact absurd rfl other
  | moorAck => exact absurd rfl other
  | _ => trivial

theorem Tells.stays {message : ServerMessage F} (tells : Tells db message) (grown : Extends db later) :
    Stays later message := by
  cases message with
  | ledgerAck ack =>
      intro accepted
      obtain ⟨row, member, own⟩ := tells.1.mp accepted
      exact ⟨row, grown.ledger.subset member, own⟩
  | marketStateAck ack =>
      intro accepted
      obtain ⟨row, member, own⟩ := tells.1.mp accepted
      exact ⟨row, grown.trades.subset member, own, tells.2 row member own⟩
  | moorAck accepted record reason =>
      intro taken
      obtain ⟨snap, rfl⟩ := Option.isSome_iff_exists.mp (tells.1.mp taken)
      obtain ⟨row, member, same⟩ := tells.2 snap rfl
      obtain ⟨kept, present, boat, -⟩ := grown.moored row member
      refine ⟨snap, rfl, kept, present, boat.trans ?_⟩
      rw [same]
      rfl
  | _ => trivial

theorem LedgerAnswer.tells {player : UInt64} {txn : Txn} {nowMs : Int64} {ack : LedgerAck}
    (answer : LedgerAnswer db player txn nowMs (.ok ack, later)) (kept : Books.Kept db) (books : Books.Kept later)
    (lawful : Lawful later) (seated : HasRow db player) : Tells later (.ledgerAck ack) := by
  cases answer with
  | replayed recorded =>
      unfold Db.lookupTxn at recorded
      obtain ⟨row, first, joined⟩ := Option.bind_eq_some_iff.mp recorded
      obtain ⟨owner, present, same⟩ := Option.map_eq_some_iff.mp joined
      have member := List.mem_of_find?_eq_some first
      have own : row.txnId = txn.txnId.toInt64 := by simpa using List.find?_some first
      refine ⟨⟨fun _ => ⟨row, member, own⟩, fun _ => rfl⟩, ?_⟩
      intro other listed twin
      obtain rfl : other = row := List.inj_on_of_nodup_map lawful.txns listed member (twin.trans own.symm)
      have gold := EconService.gold_of_kept books other.playerId.toUInt64
      rw [← gold, ← (Prod.mk.inj same).2]
      simp [Db.playerBalance, present]
  | posted newBalance =>
      have member : ledgerRow player txn nowMs ∈ (committedDb db (ledgerRow player txn nowMs) newBalance).ledger := by
        simp [committedDb]
      refine ⟨⟨fun _ => ⟨_, member, rfl⟩, fun _ => rfl⟩, ?_⟩
      intro other listed twin
      obtain rfl : other = ledgerRow player txn nowMs := List.inj_on_of_nodup_map lawful.txns listed member twin
      have gold := EconService.gold_of_kept books player
      rw [balance_committedDb db (ledgerRow player txn nowMs) newBalance _ seated] at gold
      simp only [ledgerRow, if_true] at gold
      exact gold
  | refused balance reason unrecorded =>
      have missing : ¬ ∃ row ∈ db.ledger, row.txnId = txn.txnId.toInt64 := by
        intro present
        obtain ⟨recorded, found⟩ := EconService.lookup_committed kept present
        rw [unrecorded] at found
        cases found
      refine ⟨⟨?_, fun present => absurd present missing⟩, ?_⟩
      · rintro ⟨⟩
      · exact fun row member own => absurd ⟨row, member, own⟩ missing

theorem TradeAnswer.tells {trade : Market.Trade} {nowMs : Int64} {ack : Market.MarketAck}
    (answer : TradeAnswer db trade nowMs (.ok ack, later)) (lawful : Lawful later) : Tells later (.marketStateAck ack) := by
  cases answer with
  | @replayed row recorded own =>
      refine ⟨⟨fun _ => ⟨row, recorded, own⟩, fun _ => rfl⟩, ?_⟩
      intro other listed twin
      rw [List.inj_on_of_nodup_map lawful.tradeTxns listed recorded (twin.trans own.symm)]
  | traded stock price =>
      have member : (⟨trade.txnId.toInt64, trade.portId, trade.itemId, stock, price, nowMs⟩ : TradeRow) ∈
          (tradedDb db ⟨trade.txnId.toInt64, trade.portId, trade.itemId, stock, price, nowMs⟩).marketTrades := by
        simp [tradedDb]
      refine ⟨⟨fun _ => ⟨_, member, rfl⟩, fun _ => rfl⟩, ?_⟩
      intro other listed twin
      rw [List.inj_on_of_nodup_map lawful.tradeTxns listed member twin]
  | refused stock price reason unrecorded =>
      refine ⟨⟨?_, ?_⟩, ?_⟩
      · rintro ⟨⟩
      · rintro ⟨row, member, own⟩
        exact absurd own (unrecorded row member)
      · exact fun row member own => absurd own (unrecorded row member)

theorem upsert_saves (row : MooringRow F) (rows : List (MooringRow F)) :
    ∃ saved ∈ Db.upsertMooringRow row rows, saved = { row with createdAt := saved.createdAt } := by
  induction rows with
  | nil => exact ⟨row, List.mem_cons_self, rfl⟩
  | cons head rest ih =>
      unfold Db.upsertMooringRow
      split
      · exact ⟨_, List.mem_cons_self, rfl⟩
      · split
        · exact ⟨row, List.mem_cons_self, rfl⟩
        · obtain ⟨saved, member, same⟩ := ih
          exact ⟨saved, List.mem_cons_of_mem _ member, same⟩

theorem MoorAnswer.tells {ack : MoorAck F} (answer : MoorAnswer db ack later) :
    Tells later (.moorAck ack.1 ack.2.1 ack.2.2) := by
  cases answer with
  | refused reason => exact ⟨by simp, by simp⟩
  | saved row =>
      refine ⟨by simp, ?_⟩
      rintro snap ⟨⟩
      rw [mooringOf_snap]
      exact upsert_saves row db.moorings

end Answers

/-! Over every process of one file. -/
section Processes
variable {F : Type} [Platform F] [Codec F] {lives : List (Life F)} {file : DbFile F} {life : Life F}
  {stage : Stage F} {db : Db F} {pending : List Event}

/-- The stage handles the request of `peer` that the answer is about. -/
def Asked (stage : Stage F) (peer : PeerId) : ServerMessage F → Prop
  | .ledgerAck ack => ∃ moment txn, Hears stage moment peer (.econ txn) ∧ ack.txnId = txn.txnId
  | .marketStateAck ack => ∃ moment request, Hears stage moment peer (.trade request) ∧ ack.txnId = request.txnId
  | .moorAck .. => ∃ moment request, Hears stage moment peer (.moor request)
  | _ => True

theorem asked_of_topic {peer : PeerId} {message : ServerMessage F} (other : topicOf message ≠ .reply) :
    Asked stage peer message := by
  cases message with
  | ledgerAck => exact absurd rfl other
  | marketStateAck => exact absurd rfl other
  | moorAck => exact absurd rfl other
  | _ => trivial

omit [Codec F] in
theorem posted_told {Ack : Type} {peer : PeerId} {message : Ack → ServerMessage F} {answer : Ack → Db F → Prop}
    (answered : Answered stage.before peer message answer stage.after) {post : PeerId × Envelope F}
    (posted : post ∈ stage.posted) : ∃ ack, post.1 = peer ∧ post.2.payload = message ack ∧ answer ack stage.after.db := by
  cases answered with
  | silent tables quiet => simp [Stage.posted, quiet] at posted
  | told answers grown =>
      rw [Stage.posted_eq grown, List.mem_singleton] at posted
      subst posted
      exact ⟨_, rfl, rfl, answers⟩

omit [Platform F] [Codec F] in
theorem LedgerAnswer.id {player : UInt64} {txn : Txn} {nowMs : Int64} {ack : LedgerAck} {later : Db F}
    (answer : LedgerAnswer db player txn nowMs (.ok ack, later)) : ack.txnId = txn.txnId := by
  cases answer <;> rfl

omit [Platform F] [Codec F] in
theorem TradeAnswer.id {trade : Market.Trade} {nowMs : Int64} {ack : Market.MarketAck} {later : Db F}
    (answer : TradeAnswer db trade nowMs (.ok ack, later)) : ack.txnId = trade.txnId := by
  cases answer <;> rfl

theorem exchange_tells (exchange : Exchange stage) (booked : Books.Booked stage.before) (reflects : Reflects stage.after) :
    ∀ post ∈ stage.posted, Asked stage post.1 post.2.payload ∧ Tells stage.after.db post.2.payload := by
  intro post posted
  cases exchange with
  | other kept unwritten posts => exact ⟨asked_of_topic (posts post posted), tells_of_topic (posts post posted)⟩
  | econ hears answered =>
      obtain ⟨ack, own, shown, session, found, answer⟩ := posted_told answered posted
      rw [own, shown]
      constructor
      · exact ⟨_, _, hears, answer.id⟩
      · exact answer.tells booked.kept reflects.books reflects.lawful (booked.rows _ session found)
  | trade hears answered =>
      obtain ⟨ack, own, shown, answer⟩ := posted_told answered posted
      rw [own, shown]
      constructor
      · exact ⟨_, _, hears, answer.id⟩
      · exact answer.tells reflects.lawful
  | moor hears answered =>
      obtain ⟨ack, own, shown, answer⟩ := posted_told answered posted
      rw [own, shown]
      exact ⟨⟨_, _, hears⟩, answer.tells⟩

theorem life_exchange (history : History lives file) (member : life ∈ lives) (listed : stage ∈ life.trace) :
    Exchange stage ∧ Books.Booked stage.before ∧ Recorded file stage.after := by
  have chronicle := history_chronicle history
  have shown : ∀ server ∈ life.servers, Recorded file server := fun server own =>
    chronicle.recorded server (List.mem_flatMap.mpr ⟨life, member, own⟩)
  obtain ⟨db, server, pending, run, begins⟩ := history_run history life member
  obtain ⟨cfg, epochMs, weatherSeed, started⟩ := run_opened run begins
  obtain ⟨identityPlayers, -, same⟩ := new_opened started
  have kept : Books.Kept db := by
    have first := (shown life.opened List.mem_cons_self).reflects.books
    rw [same] at first
    exact first
  obtain ⟨early, late, split⟩ := List.append_of_mem listed
  rw [split] at run
  obtain ⟨rest, upto⟩ := run.upto
  obtain ⟨⟨waiting, earlier⟩, lawful, -⟩ := upto.unsnoc
  refine ⟨stage_exchange earlier.reachable lawful, Books.reachable_booked kept earlier.reachable, shown stage.after ?_⟩
  simp only [Life.servers, List.mem_cons, List.mem_append, List.mem_map]
  exact Or.inr (Or.inl ⟨stage, listed, rfl⟩)

/-- Every answer goes to who asked, tells whether its row is in the tables, and an accepted one is never lost. -/
theorem answers_kept (history : History lives file) (member : life ∈ lives) (listed : stage ∈ life.trace) :
    ∀ post ∈ stage.posted, Asked stage post.1 post.2.payload ∧ Tells stage.after.db post.2.payload ∧
      Stays file.rows post.2.payload := by
  obtain ⟨exchange, booked, recorded⟩ := life_exchange history member listed
  intro post posted
  obtain ⟨asked, tells⟩ := exchange_tells exchange booked recorded.reflects post posted
  exact ⟨asked, tells, tells.stays recorded.rows⟩

end Processes

/-! The credit that killed a process, sent again to the next one. -/
section Credited

local instance : Codec Int := creditCodec

def recreditServer : Server Int := bootedServer (quietBoot 9000 9) creditFile

def recreditScript : List SocketTurn :=
  let request := WireProtocol.buildConnectRequest 0 7 0 16 (WireProtocol.writeLitenetString "sailwind-online")
  [datagramFrom 3 request, datagramFrom 3 [0, 1], datagramFrom 3 [0, 5]]

def recreditEvents : List Event := [.connected 1, .data 1 [1], .data 1 [5]]

def recreditBoarded : Server Int := polledBy recreditServer recreditScript

def recreditLast : Server Int := handleAll recreditBoarded 1000 recreditEvents

def recreditLife : Life Int :=
  ⟨recreditServer, ⟨recreditServer, .poll 0 recreditScript, recreditBoarded⟩ ::
    handling recreditBoarded 1000 recreditEvents, recreditLast⟩

def recreditFile : DbFile Int := (creditFile.boot freshServer.cfg (quietBoot 9000 9)).1.holding recreditLast.db

theorem recredited : History [creditLife, recreditLife] recreditFile := by
  have booted : creditFile.boot freshServer.cfg (quietBoot 9000 9) =
      ((creditFile.boot freshServer.cfg (quietBoot 9000 9)).1, .ok recreditServer) := booted_eq (by decide +kernel)
  have polled : Run _ _ recreditBoarded (recreditEvents ++ []) :=
    polledBy_run (boot_run credited booted) recreditScript (by decide +kernel)
  exact .crashed credited booted (handleAll_run recreditEvents 1000 polled) rfl

def resent : Stage Int :=
  let before := handleAll recreditBoarded 1000 [.connected 1, .data 1 [1]]
  ⟨before, .handle (calmAt 3000) (.data 1 [5]), (before.handleEvent (calmAt 3000) (.data 1 [5])).1⟩

def ledgerAckOf (stage : Stage Int) : Option LedgerAck :=
  match answerOf stage with
  | some (.ledgerAck ack) => some ack
  | _ => none

theorem resent_acked : ledgerAckOf resent = some ⟨9, true, 75, replayReason⟩ := by decide +kernel

/-- The resent credit is acknowledged out of the row that the killed process wrote. -/
theorem answers_kept_recredited : ∃ row ∈ recreditFile.rows.ledger, row.txnId = 9 := by
  have listed : resent ∈ recreditLife.trace := by
    simp [recreditLife, recreditEvents, handling, handleAll, resent]
  have acked := resent_acked
  unfold ledgerAckOf answerOf at acked
  cases first : resent.posted.head? with
  | none => simp [first] at acked
  | some post =>
      rw [first, Option.map_some] at acked
      split at acked <;> rename_i ack shown
      · cases acked
        obtain ⟨-, -, stays⟩ := answers_kept recredited (by simp) listed post (List.mem_of_head? first)
        rw [Option.some.inj shown] at stays
        exact stays rfl
      · cases acked

end Credited
end SailwindOnline.RequestLog
