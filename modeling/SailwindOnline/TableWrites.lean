import Mathlib.Logic.Relation
import SailwindOnline.Enrolment
import SailwindOnline.MoorageOwnership

/-!
The committed writes of a server. Whatever a handler or a tick does to the
database is a sequence of five kinds of commits, each of which keeps every row
it finds: identities and dates of players, ledger rows, market trades and the
first date of every mooring. What every commit keeps, every run keeps.
-/

namespace SailwindOnline.TableWrites
open MachineInt Persistence PlayerTable EconStore Server Traces Effects TickEffects SessionRuns Moorage MoorageOwnership

section Writes
variable {F : Type} {before middle after : Db F}

def tradedDb (db : Db F) (row : TradeRow) : Db F :=
  { db with
    marketTrades := db.marketTrades ++ [row]
    market := db.market.insert (row.portId, row.itemId) (row.stock, row.price) }

/-- One committed write. -/
inductive Write (before : Db F) : Db F → Prop
  | admitted {token name : String} {now : Int64} {maxRows : UInt32} {admission : PlayerAdmission} {after : Db F}
      (ceiling : maxRows.toNat ≤ maxPlayerRowsCeiling)
      (admitted : Admitted before (tokenHash token) name now maxRows admission after) : Write before after
  | touched (id now : Int64) : Write before (before.touchLastSeen id now)
  | posted (row : LedgerRow) (newBalance : Int64)
      (fresh : before.ledger.any (fun prior => prior.txnId = row.txnId) = false) :
      Write before (committedDb before row newBalance)
  | traded (row : TradeRow) (fresh : before.marketTrades.any (fun prior => prior.txnId = row.txnId) = false)
      (stocked : 0 ≤ row.stock) (priced : 0 ≤ row.price) : Write before (tradedDb before row)
  | moored (row : MooringRow F) : Write before (before.upsertMooring row)

abbrev Writes (before after : Db F) : Prop := Relation.ReflTransGen Write before after

theorem Writes.one (write : Write before after) : Writes before after := Relation.ReflTransGen.single write

theorem Writes.of_eq (same : after = before) : Writes before after := same ▸ Relation.ReflTransGen.refl

/-- What each commit keeps, a sequence of them keeps. -/
theorem Writes.keeps {Holds : Db F → Prop}
    (kept : ∀ before after, Write before after → Holds before → Holds after)
    (writes : Writes before after) (holds : Holds before) : Holds after := by
  induction writes with
  | refl => exact holds
  | tail _ write ih => exact kept _ _ write ih

end Writes

/-! The economy. -/
section Economy
variable {F : Type}

theorem attempt_map_ok {Source Result : Type} {fails : Bool} {outcome : Except DbError Source}
    {wrap : Source → Result} {result : Result} (done : attempt fails (outcome.map wrap) = .ok result) :
    ∃ source, outcome = .ok source ∧ result = wrap source := by
  have mapped := attempt_eq_ok done
  cases outcome with
  | error failure => cases mapped
  | ok source =>
      cases mapped
      exact ⟨source, rfl, rfl⟩

theorem commitTxn_fresh {db after : Db F} {row : LedgerRow} {newBalance : Int64}
    (committed : db.commitTxn row newBalance = .ok after) :
    db.ledger.any (fun prior => prior.txnId = row.txnId) = false ∧ after = committedDb db row newBalance := by
  unfold Db.commitTxn at committed
  split at committed <;> rename_i fresh
  · cases committed
  · cases committed
    exact ⟨by simpa using fresh, rfl⟩

theorem ledgerApply_writes (faults : StoreFaults) (nowMs : Int64) (db : Db F) (player : UInt64) (txn : Ledger.Txn) :
    Writes db (ledgerApply faults nowMs db player txn).2 := by
  unfold ledgerApply
  split <;> rename_i applied
  · unfold Ledger.apply at applied
    split at applied
    · cases applied
    · cases applied
      exact .refl
    split at applied
    · cases applied
    split at applied
    · split at applied
      · split at applied <;> rename_i stored
        · cases applied
        · cases applied
          obtain ⟨after, written, rfl⟩ := attempt_map_ok stored
          obtain ⟨fresh, rfl⟩ := commitTxn_fresh written
          exact .one (.posted _ _ fresh)
      · cases applied
        exact .refl
    · cases applied
      exact .refl
  · exact .refl

theorem commitTrade_row {db after : Db F} {txnId : UInt64} {portId itemId : UInt32} {stock price now : Int64}
    (committed : db.commitTrade txnId portId itemId stock price now = .ok after) :
    ∃ row : TradeRow, db.marketTrades.any (fun prior => prior.txnId = row.txnId) = false ∧
      row.stock = stock ∧ row.price = price ∧ after = tradedDb db row := by
  unfold Db.commitTrade at committed
  split at committed
  · cases committed
  · split at committed <;> rename_i unused
    · cases committed
    · cases committed
      exact ⟨⟨_, portId, itemId, stock, price, now⟩, by simpa using unused, rfl, rfl, rfl⟩

theorem marketApply_writes (faults : StoreFaults) (nowMs : Int64) (db : Db F) (trade : Market.Trade) :
    Writes db (marketApply faults nowMs db trade).2 := by
  unfold marketApply
  split <;> rename_i applied
  · unfold Market.apply at applied
    split at applied
    · cases applied
    · cases applied
      exact .refl
    split at applied
    · cases applied
    split at applied <;> rename_i negative
    · cases applied
      exact .refl
    split at applied
    · split at applied <;> rename_i enough
      · split at applied <;> rename_i stored
        · cases applied
        · cases applied
          obtain ⟨after, written, rfl⟩ := attempt_map_ok stored
          obtain ⟨row, unused, stock, price, rfl⟩ := commitTrade_row written
          apply Writes.one
          apply Write.traded row unused
          · rw [stock]
            exact enough
          · rw [price]
            exact not_lt.mp negative
      · cases applied
        exact .refl
    · cases applied
      exact .refl
  · exact .refl

end Economy

/-! Handlers. -/
section Handlers
variable {F : Type} [Platform F] {server : Server F} {moment : Moment} {peer : PeerId}

theorem applyEcon_writes {db : Db F} (current : server.db = db) (player : UInt64) (txn : Ledger.Txn) :
    Writes db (server.applyEcon moment peer player txn).1.db := by
  subst current
  have written := ledgerApply_writes (storeFaults moment) moment.persistenceMs server.db player txn
  unfold applyEcon
  split <;> rename_i applied
  · rw [applied] at written
    exact written
  · rw [applied] at written
    exact written

theorem applyTrade_writes {db : Db F} (current : server.db = db) (trade : Market.Trade) :
    Writes db (server.applyTrade moment peer trade).1.db := by
  subst current
  have written := marketApply_writes (storeFaults moment) moment.persistenceMs server.db trade
  unfold applyTrade
  split <;> rename_i applied
  · rw [applied] at written
    exact written
  · rw [applied] at written
    exact written

theorem onEcon_writes (txn : EconTxn) : Writes server.db (server.onEcon moment peer txn).1.db := by
  unfold onEcon
  split
  · exact Relation.ReflTransGen.refl
  · simp only
    split
    · exact Relation.ReflTransGen.refl
    split
    · exact Relation.ReflTransGen.refl
    · exact applyEcon_writes rfl _ _
    · split
      · apply applyEcon_writes
        rfl
      · exact Relation.ReflTransGen.refl

theorem onTrade_writes (request : MarketTradeRequest) :
    Writes server.db (server.onTrade moment peer request).1.db := by
  unfold onTrade
  split
  · exact .refl
  · simp only
    split
    · exact .refl
    · exact applyTrade_writes rfl _
    · split
      · apply applyTrade_writes
        rfl
      · unfold throttleTrade
        split <;> exact .refl

theorem onMoor_writes [Codec F] (request : MoorRequest F) :
    Writes server.db (server.onMoor moment peer request).1.db := by
  by_cases accepted : ∃ session, server.sessions.get? peer = some session ∧
      ∃ motion, Accepts server moment session request motion
  · obtain ⟨session, seated, motion, accepts⟩ := accepted
    rw [onMoor_accepted seated accepts]
    exact .one (.moored _)
  · apply Writes.of_eq
    apply And.left
    apply onMoor_refused
    intro session seated motion accepts
    exact accepted ⟨session, seated, motion, accepts⟩

theorem presented_writes {identityHash name : String} {ip : IpAddr} {hello : ClientHello} {now : Int64}
    {admission : PlayerAdmission} {db : Db F} (presented : Presented server peer hello identityHash name ip)
    (admitted : Admitted server.db identityHash name now server.cfg.maxPlayerRowsU32 admission db) :
    Writes server.db db := by
  obtain ⟨token, -, rfl⟩ := presented.read
  exact .one (.admitted (Enrolment.maxPlayerRowsU32_le server.cfg.toConfig) admitted)

theorem hello_writes {hello : ClientHello} {handled : Handled F}
    (effect : HelloEffect server moment peer hello handled) : Writes server.db handled.1.db := by
  cases effect with
  | silent charges storage => exact .of_eq (congrArg (fun view => view.db) charges.frame :)
  | answered charges other => exact .of_eq (congrArg (fun view => view.db) charges.frame :)
  | full gated unknown crowded =>
      exact .of_eq (congrArg (fun view => view.db) (identityCharged_frame server moment peer _ _) :)
  | faulted gated admitted fault => exact presented_writes gated.presented admitted
  | repeated found greets => exact .refl
  | @joined identityHash name ip row db middle numbered generation reply gated admitted consistent
        superseded numbering greets =>
      have frame := entered_frame peer
        (withGeneration generation (firstSession server row.id.toUInt64 identityHash name)) reply
        superseded numbering
      have opened : (entered numbered peer (withGeneration generation
          (firstSession server row.id.toUInt64 identityHash name)) reply).db =
          (enrolled server moment peer ip identityHash row.id.toUInt64 db).db :=
        (congrArg (fun view => view.db) frame :)
      rw [opened, enrolled_db]
      exact presented_writes gated.presented admitted

variable [Codec F]

theorem handleDataAt_writes {pending : List Event} (inv : Inv pending server) (bytes : WireProtocol.Bytes) :
    Writes server.db (server.handleDataAt moment peer bytes).1.db := by
  unfold handleDataAt
  split
  · exact .refl
  · exact hello_writes (onHelloAt_effect inv moment _)
  · exact .of_eq (onClientState_db _)
  · exact onEcon_writes _
  · exact onTrade_writes _
  · exact onMoor_writes _
  · exact .of_eq (onChat_db _)

omit [Codec F] in
theorem onDisconnect_writes {pending : List Event} (inv : Inv pending server) :
    Writes server.db (server.onDisconnect moment peer).1.db := by
  cases found : server.sessions.get? peer with
  | none =>
      rw [onDisconnect_absent moment found]
  | some session =>
      rw [onDisconnect_present inv moment found]
      unfold persistDeparture attempt
      cases moment.fails 0 with
      | true => exact .refl
      | false => exact .one (.touched _ _)

theorem handleEvent_writes {pending : List Event} (inv : Inv pending server) (event : Event) :
    Writes server.db (server.handleEvent moment event).1.db := by
  cases event with
  | connected peer => exact .refl
  | data peer bytes => exact handleDataAt_writes inv bytes
  | disconnected peer reason => exact onDisconnect_writes inv

end Handlers

/-! Ticks, runs and the flush at shutdown. -/
section Runs
variable {F : Type} [Platform F] {server : Server F}

theorem flushEach_writes (fails : UInt64 → Bool) (now : Int64) (players : List UInt64) (server : Server F) :
    Writes server.db (flushEach fails now players server).1.db := by
  induction players generalizing server with
  | nil => exact .refl
  | cons player rest ih =>
      unfold flushEach
      split <;> rename_i touched
      · exact .refl
      · cases attempt_eq_ok touched
        have later := ih ({ server with
          db := server.db.touchLastSeen player.toInt64 now
          flushPlayers := server.flushPlayers.erase player }.settleFlushed player)
        rw [settleFlushed_db] at later
        exact (Writes.one (.touched _ _)).trans later

/-! What a touch keeps, the flush at shutdown keeps, however often the disk fails. -/
section Shutdown

def touchedServer (now : Int64) (server : Server F) (player : UInt64) : Server F :=
  ({ server with
    db := server.db.touchLastSeen player.toInt64 now
    flushPlayers := server.flushPlayers.erase player
    dirtyPlayers := server.dirtyPlayers.erase player }).settleFlushed player

variable {Holds : Server F → Prop} {now : Int64}
  (touched : ∀ server player, Holds server → Holds (touchedServer now server player))
include touched

theorem shutdownTouch_keeps (fails : UInt64 → Bool) (flush : ShutdownFlush F) (player : UInt64)
    (holds : Holds flush.server) : Holds (shutdownTouch fails now flush player).server := by
  unfold shutdownTouch
  split <;> rename_i stored
  · exact holds
  · cases attempt_eq_ok stored
    exact touched _ _ holds

theorem shutdownPass_keeps (fails : UInt64 → Bool) (players : List UInt64) (flush : ShutdownFlush F)
    (holds : Holds flush.server) : Holds (players.foldl (shutdownTouch fails now) flush).server := by
  induction players generalizing flush with
  | nil => exact holds
  | cons player rest ih => exact ih _ (shutdownTouch_keeps touched fails flush player holds)

theorem shutdownAttempts_keeps (fails : Nat → UInt64 → Bool) (attempts : Nat) (flush : ShutdownFlush F)
    (holds : Holds flush.server) : Holds (shutdownAttempts fails now attempts flush).1 := by
  induction attempts generalizing flush with
  | zero => exact holds
  | succ attempts ih =>
      unfold shutdownAttempts
      split
      · exact holds
      · exact ih _ (shutdownPass_keeps touched (fails attempts) _ flush holds)

variable (Holds) in
theorem flushAll_keeps (queued : ∀ server flushPlayers, Holds server → Holds { server with flushPlayers })
    (server : Server F) (fails : Nat → UInt64 → Bool) (holds : Holds server) :
    Holds (server.flushAll fails now).1 :=
  shutdownAttempts_keeps touched fails shutdownFlushAttempts _ (queued server _ holds)

end Shutdown

@[simp] theorem touchedServer_db (now : Int64) (server : Server F) (player : UInt64) :
    (touchedServer now server player).db = server.db.touchLastSeen player.toInt64 now := by
  rw [touchedServer, settleFlushed_db]

theorem flushAll_writes (server : Server F) (fails : Nat → UInt64 → Bool) (now : Int64) :
    Writes server.db (server.flushAll fails now).1.db := by
  refine flushAll_keeps (fun flushed => Writes server.db flushed.db) ?_ (fun _ _ earlier => earlier) server fails
    Relation.ReflTransGen.refl
  intro flushed player earlier
  rw [touchedServer_db]
  exact earlier.tail (.touched _ _)

variable [Codec F]

theorem tick_writes (tick : Tick) : Writes server.db (tick.run server).db := by
  cases tick with
  | aoi fails => exact .of_eq (congrArg (fun view => view.db) (processAoiWork_effect server fails).frame :)
  | snapshots => exact .of_eq (congrArg (fun view => view.db) (broadcastSnapshots_effect server).frame :)
  | fanout => exact .of_eq (congrArg (fun view => view.db) (processFanoutWork_run server).frame :)
  | dirtyFlush fails now =>
      show Writes server.db (server.processDirtyFlushAt fails now).1.db
      unfold processDirtyFlushAt
      split
      · exact .refl
      · exact flushEach_writes _ _ _ _
  | beginFlush => exact .refl
  | clock clockMs => exact .of_eq (congrArg (fun view => view.db) (broadcastClock_frame server clockMs) :)

/-- The last stage of a run writes to the tables it finds. -/
theorem stage_writes {db : Db F} {trace : List (Stage F)} {stage : Stage F} {pending : List Event}
    (run : Run db (trace ++ [stage]) server pending) : Writes stage.before.db stage.after.db := by
  obtain ⟨⟨waiting, earlier⟩, lawful, -⟩ := run.unsnoc
  obtain ⟨before, action, after⟩ := stage
  cases action with
  | poll now script =>
      obtain ⟨state, -, same⟩ := lawful
      replace same : after = { before with host := state.host } := same
      rw [same]
  | handle moment event =>
      replace lawful : after = (before.handleEvent moment event).1 := lawful
      rw [lawful]
      exact handleEvent_writes earlier.inv event
  | tick tick =>
      replace lawful : after = tick.run before := lawful
      rw [lawful]
      exact tick_writes tick

end Runs

/-! What the tables never lose. -/
section Growth
variable {F : Type} {before middle after : Db F}

/-- The columns of a player that no write changes. -/
def credential (row : PlayerRow) : Int64 × String × Int64 := (row.id, row.tokenHash, row.createdAt)

/-- Every row of the earlier tables is still there, under the columns that name it. -/
structure Extends (before after : Db F) : Prop where
  players : before.players.map credential <+: after.players.map credential
  sequence : before.playerSequence ≤ after.playerSequence
  ledger : before.ledger <+: after.ledger
  trades : before.marketTrades <+: after.marketTrades
  moored : ∀ row ∈ before.moorings,
    ∃ later ∈ after.moorings, later.boatId = row.boatId ∧ later.createdAt = row.createdAt

theorem Extends.refl (db : Db F) : Extends db db :=
  ⟨List.prefix_refl _, le_refl _, List.prefix_refl _, List.prefix_refl _, fun row member => ⟨row, member, rfl, rfl⟩⟩

theorem Extends.trans (first : Extends before middle) (second : Extends middle after) : Extends before after where
  players := first.players.trans second.players
  sequence := first.sequence.trans second.sequence
  ledger := first.ledger.trans second.ledger
  trades := first.trades.trans second.trades
  moored := by
    intro row member
    obtain ⟨kept, present, boat, date⟩ := first.moored row member
    obtain ⟨later, stored, sameBoat, sameDate⟩ := second.moored kept present
    exact ⟨later, stored, sameBoat.trans boat, sameDate.trans date⟩

theorem credentials_updatePlayer (db : Db F) (id : Int64) (change : PlayerRow → PlayerRow)
    (kept : ∀ row, credential (change row) = credential row) :
    (db.updatePlayer id change).players.map credential = db.players.map credential := by
  simp only [Db.updatePlayer, List.map_map]
  apply List.map_congr_left
  intro row _
  simp only [Function.comp_apply]
  split
  · exact kept row
  · rfl

/-- Writes to some columns of one player. -/
theorem Extends.updatePlayer (db : Db F) (id : Int64) (change : PlayerRow → PlayerRow)
    (kept : ∀ row, credential (change row) = credential row) : Extends db (db.updatePlayer id change) where
  players := by rw [credentials_updatePlayer db id change kept]
  sequence := le_refl _
  ledger := List.prefix_refl _
  trades := List.prefix_refl _
  moored := fun row member => ⟨row, member, rfl, rfl⟩

theorem upsert_kept (row : MooringRow F) (rows : List (MooringRow F)) :
    ∀ prior ∈ rows, ∃ later ∈ Db.upsertMooringRow row rows,
      later.boatId = prior.boatId ∧ later.createdAt = prior.createdAt := by
  induction rows with
  | nil => simp
  | cons head rest ih =>
      intro prior member
      unfold Db.upsertMooringRow
      split <;> rename_i here
      · rcases List.mem_cons.mp member with rfl | later
        · exact ⟨_, List.mem_cons_self, here.symm, rfl⟩
        · exact ⟨prior, List.mem_cons_of_mem _ later, rfl, rfl⟩
      · split
        · exact ⟨prior, List.mem_cons_of_mem _ member, rfl, rfl⟩
        · rcases List.mem_cons.mp member with rfl | later
          · exact ⟨prior, List.mem_cons_self, rfl, rfl⟩
          · obtain ⟨kept, present, same⟩ := ih prior later
            exact ⟨kept, List.mem_cons_of_mem _ present, same⟩

theorem Write.extends (write : Write before after) : Extends before after := by
  cases write with
  | admitted ceiling admitted =>
      cases admitted with
      | returning member own => exact .updatePlayer before _ _ fun _ => rfl
      | full unknown crowded => exact .refl before
      | @newcomer id unknown room next =>
          have counted := checkedAdd_some _ _ _ next
          refine ⟨?_, ?_, List.prefix_refl _, List.prefix_refl _, fun row member => ⟨row, member, rfl, rfl⟩⟩
          · simp only [List.map_append]
            exact List.prefix_append _ _
          · have one : (1 : Int64).toInt = 1 := rfl
            rw [Int64.le_iff_toInt_le]
            show before.playerSequence.toInt ≤ id.toInt
            omega
  | touched id now => exact .updatePlayer before id _ fun _ => rfl
  | posted row newBalance fresh =>
      have appended : Extends before { before with ledger := before.ledger ++ [row] } :=
        ⟨List.prefix_refl _, le_refl _, List.prefix_append _ _, List.prefix_refl _,
          fun row member => ⟨row, member, rfl, rfl⟩⟩
      exact appended.trans (.updatePlayer _ _ _ fun _ => rfl)
  | traded row fresh stocked priced =>
      exact ⟨List.prefix_refl _, le_refl _, List.prefix_refl _, List.prefix_append _ _,
        fun row member => ⟨row, member, rfl, rfl⟩⟩
  | moored row =>
      exact ⟨List.prefix_refl _, le_refl _, List.prefix_refl _, List.prefix_refl _, upsert_kept row before.moorings⟩

theorem Writes.extends (writes : Writes before after) : Extends before after :=
  writes.keeps (fun _ _ write held => held.trans write.extends) (.refl before)

/-- The identities of a table are found in every table that extends it. -/
theorem Extends.row (ext : Extends before after) {row : PlayerRow} (member : row ∈ before.players) :
    ∃ later ∈ after.players, credential later = credential row := by
  have listed : credential row ∈ after.players.map credential :=
    ext.players.subset (List.mem_map_of_mem member)
  exact List.mem_map.mp listed

end Growth

end SailwindOnline.TableWrites
