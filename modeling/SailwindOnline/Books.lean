import SailwindOnline.LedgerRefinement
import SailwindOnline.SessionRuns

/-!
The books of a running server. The gold of every `players` row is the sum of
that player's ledger rows, every ledger row belongs to a `players` row, and so
does every session. The server keeps this over whole runs, whatever the disk
does, when it is opened on tables that start that way.
-/

namespace SailwindOnline.Books
open MachineInt Persistence Ledger EconStore Server SessionIndex SessionRuns

section Tables
variable {F : Type} {before after : Db F}

def journal (db : Db F) : List Ledger.Entry := db.ledger.map rowEntry

structure Kept (db : Db F) : Prop where
  represents : DbRepresents (fun _ => True) db (journal db)
  sound : Journal.Sound maxI64 (journal db)

theorem kept_of_represents {log : List Ledger.Entry} (rep : DbRepresents (fun _ => True) before log)
    (sound : Journal.Sound maxI64 log) : Kept before := by
  have same : journal before = log := rep.entries
  exact ⟨same ▸ rep, same ▸ sound⟩

theorem kept_of_no_rows (unplayed : before.players = []) (unused : before.ledger = []) : Kept before := by
  have rep : DbRepresents (fun _ => True) before [] := by
    refine ⟨by simp [unused], by simp, ?_⟩
    intro player _
    simp [Db.playerBalance, Db.player, unplayed, Journal.total_nil]
  exact kept_of_represents rep (Journal.sound_nil maxI64 (by decide))

theorem hasRow_iff_gold (db : Db F) (player : PlayerId) :
    HasRow db player ↔ ((db.player player.toInt64).map PlayerRow.gold).isSome = true := by
  simp [HasRow, Option.isSome_iff_exists]

theorem hasRow_same (same : before.SameAccounts after) (player : PlayerId) :
    HasRow after player ↔ HasRow before player := by
  rw [hasRow_iff_gold, hasRow_iff_gold, same.gold]

theorem Kept.same (kept : Kept before) (same : before.SameAccounts after) : Kept after := by
  refine kept_of_represents ⟨?_, ?_, ?_⟩ kept.sound
  · rw [same.ledger]
    rfl
  · intro entry member
    exact (hasRow_same same _).mpr (kept.represents.owners entry member)
  · intro player _
    rw [← kept.represents.balances player trivial, Db.playerBalance, Db.playerBalance, same.gold]

/-- A new row starts without gold, as a player without a row is counted. -/
theorem player_snoc (db : Db F) (row : PlayerRow) (sequence id : Int64) :
    ({ db with players := db.players ++ [row], playerSequence := sequence } : Db F).player id =
      (db.player id).or (if row.id = id then some row else none) := by
  simp only [Db.player, List.find?_append]
  congr 1
  by_cases own : row.id = id <;> simp [own]

theorem admitPlayerByToken_kept {tokenHash name : String} {now : Int64} {maxRows : UInt32}
    {admission : PlayerAdmission} (kept : Kept before)
    (done : before.admitPlayerByToken tokenHash name now maxRows = .ok (admission, after)) :
    Kept after ∧ (∀ player, HasRow before player → HasRow after player) ∧
      ∀ row, admission = .admitted row → HasRow after row.id.toUInt64 := by
  unfold Db.admitPlayerByToken at done
  split at done
  · rename_i existing found
    cases done
    have same : before.SameAccounts (before.updatePlayer existing.id
        (fun row => { row with name := name, lastSeen := now })) :=
      .updatePlayer _ _ _ (fun _ => rfl) (fun _ => rfl)
    -- An identity that comes back only refreshes its name and its last visit.
    refine ⟨kept.same same, fun player present => (hasRow_same same player).mpr present, ?_⟩
    rintro row ⟨⟩
    refine (hasRow_same same _).mpr ?_
    have present : existing ∈ before.players := List.mem_of_find?_eq_some found
    have known : (before.player existing.id).isSome = true := by
      rw [Db.player, List.find?_isSome]
      exact ⟨existing, present, by simp⟩
    exact Option.isSome_iff_exists.mp known
  · split at done
    · cases done
      exact ⟨kept, fun _ present => present, by rintro row ⟨⟩⟩
    · split at done
      · cases done
      · rename_i id _
        cases done
        have widened : ∀ player, HasRow before player →
            HasRow { before with
              players := before.players ++ [⟨id, name, tokenHash, 0, now, now⟩], playerSequence := id }
              player := by
          rintro player ⟨row, found⟩
          exact ⟨row, by rw [player_snoc, found]; rfl⟩
        -- The new row opens with no gold, as every player without a row has.
        refine ⟨kept_of_represents ⟨rfl, ?_, ?_⟩ kept.sound, widened, ?_⟩
        · intro entry member
          exact widened _ (kept.represents.owners entry member)
        · intro player _
          refine (congrArg Int64.toInt ?_).trans (kept.represents.balances player trivial)
          rw [Db.playerBalance, Db.playerBalance, player_snoc]
          cases found : before.player player.toInt64 with
          | some row => simp
          | none => by_cases own : id = player.toInt64 <;> simp [own]
        · rintro row ⟨⟩
          rw [hasRow_iff_gold, player_snoc]
          cases before.player id.toUInt64.toInt64 <;> simp

/-! One request: a disk failure changes nothing, and otherwise there was none. -/

theorem ledgerApply_faults (faults : StoreFaults) (nowMs : Int64) (db : Db F) (player : PlayerId) (txn : Txn) :
    ledgerApply faults nowMs db player txn = (.error .disk, db) ∨
      ledgerApply faults nowMs db player txn = ledgerApply noFaults nowMs db player txn := by
  rcases faults with ⟨lookup, read, commit⟩
  unfold ledgerApply Ledger.apply
  simp only [LedgerStore.lookupTxn, LedgerStore.balance, LedgerStore.commit, noFaults]
  cases lookup with
  | true => exact Or.inl (by simp [attempt])
  | false =>
    cases found : db.lookupTxn txn.txnId.toInt64 with
    | some recorded => exact Or.inr (by simp [attempt])
    | none =>
      cases read with
      | true => exact Or.inl (by simp [attempt])
      | false =>
        cases sum : checkedAdd (db.playerBalance player.toInt64) txn.amountGold with
        | none => exact Or.inr (by simp [attempt, sum])
        | some newBalance =>
          by_cases enough : 0 ≤ newBalance
          · cases commit with
            | true => exact Or.inl (by simp [attempt, sum, enough])
            | false =>
              refine Or.inr ?_
              cases db.commitTxn (ledgerRow player txn nowMs) newBalance <;>
                simp [attempt, sum, enough, Except.map]
          · exact Or.inr (by simp [attempt, sum, enough])

theorem ledgerApply_kept (faults : StoreFaults) (nowMs : Int64) {player : PlayerId} (txn : Txn)
    (kept : Kept before) (row : HasRow before player) :
    Kept (ledgerApply faults nowMs before player txn).2 ∧
      ∀ other, HasRow before other → HasRow (ledgerApply faults nowMs before player txn).2 other := by
  rcases ledgerApply_faults faults nowMs before player txn with failed | served
  · rw [failed]
    exact ⟨kept, fun _ present => present⟩
  · rw [served]
    let request : DbCall := ⟨player, txn, nowMs⟩
    have rep := dbServe_represents _ before _ request kept.represents kept.sound row trivial
    refine ⟨kept_of_represents rep (Journal.post_sound maxI64 _ _ kept.sound), ?_⟩
    exact dbServe_hasRow _ before _ request kept.represents kept.sound trivial

theorem Kept.of_rows (kept : Kept before) (players : after.players = before.players)
    (ledger : after.ledger = before.ledger) : Kept after := by
  have lookup : ∀ id, after.player id = before.player id := fun id => by rw [Db.player, Db.player, players]
  refine kept_of_represents ⟨by rw [ledger]; rfl, ?_, ?_⟩ kept.sound
  · intro entry member
    rw [HasRow, lookup]
    exact kept.represents.owners entry member
  · intro player _
    rw [Db.playerBalance, lookup]
    exact kept.represents.balances player trivial

theorem commitTrade_rows {txnId : UInt64} {portId itemId : UInt32} {stock price now : Int64}
    (done : before.commitTrade txnId portId itemId stock price now = .ok after) :
    after.players = before.players ∧ after.ledger = before.ledger := by
  unfold Db.commitTrade at done
  split at done
  · cases done
  · split at done
    · cases done
    · cases done
      exact ⟨rfl, rfl⟩

theorem marketApply_rows (faults : StoreFaults) (nowMs : Int64) (db : Db F) (trade : Market.Trade) :
    (marketApply faults nowMs db trade).2.players = db.players ∧
      (marketApply faults nowMs db trade).2.ledger = db.ledger := by
  unfold marketApply
  split <;> rename_i applied
  · unfold Market.apply at applied
    split at applied
    · cases applied
    · cases applied
      exact ⟨rfl, rfl⟩
    split at applied
    · cases applied
    split at applied
    · cases applied
      exact ⟨rfl, rfl⟩
    split at applied
    · split at applied
      · split at applied <;> rename_i stored
        · cases applied
        · cases applied
          have committed := attempt_eq_ok stored
          cases written : db.commitTrade trade.txnId trade.portId trade.itemId _ trade.unitPrice nowMs with
          | error failure =>
              rw [written] at committed
              cases committed
          | ok tables =>
              rw [written] at committed
              cases committed
              exact commitTrade_rows written
      · cases applied
        exact ⟨rfl, rfl⟩
    · cases applied
      exact ⟨rfl, rfl⟩
  · exact ⟨rfl, rfl⟩

end Tables

/-! The server. -/
section Sessions
variable {F : Type} [Platform F] {server after : Server F} {peer : PeerId}

structure Booked (server : Server F) : Prop where
  kept : Kept server.db
  rows : ∀ peer session, server.sessions.get? peer = some session → HasRow server.db session.playerId

theorem Booked.keeps (booked : Booked server) (keeps : KeepsIndex server after) : Booked after := by
  refine ⟨booked.kept.same keeps.accounts, ?_⟩
  intro peer session found
  obtain ⟨old, present, place⟩ := keeps.session_of found
  have same : old.playerId = session.playerId := congrArg Prod.fst place
  rw [hasRow_same keeps.accounts, ← same]
  exact booked.rows peer old present

theorem Booked.withDb (booked : Booked server) {db : Db F} (kept : Kept db)
    (rows : ∀ player, HasRow server.db player → HasRow db player) : Booked { server with db } :=
  ⟨kept, fun peer session found => rows _ (booked.rows peer session found)⟩

/-- Sessions may go, and new ones belong to players with rows. -/
theorem Booked.sessions (booked : Booked server) (db : after.db = server.db)
    (sessions : ∀ peer session, after.sessions.get? peer = some session →
      HasRow server.db session.playerId) : Booked after :=
  ⟨db ▸ booked.kept, db ▸ sessions⟩

theorem booked_unregisterSession (booked : Booked server) (peer : PeerId) :
    Booked (server.unregisterSession peer).1 := by
  unfold unregisterSession
  split
  · exact booked
  · refine booked.sessions rfl ?_
    intro other session found
    simp only [FiniteMap.get?_erase] at found
    split at found
    · cases found
    · exact booked.rows other session found

theorem evictTransport_frame (server : Server F) (prior : PeerId) :
    (server.evictTransport prior).1.db = server.db ∧
      (server.evictTransport prior).1.sessions = server.sessions := by
  unfold evictTransport
  split
  · exact ⟨rfl, rfl⟩
  · split <;> exact ⟨rfl, rfl⟩

theorem unregisterSession_db (server : Server F) (peer : PeerId) :
    (server.unregisterSession peer).1.db = server.db := by
  unfold unregisterSession
  split <;> rfl

theorem booked_supersede (booked : Booked server) (peer : PeerId) (player : UInt64) :
    Booked (server.supersede peer player).1 ∧ (server.supersede peer player).1.db = server.db := by
  unfold supersede
  split
  · exact ⟨booked, rfl⟩
  · rename_i prior _
    have evicted := evictTransport_frame server prior
    split
    · exact ⟨booked, rfl⟩
    split <;> rename_i evicting
    · rw [evicting] at evicted
      exact ⟨booked.sessions evicted.1 (evicted.2 ▸ booked.rows), evicted.1⟩
    · rename_i gone
      rw [evicting] at evicted
      have without : Booked gone := booked.sessions evicted.1 (evicted.2 ▸ booked.rows)
      have dropped := booked_unregisterSession without prior
      exact ⟨dropped.keeps (.of_sessions_eq rfl rfl),
        (unregisterSession_db gone prior).trans evicted.1⟩

theorem booked_registerSession (booked : Booked server) (peer : PeerId) {session : Session F}
    (row : HasRow server.db session.playerId) : Booked (server.registerSession peer session).1 := by
  unfold registerSession
  split
  · exact booked
  split
  · exact booked
  have keeps := keeps_allocateSessionGeneration server
  split <;> rename_i numbering
  · rw [numbering] at keeps
    exact booked.keeps keeps
  · rename_i numbered generation
    rw [numbering] at keeps
    have inserted : Booked (numbered.insertSession peer { session with generation }) := by
      refine (booked.keeps keeps).sessions rfl ?_
      intro other held found
      simp only [insertSession, FiniteMap.get?_insert] at found
      split at found
      · cases found
        exact (hasRow_same keeps.accounts _).mpr row
      · exact (booked.keeps keeps).rows other held found
    exact inserted.keeps (.scheduleAoi _ _)

theorem booked_openSession (booked : Booked server) {player : UInt64} (row : HasRow server.db player)
    (moment : Moment) (peer : PeerId) (identityHash name : String) (gold : Int64) :
    Booked (server.openSession moment peer player identityHash name gold).1 := by
  unfold openSession
  simp only
  have registered : ∀ world session outcome, session.playerId = player →
      ({ server with world } : Server F).registerSession peer session = outcome → Booked outcome.1 := by
    rintro world session _ rfl rfl
    have moved : Booked { server with world } := booked.sessions rfl booked.rows
    exact booked_registerSession moved peer row
  split <;> rename_i registering
  · exact registered _ _ _ rfl registering
  · exact (registered _ _ _ rfl registering).keeps (KeepsIndex.trans (.post _ _ _) (.emitAoi _ _ _))

theorem booked_joinPlayer (booked : Booked server) {player : UInt64} (row : HasRow server.db player)
    (moment : Moment) (peer : PeerId) (identityHash name : String) (gold : Int64) :
    Booked (server.joinPlayer moment peer player identityHash name gold).1 := by
  obtain ⟨ready, same⟩ := booked_supersede booked peer player
  unfold joinPlayer
  split <;> rename_i superseding
  · rw [superseding] at ready
    exact ready
  · rw [superseding] at ready same
    exact booked_openSession ready (same ▸ row) moment peer identityHash name gold

theorem booked_admitPlayer (booked : Booked server) (moment : Moment) (peer : PeerId)
    (identityHash name : String) (known : Option UInt64) :
    Booked (server.admitPlayer moment peer identityHash name known).1 := by
  unfold admitPlayer
  split <;> rename_i admission
  · exact booked
  · obtain ⟨kept, rows, -⟩ := admitPlayerByToken_kept booked.kept (attempt_eq_ok admission)
    exact (booked.withDb kept rows).keeps (.post _ _ _)
  · rename_i player db
    obtain ⟨kept, rows, admitted⟩ := admitPlayerByToken_kept booked.kept (attempt_eq_ok admission)
    have stored : Booked { server with db } := booked.withDb kept rows
    have row : HasRow db player.id.toUInt64 := admitted player rfl
    simp only
    split
    · exact stored
    split
    · split
      · exact stored
      · exact booked_joinPlayer stored row moment peer identityHash name _
    · split
      · exact stored
      · refine booked_joinPlayer (Booked.keeps stored ?_) row moment peer identityHash name _
        exact .of_sessions_eq rfl rfl

theorem booked_admitHello (booked : Booked server) (moment : Moment) (peer : PeerId)
    (identityHash name : String) (sourceIp : IpAddr) :
    Booked (server.admitHello moment peer identityHash name sourceIp).1 := by
  have charged : ∀ sources reconnects newcomers, Booked
      { server with
        sourceSessionLimiter := sources
        reconnectLimiter := reconnects
        newSessionLimiter := newcomers } := fun _ _ _ =>
    booked.keeps (.of_sessions_eq rfl rfl)
  unfold admitHello
  simp only
  split
  · exact (charged _ server.reconnectLimiter server.newSessionLimiter).keeps (.post _ _ _)
  split
  · split
    · exact (charged _ _ server.newSessionLimiter).keeps (.post _ _ _)
    · exact booked_admitPlayer (charged _ _ server.newSessionLimiter) moment peer _ _ _
  · split
    · exact (charged _ server.reconnectLimiter _).keeps (.post _ _ _)
    · exact booked_admitPlayer (charged _ server.reconnectLimiter _) moment peer _ _ _

theorem booked_onHelloAt (booked : Booked server) (moment : Moment) (peer : PeerId) (hello : ClientHello) :
    Booked (server.onHelloAt moment peer hello).1 := by
  have charged : ∀ limiter, Booked { server with helloLimiter := limiter } := fun _ =>
    booked.keeps (.of_sessions_eq rfl rfl)
  unfold onHelloAt
  simp only
  split
  · exact charged _
  split
  · exact (charged _).keeps (.post _ _ _)
  split
  · exact (charged _).keeps (.post _ _ _)
  split
  · unfold repeatHello
    split
    · exact (charged _).keeps (.post _ _ _)
    split
    · exact charged _
    · exact (charged _).keeps (.post _ _ _)
  · split
    · exact charged _
    · exact booked_admitHello (charged _) moment peer _ _ _

theorem booked_onClientState (booked : Booked server) (moment : Moment) (peer : PeerId)
    (state : ClientState F) : Booked (server.onClientState moment peer state) := by
  have charged : ∀ limiter, Booked { server with clientStateLimiter := limiter } := fun _ =>
    booked.keeps (.of_sessions_eq rfl rfl)
  unfold onClientState
  split
  · exact booked
  · rename_i session found
    simp only
    split
    · exact charged _
    split
    · exact charged _
    · refine Booked.keeps (booked.sessions ?_ ?_) (.emitAoi _ _ _)
      · rfl
      · intro other held present
        simp only [FiniteMap.get?_insert] at present
        split at present
        · cases present
          exact booked.rows peer session found
        · exact booked.rows other held present

theorem booked_applyEcon (booked : Booked server) (moment : Moment) (peer : PeerId) {player : UInt64}
    (row : HasRow server.db player) (txn : Txn) : Booked (server.applyEcon moment peer player txn).1 := by
  obtain ⟨kept, rows⟩ := ledgerApply_kept (storeFaults moment) moment.persistenceMs txn booked.kept row
  unfold applyEcon
  split <;> rename_i applied
  · rw [applied] at kept rows
    exact booked.withDb kept rows
  · rw [applied] at kept rows
    exact (booked.withDb kept rows).keeps (.post _ _ _)

theorem booked_onEcon (booked : Booked server) (moment : Moment) (peer : PeerId) (txn : EconTxn) :
    Booked (server.onEcon moment peer txn).1 := by
  unfold onEcon
  split
  · exact booked
  · rename_i session found
    have row := booked.rows peer session found
    have charged : ∀ limiter, Booked { server with econLimiter := limiter } := fun _ =>
      booked.keeps (.of_sessions_eq rfl rfl)
    simp only
    split
    · exact booked
    split
    · exact booked
    · exact booked_applyEcon booked moment peer row _
    split
    · exact booked_applyEcon (charged (server.econLimiter.allow session.playerId moment.admissionMs).1)
        moment peer row _
    · exact charged _

theorem booked_applyTrade (booked : Booked server) (moment : Moment) (peer : PeerId) (trade : Market.Trade) :
    Booked (server.applyTrade moment peer trade).1 := by
  obtain ⟨players, ledger⟩ := marketApply_rows (storeFaults moment) moment.persistenceMs server.db trade
  have stored : Booked { server with
      db := (marketApply (storeFaults moment) moment.persistenceMs server.db trade).2 } := by
    refine booked.withDb (booked.kept.of_rows players ledger) ?_
    rintro player ⟨row, present⟩
    exact ⟨row, by rwa [Db.player, players]⟩
  unfold applyTrade
  split <;> rename_i applied
  · rw [applied] at stored
    exact stored
  · rw [applied] at stored
    exact stored.keeps (.post _ _ _)

theorem booked_onTrade (booked : Booked server) (moment : Moment) (peer : PeerId)
    (request : MarketTradeRequest) : Booked (server.onTrade moment peer request).1 := by
  have charged : ∀ limiter, Booked { server with tradeLimiter := limiter } := fun _ =>
    booked.keeps (.of_sessions_eq rfl rfl)
  unfold onTrade
  split
  · exact booked
  simp only
  split
  · exact booked
  · exact booked_applyTrade booked moment peer _
  split
  · exact booked_applyTrade (charged _) moment peer _
  · unfold throttleTrade
    split
    · exact charged _
    · exact (charged _).keeps (.post _ _ _)

theorem booked_onDisconnect (booked : Booked server) (moment : Moment) (peer : PeerId) :
    Booked (server.onDisconnect moment peer).1 := by
  have cleared : Booked { server with helloLimiter := server.helloLimiter.clear (UInt64.ofNat peer) } :=
    booked.keeps (.of_sessions_eq rfl rfl)
  have dropped := booked_unregisterSession cleared peer
  unfold onDisconnect
  simp only
  split <;> rename_i dropping
  · rw [dropping] at dropped
    exact dropped
  · rename_i gone session
    rw [dropping] at dropped
    have away : Booked ({ gone with world := gone.world.remove session.playerId }.clearPlayerLimiters
        session.playerId) := dropped.sessions rfl dropped.rows
    exact away.keeps (persistDeparture_keeps _ moment session.playerId).1

theorem booked_handleEvent [Codec F] (booked : Booked server) (moment : Moment) (event : Event) :
    Booked (server.handleEvent moment event).1 := by
  cases event with
  | connected peer => exact booked
  | disconnected peer reason => exact booked_onDisconnect booked moment peer
  | data peer bytes =>
      unfold handleEvent handleDataAt
      simp only
      split
      · exact booked
      · exact booked_onHelloAt booked moment peer _
      · exact booked_onClientState booked moment peer _
      · exact booked_onEcon booked moment peer _
      · exact booked_onTrade booked moment peer _
      · exact booked.keeps (onMoor_keeps server moment _).1
      · exact booked.keeps (keeps_onChat server moment _)

/-- Every server opened on kept books keeps them, and only players with a row hold sessions. -/
theorem reachable_booked [Codec F] {db : Db F} {pending : List Event} (kept : Kept db)
    (reached : Reachable db server pending) : Booked server := by
  induction reached with
  | start opened =>
      unfold Server.new at opened
      cases loaded : loadIdentityPlayers db with
      | error failure =>
          rw [loaded] at opened
          cases opened
      | ok identityPlayers =>
          rw [loaded] at opened
          cases opened
          exact ⟨kept, by simp [Server.opened]⟩
  | poll now script _ _ ih => exact ih.sessions rfl ih.rows
  | handle moment _ ih => exact booked_handleEvent ih moment _
  | tick tick _ ih => exact ih.keeps (keeps_tick _ tick)

end Sessions
end SailwindOnline.Books
