import SailwindOnline.Ledger
import SailwindOnline.Market
import SailwindOnline.Persistence

/-!
The adapters of `econ_store.rs`: the ledger and market policies over the SQLite
tables. A store is built for one request, so it carries that request's clock and
which of its three operations the disk fails; each policy uses each at most once.
-/

namespace SailwindOnline.EconStore
open MachineInt Persistence Ledger Market

structure StoreFaults where
  lookup : Bool
  read : Bool
  commit : Bool
  deriving DecidableEq

def noFaults : StoreFaults := ⟨false, false, false⟩

structure DbLedgerStore (F : Type) where
  db : Db F
  nowMs : Int64
  faults : StoreFaults

structure DbMarketStore (F : Type) where
  db : Db F
  nowMs : Int64
  faults : StoreFaults

variable {F : Type}

def ledgerRow (player : PlayerId) (txn : Txn) (nowMs : Int64) : LedgerRow :=
  ⟨txn.txnId.toInt64, player.toInt64, txn.amountGold, txn.kind, txn.note, nowMs⟩

instance : LedgerStore (DbLedgerStore F) DbError where
  balance store player := attempt store.faults.read (.ok (store.db.playerBalance player.toInt64))
  lookupTxn store txnId := attempt store.faults.lookup
    (.ok ((store.db.lookupTxn txnId.toInt64).map (fun found => ⟨found.1.toUInt64, found.2⟩)))
  commit store player txn newBalance := attempt store.faults.commit
    ((store.db.commitTxn (ledgerRow player txn store.nowMs) newBalance).map
      (fun db => { store with db := db }))

instance : MarketStore (DbMarketStore F) DbError where
  state store port item := attempt store.faults.read (.ok ((store.db.marketState port item).getD (0, 0)))
  lookupTrade store txnId := attempt store.faults.lookup
    ((store.db.lookupTrade txnId).map
      (Option.map (fun row => ⟨row.portId, row.itemId, row.stock, row.price⟩)))
  commit store trade newStock newPrice := attempt store.faults.commit
    ((store.db.commitTrade trade.txnId trade.portId trade.itemId newStock newPrice store.nowMs).map
      (fun db => { store with db := db }))

/-- One request against the tables: a failed application leaves them as they were. -/
def ledgerApply (faults : StoreFaults) (nowMs : Int64) (db : Db F) (player : PlayerId) (txn : Txn) :
    Except DbError LedgerAck × Db F :=
  match Ledger.apply (DbLedgerStore.mk db nowMs faults) player txn with
  | .ok (ack, store) => (.ok ack, store.db)
  | .error failure => (.error failure, db)

def marketApply (faults : StoreFaults) (nowMs : Int64) (db : Db F) (trade : Trade) :
    Except DbError MarketAck × Db F :=
  match Market.apply (DbMarketStore.mk db nowMs faults) trade with
  | .ok (ack, store) => (.ok ack, store.db)
  | .error failure => (.error failure, db)

/-! The ledger tables against the journal of their commits. -/
section LedgerTables

structure DbCall where
  player : PlayerId
  txn : Txn
  nowMs : Int64

def DbCall.call (request : DbCall) : Call := (request.player, request.txn)

def dbServe (db : Db F) (request : DbCall) : Except DbError LedgerAck × Db F :=
  ledgerApply noFaults request.nowMs db request.player request.txn

def memServe (store : MemStore) (request : DbCall) : Except DbError LedgerAck × MemStore :=
  (.ok (Ledger.memApply store request.call).1, (Ledger.memApply store request.call).2)

def rowEntry (row : LedgerRow) : Ledger.Entry :=
  ⟨row.txnId.toUInt64, row.playerId.toUInt64, row.amount.toInt⟩

def HasRow (db : Db F) (player : PlayerId) : Prop := ∃ row, db.player player.toInt64 = some row

-- `counted` are the players whose gold is accounted for by the journal.
structure DbRepresents (counted : PlayerId → Prop) (db : Db F) (log : List Ledger.Entry) : Prop where
  entries : db.ledger.map rowEntry = log
  owners : ∀ entry ∈ log, HasRow db entry.account
  balances : ∀ player, counted player →
    (db.playerBalance player.toInt64).toInt = Journal.total log player

def committedDb (db : Db F) (row : LedgerRow) (newBalance : Int64) : Db F :=
  { db with ledger := db.ledger ++ [row] }.updatePlayer row.playerId
    (fun owner => { owner with gold := newBalance })

theorem player_committedDb (db : Db F) (row : LedgerRow) (newBalance id : Int64) :
    (committedDb db row newBalance).player id =
      (db.player id).map (fun owner => if owner.id = row.playerId then
        { owner with gold := newBalance } else owner) :=
  Db.player_updatePlayer { db with ledger := db.ledger ++ [row] } row.playerId id
    (fun owner => { owner with gold := newBalance }) (fun _ => rfl)

theorem hasRow_committedDb (db : Db F) (row : LedgerRow) (newBalance : Int64) (player : PlayerId)
    (present : HasRow db player) : HasRow (committedDb db row newBalance) player := by
  obtain ⟨owner, found⟩ := present
  rw [HasRow, player_committedDb, found]
  exact ⟨_, rfl⟩

theorem balance_committedDb (db : Db F) (row : LedgerRow) (newBalance id : Int64)
    (present : ∃ owner, db.player row.playerId = some owner) :
    (committedDb db row newBalance).playerBalance id =
      if id = row.playerId then newBalance else db.playerBalance id := by
  unfold Db.playerBalance
  rw [player_committedDb]
  by_cases own : id = row.playerId
  · obtain ⟨owner, found⟩ := present
    have key := Db.player_id db row.playerId owner found
    simp [own, found, key]
  · cases found : db.player id with
    | none => simp [own]
    | some owner =>
        have key := Db.player_id db id owner found
        simp [own, key]

theorem toUInt64_eq_iff (left : Int64) (right : UInt64) :
    left.toUInt64 = right ↔ left = right.toInt64 := by
  constructor
  · rintro rfl
    rfl
  · rintro rfl
    rfl

theorem recorded_rows (db : Db F) (id : UInt64) :
    Journal.recorded (db.ledger.map rowEntry) id = db.ledger.any (fun row => row.txnId = id.toInt64) := by
  simp only [Journal.recorded, List.any_map, Function.comp_def, rowEntry, toUInt64_eq_iff]

/-- Committed ids are found with the current gold of their owner, not a stored balance. -/
theorem lookup_represents (counted : PlayerId → Prop) (db : Db F) (log : List Ledger.Entry)
    (rep : DbRepresents counted db log) (id : UInt64) :
    (Journal.recorded log id = false ∧ db.lookupTxn id.toInt64 = none) ∨
    (∃ entry ∈ log, entry.id = id ∧ db.lookupTxn id.toInt64 =
      some (entry.account.toInt64, db.playerBalance entry.account.toInt64)) := by
  cases found : db.ledger.find? (fun row => row.txnId = id.toInt64) with
  | none =>
      refine Or.inl ⟨?_, by simp [Db.lookupTxn, found]⟩
      rw [← rep.entries, recorded_rows]
      simpa using found
  | some row =>
      have member : rowEntry row ∈ log := by
        rw [← rep.entries]
        exact List.mem_map_of_mem (List.mem_of_find?_eq_some found)
      have key : row.txnId = id.toInt64 := by simpa using List.find?_some found
      obtain ⟨owner, present⟩ := rep.owners (rowEntry row) member
      refine Or.inr ⟨rowEntry row, member, (toUInt64_eq_iff _ _).mpr key, ?_⟩
      change db.player row.playerId = some owner at present
      change _ = some (row.playerId, db.playerBalance row.playerId)
      simp [Db.lookupTxn, found, Db.playerBalance, present]

theorem commit_represents (counted : PlayerId → Prop) (db : Db F) (log : List Ledger.Entry)
    (request : DbCall) (newBalance : Int64) (rep : DbRepresents counted db log)
    (row : HasRow db request.player)
    (exact : newBalance.toInt =
      Journal.total log request.player + request.txn.amountGold.toInt) :
    DbRepresents counted
      (committedDb db (ledgerRow request.player request.txn request.nowMs) newBalance)
      (log ++ [Ledger.entryOf request.call]) := by
  constructor
  · simp [committedDb, rep.entries, rowEntry, ledgerRow, Ledger.entryOf, DbCall.call]
  · intro entry member
    apply hasRow_committedDb
    rcases List.mem_append.mp member with old | new
    · exact rep.owners entry old
    · rw [List.mem_singleton] at new
      subst new
      exact row
  · intro player inScope
    rw [balance_committedDb db (ledgerRow request.player request.txn request.nowMs) newBalance _ row,
      Journal.total_snoc]
    change (if player.toInt64 = request.player.toInt64 then newBalance else _).toInt =
      _ + if request.player = player then request.txn.amountGold.toInt else 0
    by_cases own : player = request.player
    · subst own
      simpa using exact
    · have other : player.toInt64 ≠ request.player.toInt64 :=
        fun same => own (toInt64_injective _ _ same)
      simpa [other, Ne.symm own] using rep.balances player inScope

theorem store_commit (db : Db F) (player : PlayerId) (txn : Txn) (nowMs newBalance : Int64)
    (unused : db.ledger.any (fun row => row.txnId = txn.txnId.toInt64) = false) :
    LedgerStore.commit (DbLedgerStore.mk db nowMs noFaults) player txn newBalance =
      .ok (DbLedgerStore.mk (committedDb db (ledgerRow player txn nowMs) newBalance) nowMs
        noFaults) := by
  have fresh : db.commitTxn (ledgerRow player txn nowMs) newBalance =
      .ok (committedDb db (ledgerRow player txn nowMs) newBalance) := by
    have absent : ¬ db.ledger.any (fun row => row.txnId = (ledgerRow player txn nowMs).txnId) = true := by
      rw [show (ledgerRow player txn nowMs).txnId = txn.txnId.toInt64 from rfl, unused]
      decide
    rw [Db.commitTxn, if_neg absent]
    rfl
  change attempt false ((db.commitTxn (ledgerRow player txn nowMs) newBalance).map _) = _
  rw [fresh]
  rfl

/-- The three outcomes of one application over the tables. A replay answers with
the owner's gold as it is now. -/
theorem dbServe_cases (counted : PlayerId → Prop) (db : Db F) (log : List Ledger.Entry)
    (request : DbCall) (rep : DbRepresents counted db log) (sound : Journal.Sound maxI64 log)
    (inScope : counted request.player) :
    (∃ entry ∈ log, entry.id = request.txn.txnId ∧
      Journal.post maxI64 log (Ledger.entryOf request.call) = (.replayed, log) ∧
      dbServe db request = (.ok ⟨request.txn.txnId, true,
        db.playerBalance entry.account.toInt64, "duplicate (idempotent replay)"⟩, db)) ∨
    (∃ newBalance, newBalance.toInt =
        Journal.total log request.player + request.txn.amountGold.toInt ∧
      Journal.recorded log request.txn.txnId = false ∧
      Journal.post maxI64 log (Ledger.entryOf request.call) = (.posted, log ++ [Ledger.entryOf request.call]) ∧
      (judge (db.playerBalance request.player.toInt64) request.txn).1 =
        ⟨request.txn.txnId, true, newBalance, ""⟩ ∧
      dbServe db request = (.ok (judge (db.playerBalance request.player.toInt64) request.txn).1,
        committedDb db (ledgerRow request.player request.txn request.nowMs) newBalance)) ∨
    (Journal.post maxI64 log (Ledger.entryOf request.call) = (.refused, log) ∧
      Journal.recorded log request.txn.txnId = false ∧
      (judge (db.playerBalance request.player.toInt64) request.txn).1.accepted = false ∧
      dbServe db request =
        (.ok (judge (db.playerBalance request.player.toInt64) request.txn).1, db)) := by
  -- A recorded id is replayed; a fresh one is judged on the balance that the journal sums up to.
  rcases lookup_represents counted db log rep request.txn.txnId with
    ⟨fresh, found⟩ | ⟨entry, member, same, found⟩
  · have answer := apply_fresh (DbLedgerStore.mk db request.nowMs noFaults) request.player
      request.txn (db.playerBalance request.player.toInt64)
      (by simp [LedgerStore.lookupTxn, attempt, noFaults, found]) rfl
    have unused : db.ledger.any (fun row => row.txnId = request.txn.txnId.toInt64) = false := by
      rw [← recorded_rows, rep.entries]
      exact fresh
    rcases judge_post log request.call (db.playerBalance request.player.toInt64)
        (rep.balances _ inScope) sound fresh with
      ⟨newBalance, verdict, exact, posted⟩ | ⟨kept, refused, posted⟩
    · refine Or.inr (Or.inl ⟨newBalance, exact, fresh, posted, congrArg Prod.fst verdict, ?_⟩)
      simp only [DbCall.call] at verdict
      simp only [verdict, store_commit db request.player request.txn request.nowMs newBalance unused,
        Except.map] at answer
      simp only [dbServe, ledgerApply, answer, verdict]
    · refine Or.inr (Or.inr ⟨posted, fresh, refused, ?_⟩)
      simp only [DbCall.call] at kept
      rw [kept] at answer
      simp only [dbServe, ledgerApply, answer]
  · have present := (Journal.recorded_iff log request.txn.txnId).mpr ⟨entry, member, same⟩
    have answer := apply_replay (DbLedgerStore.mk db request.nowMs noFaults) request.player
      request.txn ⟨entry.account, db.playerBalance entry.account.toInt64⟩
      (by simp [LedgerStore.lookupTxn, attempt, noFaults, found])
    refine Or.inl ⟨entry, member, same, ?_, by simp only [dbServe, ledgerApply, answer]⟩
    simp [Journal.post, Ledger.entryOf, DbCall.call, present]

theorem dbServe_represents (counted : PlayerId → Prop) (db : Db F) (log : List Ledger.Entry)
    (request : DbCall) (rep : DbRepresents counted db log) (sound : Journal.Sound maxI64 log)
    (row : HasRow db request.player) (inScope : counted request.player) :
    DbRepresents counted (dbServe db request).2
      (Journal.post maxI64 log (Ledger.entryOf request.call)).2 := by
  rcases dbServe_cases counted db log request rep sound inScope with
    ⟨_, _, _, posted, answer⟩ | ⟨newBalance, exact, _, posted, _, answer⟩ | ⟨posted, _, _, answer⟩
  · simpa [posted, answer] using rep
  · rw [posted, answer]
    exact commit_represents counted db log request newBalance rep row exact
  · simpa [posted, answer] using rep

theorem dbServe_hasRow (counted : PlayerId → Prop) (db : Db F) (log : List Ledger.Entry)
    (request : DbCall) (rep : DbRepresents counted db log) (sound : Journal.Sound maxI64 log)
    (inScope : counted request.player) (player : PlayerId)
    (present : HasRow db player) : HasRow (dbServe db request).2 player := by
  rcases dbServe_cases counted db log request rep sound inScope with
    ⟨_, _, _, _, answer⟩ | ⟨newBalance, _, _, _, _, answer⟩ | ⟨_, _, _, answer⟩
  · simpa [answer] using present
  · rw [answer]
    exact hasRow_committedDb db _ newBalance player present
  · simpa [answer] using present

end LedgerTables
end SailwindOnline.EconStore
