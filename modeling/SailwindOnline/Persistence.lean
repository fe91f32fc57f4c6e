import SailwindOnline.FiniteMap
import SailwindOnline.MachineInt

/-!
The SQLite layer of `sw-persist`, one list or map per table. Rows of `players`
and `moorings` are kept in primary-key order, rows of `ledger` and
`market_trades` in commit order. Every call is one transaction: it either
returns the new tables or fails and changes nothing. A disk failure is an input
(`attempt`); constraint and conversion failures come from the tables and the
bound values.
-/

namespace SailwindOnline.Persistence
open MachineInt

inductive DbError where
  | disk
  | constraint
  | conversion
  | full
  | invalidParameter
  deriving DecidableEq

structure PlayerRow where
  id : Int64
  name : String
  tokenHash : String
  gold : Int64
  createdAt : Int64
  lastSeen : Int64
  deriving DecidableEq

structure LedgerRow where
  txnId : Int64
  playerId : Int64
  amount : Int64
  kind : UInt8
  note : String
  appliedAt : Int64
  deriving DecidableEq

structure TradeRow where
  txnId : Int64
  portId : UInt32
  itemId : UInt32
  stock : Int64
  price : Int64
  appliedAt : Int64
  deriving DecidableEq

structure MooringRow (F : Type) where
  boatId : Int64
  owner : Int64
  cellX : Int
  cellZ : Int
  pos : F × F × F
  rot : F × F × F × F
  name : String
  createdAt : Int64

inductive PlayerAdmission where
  | admitted (row : PlayerRow)
  | capacityReached
  deriving DecidableEq

-- `playerSequence` is SQLite's AUTOINCREMENT counter: the largest id ever given.
structure Db (F : Type) where
  players : List PlayerRow
  playerSequence : Int64
  ledger : List LedgerRow
  market : FiniteMap (UInt32 × UInt32) (Int64 × Int64)
  marketTrades : List TradeRow
  moorings : List (MooringRow F)

def maxMooringsPageRows : Nat := 8

def attempt {Result : Type} (fails : Bool) (outcome : Except DbError Result) :
    Except DbError Result :=
  if fails then .error .disk else outcome

theorem attempt_eq_ok {Result : Type} {fails : Bool} {outcome : Except DbError Result} {result : Result}
    (done : attempt fails outcome = .ok result) : outcome = .ok result := by
  unfold attempt at done
  split at done
  · cases done
  · exact done

namespace Db
variable {F : Type}

def player (db : Db F) (id : Int64) : Option PlayerRow := db.players.find? (fun row => row.id = id)

def updatePlayer (db : Db F) (id : Int64) (change : PlayerRow → PlayerRow) : Db F :=
  { db with players := db.players.map (fun row => if row.id = id then change row else row) }

def admitPlayerByToken (db : Db F) (tokenHash name : String) (now : Int64) (maxRows : UInt32) :
    Except DbError (PlayerAdmission × Db F) :=
  match db.players.find? (fun row => row.tokenHash = tokenHash) with
  | some existing =>
      let refreshed := { existing with name := name, lastSeen := now }
      .ok (.admitted refreshed,
        db.updatePlayer existing.id (fun row => { row with name := name, lastSeen := now }))
  | none =>
      if maxRows.toNat ≤ db.players.length then .ok (.capacityReached, db)
      else match checkedAdd db.playerSequence 1 with
        | none => .error .full
        | some id =>
            let row : PlayerRow := ⟨id, name, tokenHash, 0, now, now⟩
            .ok (.admitted row, { db with players := db.players ++ [row], playerSequence := id })

def playerIdentities (db : Db F) (limit : UInt32) : List (String × Int64) :=
  (db.players.take limit.toNat).map (fun row => (row.tokenHash, row.id))

def playerBalance (db : Db F) (id : Int64) : Int64 := ((db.player id).map PlayerRow.gold).getD 0

def touchLastSeen (db : Db F) (id now : Int64) : Db F :=
  db.updatePlayer id (fun row => { row with lastSeen := now })

/-- The join drops a ledger row whose player has no `players` row. -/
def lookupTxn (db : Db F) (txnId : Int64) : Option (Int64 × Int64) :=
  (db.ledger.find? (fun row => row.txnId = txnId)).bind fun row =>
    (db.player row.playerId).map fun owner => (row.playerId, owner.gold)

def commitTxn (db : Db F) (row : LedgerRow) (newBalance : Int64) : Except DbError (Db F) :=
  if db.ledger.any (fun prior => prior.txnId = row.txnId) then .error .constraint
  else .ok ({ db with ledger := db.ledger ++ [row] }.updatePlayer row.playerId
    (fun owner => { owner with gold := newBalance }))

def marketState (db : Db F) (portId itemId : UInt32) : Option (Int64 × Int64) :=
  db.market.get? (portId, itemId)

def lookupTrade (db : Db F) (txnId : UInt64) : Except DbError (Option TradeRow) :=
  match tryI64 txnId with
  | none => .error .conversion
  | some key => .ok (db.marketTrades.find? (fun row => row.txnId = key))

def commitTrade (db : Db F) (txnId : UInt64) (portId itemId : UInt32)
    (newStock newPrice appliedAt : Int64) : Except DbError (Db F) :=
  match tryI64 txnId with
  | none => .error .conversion
  | some key =>
      if db.marketTrades.any (fun prior => prior.txnId = key) then .error .constraint
      else .ok { db with
        marketTrades := db.marketTrades ++ [⟨key, portId, itemId, newStock, newPrice, appliedAt⟩]
        market := db.market.insert (portId, itemId) (newStock, newPrice) }

/-- A conflicting boat keeps its row's first `created_at` and takes every other column. -/
def upsertMooringRow (row : MooringRow F) : List (MooringRow F) → List (MooringRow F)
  | [] => [row]
  | head :: rest =>
      if head.boatId = row.boatId then { row with createdAt := head.createdAt } :: rest
      else if row.boatId < head.boatId then row :: head :: rest
      else head :: upsertMooringRow row rest

def upsertMooring (db : Db F) (row : MooringRow F) : Db F :=
  { db with moorings := upsertMooringRow row db.moorings }

def mooringsInCellAfter (db : Db F) (cellX cellZ : Int) (afterBoatId : Option Int64) (limit : Nat) :
    Except DbError (List (MooringRow F)) :=
  if 1 ≤ limit ∧ limit ≤ maxMooringsPageRows then
    .ok ((db.moorings.filter (fun row => decide (row.cellX = cellX ∧ row.cellZ = cellZ) &&
      match afterBoatId with
      | none => true
      | some cursor => decide (cursor < row.boatId))).take limit)
  else .error .invalidParameter

/-! Reading one row after an update. -/

theorem find_map_keyed {Row : Type} (keyOf : Row → Int64) (rows : List Row) (key id : Int64)
    (change : Row → Row) (kept : ∀ row, keyOf (change row) = keyOf row) :
    (rows.map (fun row => if keyOf row = key then change row else row)).find?
        (fun row => keyOf row = id) =
      (rows.find? (fun row => keyOf row = id)).map
        (fun row => if keyOf row = key then change row else row) := by
  induction rows with
  | nil => rfl
  | cons head rest ih =>
      by_cases touched : keyOf head = key <;> by_cases here : keyOf head = id <;>
        simp_all

theorem player_updatePlayer (db : Db F) (key id : Int64) (change : PlayerRow → PlayerRow)
    (kept : ∀ row, (change row).id = row.id) :
    (db.updatePlayer key change).player id =
      (db.player id).map (fun row => if row.id = key then change row else row) :=
  find_map_keyed PlayerRow.id db.players key id change kept

theorem player_id (db : Db F) (id : Int64) (row : PlayerRow) (present : db.player id = some row) :
    row.id = id := by
  simpa using List.find?_some present

@[simp] theorem updatePlayer_ledger (db : Db F) (id : Int64) (change : PlayerRow → PlayerRow) :
    (db.updatePlayer id change).ledger = db.ledger := rfl

@[simp] theorem updatePlayer_market (db : Db F) (id : Int64) (change : PlayerRow → PlayerRow) :
    (db.updatePlayer id change).market = db.market := rfl

@[simp] theorem updatePlayer_marketTrades (db : Db F) (id : Int64) (change : PlayerRow → PlayerRow) :
    (db.updatePlayer id change).marketTrades = db.marketTrades := rfl

/-! What the economy reads of the tables: everything but names, dates and moorings. -/

structure SameAccounts (before after : Db F) : Prop where
  gold : ∀ id, (after.player id).map PlayerRow.gold = (before.player id).map PlayerRow.gold
  ledger : after.ledger = before.ledger
  market : after.market = before.market
  marketTrades : after.marketTrades = before.marketTrades

namespace SameAccounts
variable {before middle after : Db F}

theorem refl (db : Db F) : SameAccounts db db := ⟨fun _ => rfl, rfl, rfl, rfl⟩

theorem of_eq (same : after = before) : SameAccounts before after := same ▸ refl _

theorem trans (first : SameAccounts before middle) (second : SameAccounts middle after) :
    SameAccounts before after :=
  ⟨fun id => (second.gold id).trans (first.gold id), second.ledger.trans first.ledger,
    second.market.trans first.market, second.marketTrades.trans first.marketTrades⟩

theorem updatePlayer (db : Db F) (id : Int64) (change : PlayerRow → PlayerRow)
    (keyed : ∀ row, (change row).id = row.id) (kept : ∀ row, (change row).gold = row.gold) :
    SameAccounts db (db.updatePlayer id change) := by
  refine ⟨fun other => ?_, rfl, rfl, rfl⟩
  rw [player_updatePlayer db id other change keyed, Option.map_map]
  congr 1
  funext row
  by_cases touched : row.id = id <;> simp [touched, kept]

theorem touchLastSeen (db : Db F) (id now : Int64) : SameAccounts db (db.touchLastSeen id now) :=
  updatePlayer db id _ (fun _ => rfl) (fun _ => rfl)

theorem upsertMooring (db : Db F) (row : MooringRow F) : SameAccounts db (db.upsertMooring row) :=
  ⟨fun _ => rfl, rfl, rfl, rfl⟩

end SameAccounts

end Db
end SailwindOnline.Persistence
