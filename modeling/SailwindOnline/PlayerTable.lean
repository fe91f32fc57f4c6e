import SailwindOnline.EconStore

/-!
The `players` table as a set of identities. Its schema keeps token hashes
unique and gives ids in ascending order; no call deletes a row, only
`admit_player_by_token` adds one, and everything else the server writes leaves
the pairs of token hash and id alone.
-/

namespace SailwindOnline.PlayerTable
open MachineInt Persistence EconStore

section Rows
variable {F : Type}

def identityOf (row : PlayerRow) : String × Int64 := (row.tokenHash, row.id)

def identities (db : Db F) : List (String × Int64) := db.players.map identityOf

/-- The constraints of the schema: `id INTEGER PRIMARY KEY AUTOINCREMENT`, `token_hash UNIQUE`. -/
structure WellFormed (db : Db F) : Prop where
  hashes : (db.players.map PlayerRow.tokenHash).Nodup
  ids : (db.players.map PlayerRow.id).Nodup
  positive : ∀ row ∈ db.players, 0 < row.id
  given : ∀ row ∈ db.players, row.id ≤ db.playerSequence
  counting : 0 ≤ db.playerSequence

structure SameIdentities (before after : Db F) : Prop where
  rows : identities after = identities before
  sequence : after.playerSequence = before.playerSequence

namespace SameIdentities
variable {before middle after : Db F}

theorem refl (db : Db F) : SameIdentities db db := ⟨rfl, rfl⟩

theorem trans (first : SameIdentities before middle) (second : SameIdentities middle after) :
    SameIdentities before after :=
  ⟨second.rows.trans first.rows, second.sequence.trans first.sequence⟩

theorem updatePlayer (db : Db F) (id : Int64) (change : PlayerRow → PlayerRow)
    (kept : ∀ row, identityOf (change row) = identityOf row) :
    SameIdentities db (db.updatePlayer id change) := by
  refine ⟨?_, rfl⟩
  simp only [identities, Db.updatePlayer, List.map_map]
  congr 1
  funext row
  simp only [Function.comp_apply]
  split
  · exact kept row
  · rfl

theorem touchLastSeen (db : Db F) (id now : Int64) : SameIdentities db (db.touchLastSeen id now) :=
  updatePlayer db id _ fun _ => rfl

theorem length_eq (same : SameIdentities before after) : after.players.length = before.players.length := by
  simpa [identities] using congrArg List.length same.rows

/-- Every row of one table is a row of the other, up to what identities do not show. -/
theorem row_of (same : SameIdentities before after) {row : PlayerRow} (member : row ∈ after.players) :
    ∃ old ∈ before.players, identityOf old = identityOf row := by
  have listed : identityOf row ∈ identities before := same.rows ▸ List.mem_map_of_mem member
  exact List.mem_map.mp listed

theorem symm (same : SameIdentities before after) : SameIdentities after before :=
  ⟨same.rows.symm, same.sequence.symm⟩

theorem wellFormed (same : SameIdentities before after) (formed : WellFormed before) : WellFormed after := by
  have hashes : after.players.map PlayerRow.tokenHash = before.players.map PlayerRow.tokenHash := by
    simpa [identities, identityOf, Function.comp_def] using congrArg (List.map Prod.fst) same.rows
  have ids : after.players.map PlayerRow.id = before.players.map PlayerRow.id := by
    simpa [identities, identityOf, Function.comp_def] using congrArg (List.map Prod.snd) same.rows
  refine ⟨hashes ▸ formed.hashes, ids ▸ formed.ids, ?_, ?_, same.sequence ▸ formed.counting⟩
  · intro row member
    obtain ⟨old, present, equal⟩ := same.row_of member
    have own : old.id = row.id := congrArg Prod.snd equal
    exact own ▸ formed.positive old present
  · intro row member
    obtain ⟨old, present, equal⟩ := same.row_of member
    have own : old.id = row.id := congrArg Prod.snd equal
    rw [same.sequence]
    exact own ▸ formed.given old present

end SameIdentities

/-! What the economy writes. -/

theorem ledgerApply_tables (faults : StoreFaults) (nowMs : Int64) (db : Db F) (player : UInt64)
    (txn : Ledger.Txn) :
    (ledgerApply faults nowMs db player txn).2 = db ∨
      ∃ row newBalance, (ledgerApply faults nowMs db player txn).2 = committedDb db row newBalance := by
  unfold ledgerApply
  split <;> rename_i applied
  · unfold Ledger.apply at applied
    split at applied
    · cases applied
    · cases applied
      exact Or.inl rfl
    split at applied
    · cases applied
    split at applied
    · split at applied
      · split at applied <;> rename_i stored
        · cases applied
        · cases applied
          have committed := attempt_eq_ok stored
          unfold Db.commitTxn at committed
          split at committed
          · cases committed
          · cases committed
            exact Or.inr ⟨_, _, rfl⟩
      · cases applied
        exact Or.inl rfl
    · cases applied
      exact Or.inl rfl
  · exact Or.inl rfl

theorem marketApply_tables (faults : StoreFaults) (nowMs : Int64) (db : Db F) (trade : Market.Trade) :
    ∃ market marketTrades, (marketApply faults nowMs db trade).2 = { db with market, marketTrades } := by
  unfold marketApply
  split <;> rename_i applied
  · unfold Market.apply at applied
    split at applied
    · cases applied
    · cases applied
      exact ⟨_, _, rfl⟩
    split at applied
    · cases applied
    split at applied
    · cases applied
      exact ⟨_, _, rfl⟩
    split at applied
    · split at applied
      · split at applied <;> rename_i stored
        · cases applied
        · cases applied
          have committed := attempt_eq_ok stored
          unfold Db.commitTrade at committed
          split at committed
          · cases committed
          · split at committed
            · cases committed
            · cases committed
              exact ⟨_, _, rfl⟩
      · cases applied
        exact ⟨_, _, rfl⟩
    · cases applied
      exact ⟨_, _, rfl⟩
  · exact ⟨_, _, rfl⟩

theorem SameIdentities.ledgerApply (faults : StoreFaults) (nowMs : Int64) (db : Db F) (player : UInt64)
    (txn : Ledger.Txn) : SameIdentities db (EconStore.ledgerApply faults nowMs db player txn).2 := by
  rcases ledgerApply_tables faults nowMs db player txn with same | ⟨row, newBalance, committed⟩
  · rw [same]
    exact .refl db
  · rw [committed]
    have written := SameIdentities.updatePlayer { db with ledger := db.ledger ++ [row] } row.playerId
      (fun owner => { owner with gold := newBalance }) fun _ => rfl
    exact ⟨written.rows, written.sequence⟩

theorem SameIdentities.marketApply (faults : StoreFaults) (nowMs : Int64) (db : Db F)
    (trade : Market.Trade) : SameIdentities db (EconStore.marketApply faults nowMs db trade).2 := by
  obtain ⟨market, marketTrades, committed⟩ := marketApply_tables faults nowMs db trade
  rw [committed]
  exact ⟨rfl, rfl⟩

end Rows

/-! Admission by token. -/
section Admission
variable {F : Type} {db after : Db F} {tokenHash name : String} {now : Int64} {maxRows : UInt32}
  {admission : PlayerAdmission}

def refreshed (name : String) (now : Int64) (row : PlayerRow) : PlayerRow :=
  { row with name := name, lastSeen := now }

def HasIdentity (db : Db F) (tokenHash : String) : Prop := ∃ row ∈ db.players, row.tokenHash = tokenHash

/-- What an admission that reaches its commit does to the table. -/
inductive Admitted (db : Db F) (tokenHash name : String) (now : Int64) (maxRows : UInt32) :
    PlayerAdmission → Db F → Prop
  | returning {row : PlayerRow} (member : row ∈ db.players) (own : row.tokenHash = tokenHash) :
      Admitted db tokenHash name now maxRows (.admitted (refreshed name now row))
        (db.updatePlayer row.id (refreshed name now))
  | full (unknown : ¬ HasIdentity db tokenHash) (crowded : maxRows.toNat ≤ db.players.length) :
      Admitted db tokenHash name now maxRows .capacityReached db
  | newcomer {id : Int64} (unknown : ¬ HasIdentity db tokenHash) (room : db.players.length < maxRows.toNat)
      (next : checkedAdd db.playerSequence 1 = some id) :
      Admitted db tokenHash name now maxRows (.admitted ⟨id, name, tokenHash, 0, now, now⟩)
        { db with players := db.players ++ [⟨id, name, tokenHash, 0, now, now⟩], playerSequence := id }

theorem find_none_iff (db : Db F) (tokenHash : String) :
    db.players.find? (fun row => row.tokenHash = tokenHash) = none ↔ ¬ HasIdentity db tokenHash := by
  simp [HasIdentity, List.find?_eq_none]

theorem admitPlayerByToken_spec (done : db.admitPlayerByToken tokenHash name now maxRows = .ok (admission, after)) :
    Admitted db tokenHash name now maxRows admission after := by
  unfold Db.admitPlayerByToken at done
  split at done <;> rename_i found
  · cases done
    exact .returning (List.mem_of_find?_eq_some found) (by simpa using List.find?_some found)
  · have unknown := (find_none_iff db tokenHash).mp found
    split at done <;> rename_i crowded
    · cases done
      exact .full unknown crowded
    · split at done <;> rename_i next
      · cases done
      · cases done
        exact .newcomer unknown (by omega) next

/-- A counter that gave the next id was not at its end, and the id is larger than every row's. -/
theorem next_id {id : Int64} (formed : WellFormed db) (next : checkedAdd db.playerSequence 1 = some id) :
    0 < id ∧ db.playerSequence < id := by
  have exact_sum := checkedAdd_some _ _ _ next
  have counting := Int64.le_iff_toInt_le.mp formed.counting
  have one : (1 : Int64).toInt = 1 := rfl
  have zero : (0 : Int64).toInt = 0 := rfl
  rw [Int64.lt_iff_toInt_lt, Int64.lt_iff_toInt_lt]
  omega

theorem Admitted.wellFormed (formed : WellFormed db)
    (admitted : Admitted db tokenHash name now maxRows admission after) : WellFormed after := by
  cases admitted with
  | returning member own =>
      exact (SameIdentities.updatePlayer db _ (refreshed name now) fun _ => rfl).wellFormed formed
  | full unknown crowded => exact formed
  | newcomer unknown room next =>
      obtain ⟨positive, larger⟩ := next_id formed next
      refine ⟨?_, ?_, ?_, ?_, positive.le⟩
      · simp only [List.map_append, List.map_cons, List.map_nil]
        refine List.Nodup.append formed.hashes (List.nodup_singleton _) ?_
        simp only [List.disjoint_singleton, List.mem_map, not_exists, not_and]
        intro row member own
        exact unknown ⟨row, member, own⟩
      · simp only [List.map_append, List.map_cons, List.map_nil]
        refine List.Nodup.append formed.ids (List.nodup_singleton _) ?_
        simp only [List.disjoint_singleton, List.mem_map, not_exists, not_and]
        intro row member own
        exact absurd (formed.given row member) (not_le.mpr (own ▸ larger))
      · intro row member
        rcases List.mem_append.mp member with earlier | new
        · exact formed.positive row earlier
        · rw [List.mem_singleton.mp new]
          exact positive
      · intro row member
        rcases List.mem_append.mp member with earlier | new
        · exact (formed.given row earlier).trans larger.le
        · rw [List.mem_singleton.mp new]

end Admission

end SailwindOnline.PlayerTable
