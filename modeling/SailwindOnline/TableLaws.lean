import SailwindOnline.TableWrites

/-!
What holds of the tables before and after every committed write. Identities
keep the schema and the shape a boot checks, transaction ids are never used
twice, and the market of an item is what its last trade left there.
-/

namespace SailwindOnline.TableLaws
open Persistence PlayerTable EconStore Server TableWrites

/-! The shape of an identity. -/

theorem isHexDigit_digitChar {value : Nat} (small : value < 16) :
    ((Nat.digitChar value).isDigit || ('a' ≤ Nat.digitChar value && Nat.digitChar value ≤ 'f') ||
      ('A' ≤ Nat.digitChar value && Nat.digitChar value ≤ 'F')) = true ∧ (Nat.digitChar value).utf8Size = 1 := by
  have all : ∀ value < 16, ((Nat.digitChar value).isDigit || ('a' ≤ Nat.digitChar value && Nat.digitChar value ≤ 'f') ||
      ('A' ≤ Nat.digitChar value && Nat.digitChar value ≤ 'F')) = true ∧ (Nat.digitChar value).utf8Size = 1 := by
    decide
  exact all value small

theorem hexDigits_shape (digits value : Nat) :
    (String.ofList (hexDigits digits value)).utf8ByteSize = digits ∧
      (hexDigits digits value).all (fun c => c.isDigit || ('a' ≤ c && c ≤ 'f') || ('A' ≤ c && c ≤ 'F')) = true := by
  induction digits generalizing value with
  | zero => exact ⟨rfl, rfl⟩
  | succ digits ih =>
      obtain ⟨size, hex⟩ := ih (value / 16)
      obtain ⟨own, single⟩ := isHexDigit_digitChar (Nat.mod_lt value (by decide : 0 < 16))
      constructor
      · rw [hexDigits, String.ofList_append, String.utf8ByteSize_append, size, ← String.singleton_eq_ofList,
          String.utf8ByteSize_singleton, single]
      · rw [hexDigits, List.all_append, hex, List.all_cons, own]
        rfl

/-- Every identity key passes the check of the next boot. -/
theorem tokenHash_hex (token : String) : isHexIdentity (tokenHash token) = true := by
  obtain ⟨size, hex⟩ := hexDigits_shape 16 (fnv1a token.toUTF8.toList).toNat
  unfold isHexIdentity tokenHash
  rw [size, String.toList_ofList, hex]
  rfl

section Laws
variable {F : Type} {before after : Db F}

/-- The trades of one item at one port, oldest first. -/
def tradesOf (trades : List TradeRow) (key : UInt32 × UInt32) : List TradeRow :=
  trades.filter fun row => (row.portId, row.itemId) = key

structure Lawful (db : Db F) : Prop where
  formed : WellFormed db
  hex : ∀ row ∈ db.players, isHexIdentity row.tokenHash = true
  few : db.players.length ≤ maxPlayerRowsCeiling
  txns : (db.ledger.map LedgerRow.txnId).Nodup
  tradeTxns : (db.marketTrades.map TradeRow.txnId).Nodup
  market : ∀ key, db.market.get? key =
    (tradesOf db.marketTrades key).getLast?.map fun row => (row.stock, row.price)
  stocked : ∀ row ∈ db.marketTrades, 0 ≤ row.stock ∧ 0 ≤ row.price

theorem fresh_nodup {Row Key : Type} [DecidableEq Key] {keyOf : Row → Key} {rows : List Row} {row : Row}
    (unique : (rows.map keyOf).Nodup) (fresh : rows.any (fun prior => keyOf prior = keyOf row) = false) :
    ((rows ++ [row]).map keyOf).Nodup := by
  rw [List.map_append, List.map_singleton]
  apply List.Nodup.append unique (List.nodup_singleton _)
  rw [List.disjoint_singleton, List.mem_map]
  rintro ⟨prior, member, own⟩
  have taken : rows.any (fun prior => keyOf prior = keyOf row) = true :=
    List.any_eq_true.mpr ⟨prior, member, by simpa using own⟩
  rw [fresh] at taken
  cases taken

/-- Writes that leave identities, transactions and trades alone. -/
theorem Lawful.of_identities (lawful : Lawful before) (same : SameIdentities before after)
    (ledger : after.ledger = before.ledger) (market : after.market = before.market)
    (trades : after.marketTrades = before.marketTrades) : Lawful after where
  formed := same.wellFormed lawful.formed
  hex := by
    intro row member
    obtain ⟨old, present, equal⟩ := same.row_of member
    have own : old.tokenHash = row.tokenHash := congrArg Prod.fst equal
    exact own ▸ lawful.hex old present
  few := same.length_eq.trans_le lawful.few
  txns := by
    rw [ledger]
    exact lawful.txns
  tradeTxns := by
    rw [trades]
    exact lawful.tradeTxns
  market := by
    rw [market, trades]
    exact lawful.market
  stocked := by
    rw [trades]
    exact lawful.stocked

theorem Lawful.admitted {token name : String} {now : Int64} {maxRows : UInt32} {admission : PlayerAdmission}
    (lawful : Lawful before) (ceiling : maxRows.toNat ≤ maxPlayerRowsCeiling)
    (admitted : Admitted before (tokenHash token) name now maxRows admission after) : Lawful after := by
  have formed := admitted.wellFormed lawful.formed
  cases admitted with
  | returning member own => exact lawful.of_identities (.updatePlayer _ _ _ fun _ => rfl) rfl rfl rfl
  | full unknown crowded => exact lawful
  | newcomer unknown room next =>
      refine { lawful with formed, hex := ?_, few := ?_ }
      · intro row member
        rcases List.mem_append.mp member with earlier | new
        · exact lawful.hex row earlier
        · rw [List.mem_singleton.mp new]
          exact tokenHash_hex token
      · simp only [List.length_append, List.length_singleton]
        omega

theorem tradesOf_snoc (trades : List TradeRow) (row : TradeRow) (key : UInt32 × UInt32) :
    tradesOf (trades ++ [row]) key =
      if key = (row.portId, row.itemId) then tradesOf trades key ++ [row] else tradesOf trades key := by
  unfold tradesOf
  rw [List.filter_append]
  by_cases own : key = (row.portId, row.itemId)
  · simp [own]
  · simp [own, Ne.symm own]

theorem Lawful.traded {row : TradeRow} (lawful : Lawful before)
    (fresh : before.marketTrades.any (fun prior => prior.txnId = row.txnId) = false) (stocked : 0 ≤ row.stock)
    (priced : 0 ≤ row.price) : Lawful (tradedDb before row) := by
  refine { lawful with formed := ?_, tradeTxns := fresh_nodup lawful.tradeTxns fresh, market := ?_, stocked := ?_ }
  · have same : SameIdentities before (tradedDb before row) := ⟨rfl, rfl⟩
    exact same.wellFormed lawful.formed
  · intro key
    simp only [tradedDb, tradesOf_snoc, FiniteMap.get?_insert]
    split
    · rw [List.getLast?_concat]
      rfl
    · exact lawful.market key
  · intro other member
    rcases List.mem_append.mp member with earlier | new
    · exact lawful.stocked other earlier
    · rw [List.mem_singleton.mp new]
      exact ⟨stocked, priced⟩

theorem Write.lawful (write : Write before after) (lawful : Lawful before) : Lawful after := by
  cases write with
  | admitted ceiling admitted => exact lawful.admitted ceiling admitted
  | touched id now => exact lawful.of_identities (.touchLastSeen _ _ _) rfl rfl rfl
  | posted row newBalance fresh =>
      have paid := SameIdentities.updatePlayer { before with ledger := before.ledger ++ [row] } row.playerId
        (fun owner => { owner with gold := newBalance }) fun _ => rfl
      have same : SameIdentities before (committedDb before row newBalance) := ⟨paid.rows, paid.sequence⟩
      have others : Lawful { committedDb before row newBalance with ledger := before.ledger } :=
        lawful.of_identities ⟨same.rows, same.sequence⟩ rfl rfl rfl
      exact { others with formed := same.wellFormed lawful.formed, txns := fresh_nodup lawful.txns fresh }
  | traded row fresh stocked priced => exact lawful.traded fresh stocked priced
  | moored row => exact lawful.of_identities ⟨rfl, rfl⟩ rfl rfl rfl

theorem Writes.lawful (writes : Writes before after) (lawful : Lawful before) : Lawful after :=
  writes.keeps (fun _ _ => Write.lawful) lawful

/-- Lawful tables are never refused by a boot. -/
theorem Lawful.loads (lawful : Lawful before) : ∃ identityPlayers, loadIdentityPlayers before = .ok identityPlayers := by
  have limit : (UInt32.ofNat (maxPlayerRowsCeiling + 1)).toNat = maxPlayerRowsCeiling + 1 := by decide
  have few := lawful.few
  have entries : ∀ rows : List PlayerRow, (∀ row ∈ rows, row ∈ before.players) →
      ∃ entries, (rows.map fun row => (row.tokenHash, row.id)).mapM identityEntry = .ok entries := by
    intro rows
    induction rows with
    | nil => exact fun _ => ⟨[], rfl⟩
    | cons row rest ih =>
        intro within
        obtain ⟨entries, read⟩ := ih fun other member => within other (List.mem_cons_of_mem _ member)
        have hex := lawful.hex row (within row List.mem_cons_self)
        have positive := lawful.formed.positive row (within row List.mem_cons_self)
        have own : identityEntry (row.tokenHash, row.id) = .ok (row.tokenHash, row.id.toUInt64) := by
          unfold identityEntry
          simp [hex, not_lt.mpr positive.le]
        refine ⟨(row.tokenHash, row.id.toUInt64) :: entries, ?_⟩
        simp only [List.map_cons, List.mapM_cons, own, read]
        rfl
  obtain ⟨entries, read⟩ := entries before.players fun _ => id
  unfold loadIdentityPlayers loadIdentityPlayersUpTo
  simp only [Db.playerIdentities, limit, List.length_map, List.length_take]
  rw [if_neg (by omega), List.take_of_length_le (by omega), read]
  exact ⟨_, rfl⟩

end Laws
end SailwindOnline.TableLaws
