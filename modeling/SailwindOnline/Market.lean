import SailwindOnline.FiniteMap
import SailwindOnline.Journal
import SailwindOnline.MachineInt

/-!
The shared port market of `sw-econ`: `Market::apply` over any `MarketStore`, and
the in-memory store. Stock is a journal of signed quantities per `(port, item)`;
the price is the unit price of the last committed trade.
-/

namespace SailwindOnline.Market
open MachineInt

abbrev PortId := UInt32
abbrev ItemId := UInt32

structure Trade where
  txnId : UInt64
  portId : PortId
  itemId : ItemId
  qty : Int64
  unitPrice : Int64
  deriving DecidableEq

structure MarketAck where
  txnId : UInt64
  accepted : Bool
  portId : PortId
  itemId : ItemId
  stock : Int64
  price : Int64
  reason : String
  deriving DecidableEq

structure RecordedTrade where
  portId : PortId
  itemId : ItemId
  stock : Int64
  price : Int64
  deriving DecidableEq

class MarketStore (Store : Type) (Error : outParam Type) where
  state : Store → PortId → ItemId → Except Error (Int64 × Int64)
  lookupTrade : Store → UInt64 → Except Error (Option RecordedTrade)
  commit : Store → Trade → Int64 → Int64 → Except Error Store

def reject (trade : Trade) (stock price : Int64) (reason : String) : MarketAck :=
  ⟨trade.txnId, false, trade.portId, trade.itemId, stock, price, reason⟩

section Policy
variable {Store Error : Type} [MarketStore Store Error]

def apply (store : Store) (trade : Trade) : Except Error (MarketAck × Store) :=
  match MarketStore.lookupTrade store trade.txnId with
  | .error failure => .error failure
  | .ok (some recorded) =>
      .ok (⟨trade.txnId, true, recorded.portId, recorded.itemId, recorded.stock, recorded.price,
        "duplicate (idempotent replay)"⟩, store)
  | .ok none =>
      match MarketStore.state store trade.portId trade.itemId with
      | .error failure => .error failure
      | .ok (stock, price) =>
          if trade.unitPrice < 0 then .ok (reject trade stock price "invalid price", store)
          else match checkedAdd stock trade.qty with
            | some newStock =>
                if 0 ≤ newStock then
                  match MarketStore.commit store trade newStock trade.unitPrice with
                  | .error failure => .error failure
                  | .ok after =>
                      .ok (⟨trade.txnId, true, trade.portId, trade.itemId, newStock,
                        trade.unitPrice, ""⟩, after)
                else .ok (reject trade stock price "insufficient stock", store)
            | none => .ok (reject trade stock price "quantity out of range", store)

/-- A fresh trade is decided by the current stock and price alone. -/
def judge (current : Int64 × Int64) (trade : Trade) : MarketAck × Option Int64 :=
  if trade.unitPrice < 0 then (reject trade current.1 current.2 "invalid price", none)
  else match checkedAdd current.1 trade.qty with
    | some newStock =>
        if 0 ≤ newStock then
          (⟨trade.txnId, true, trade.portId, trade.itemId, newStock, trade.unitPrice, ""⟩, some newStock)
        else (reject trade current.1 current.2 "insufficient stock", none)
    | none => (reject trade current.1 current.2 "quantity out of range", none)

theorem apply_replay (store : Store) (trade : Trade) (recorded : RecordedTrade)
    (found : MarketStore.lookupTrade store trade.txnId = .ok (some recorded)) :
    apply store trade = .ok (⟨trade.txnId, true, recorded.portId, recorded.itemId, recorded.stock,
      recorded.price, "duplicate (idempotent replay)"⟩, store) := by
  simp [apply, found]

theorem apply_fresh (store : Store) (trade : Trade) (current : Int64 × Int64)
    (fresh : MarketStore.lookupTrade store trade.txnId = .ok none)
    (state : MarketStore.state store trade.portId trade.itemId = .ok current) :
    apply store trade =
      match (judge current trade).2 with
      | none => .ok ((judge current trade).1, store)
      | some newStock => (MarketStore.commit store trade newStock trade.unitPrice).map
          (fun after => ((judge current trade).1, after)) := by
  unfold apply judge
  rw [fresh, state]
  by_cases negative : trade.unitPrice < 0
  · simp [negative]
  · cases sum : checkedAdd current.1 trade.qty with
    | none => simp [negative, sum]
    | some newStock =>
        by_cases enough : 0 ≤ newStock
        · cases stored : MarketStore.commit store trade newStock trade.unitPrice <;>
            simp [negative, sum, enough, stored, Except.map]
        · simp [negative, sum, enough]

theorem judge_cases (current : Int64 × Int64) (trade : Trade) :
    (∃ newStock, (0 : Int64) ≤ trade.unitPrice ∧
      newStock.toInt = current.1.toInt + trade.qty.toInt ∧ (0 : Int64) ≤ newStock ∧
      judge current trade = (⟨trade.txnId, true, trade.portId, trade.itemId, newStock,
        trade.unitPrice, ""⟩, some newStock)) ∨
    (∃ reason, judge current trade = (reject trade current.1 current.2 reason, none)) := by
  unfold judge
  by_cases negative : trade.unitPrice < 0
  · exact Or.inr ⟨"invalid price", by simp [negative]⟩
  · have priced : (0 : Int64) ≤ trade.unitPrice := by
      rw [Int64.lt_iff_toInt_lt] at negative
      rw [Int64.le_iff_toInt_le]
      omega
    cases sum : checkedAdd current.1 trade.qty with
    | none => exact Or.inr ⟨"quantity out of range", by simp [negative]⟩
    | some newStock =>
        by_cases enough : (0 : Int64) ≤ newStock
        · exact Or.inl ⟨newStock, priced, checkedAdd_some _ _ _ sum, enough,
            by simp [negative, enough]⟩
        · exact Or.inr ⟨"insufficient stock", by simp [negative, enough]⟩

end Policy

structure MemMarketStore where
  table : FiniteMap (PortId × ItemId) (Int64 × Int64)
  trades : FiniteMap UInt64 RecordedTrade
  log : List (Trade × Int64 × Int64)

namespace MemMarketStore

def new : MemMarketStore := ⟨FiniteMap.empty, FiniteMap.empty, []⟩

def state (store : MemMarketStore) (port : PortId) (item : ItemId) : Int64 × Int64 :=
  (store.table.get? (port, item)).getD (0, 0)

def lookupTrade (store : MemMarketStore) (txnId : UInt64) : Option RecordedTrade :=
  store.trades.get? txnId

def commit (store : MemMarketStore) (trade : Trade) (newStock newPrice : Int64) : MemMarketStore :=
  { table := store.table.insert (trade.portId, trade.itemId) (newStock, newPrice)
    trades := store.trades.insert trade.txnId ⟨trade.portId, trade.itemId, newStock, newPrice⟩
    log := store.log ++ [(trade, newStock, newPrice)] }

instance : MarketStore MemMarketStore Empty where
  state store port item := .ok (store.state port item)
  lookupTrade store txnId := .ok (store.lookupTrade txnId)
  commit store trade newStock newPrice := .ok (store.commit trade newStock newPrice)

end MemMarketStore

def memApply (store : MemMarketStore) (trade : Trade) : MarketAck × MemMarketStore :=
  match apply store trade with
  | .ok answer => answer
  | .error impossible => nomatch impossible

abbrev Entry := Journal.Entry UInt64 (PortId × ItemId)

def entryOf (trade : Trade) : Entry := ⟨trade.txnId, (trade.portId, trade.itemId), trade.qty.toInt⟩

def traded (log : List (Trade × Int64 × Int64)) : List Entry := log.map (fun row => entryOf row.1)

def lastPrice (log : List (Trade × Int64 × Int64)) (port : PortId) (item : ItemId) : Int64 :=
  ((log.filter (fun row => (row.1.portId, row.1.itemId) = (port, item))).getLast?.map
    (fun row => row.1.unitPrice)).getD 0

theorem lastPrice_snoc (log : List (Trade × Int64 × Int64)) (row : Trade × Int64 × Int64)
    (port : PortId) (item : ItemId) :
    lastPrice (log ++ [row]) port item =
      if (row.1.portId, row.1.itemId) = (port, item) then row.1.unitPrice
      else lastPrice log port item := by
  unfold lastPrice
  by_cases here : (row.1.portId, row.1.itemId) = (port, item)
  · obtain ⟨samePort, sameItem⟩ := Prod.mk.inj here
    simp [List.filter_append, samePort, sameItem]
  · simp only [List.filter_append, List.filter_cons, here, decide_false, Bool.false_eq_true,
      ↓reduceIte, List.filter_nil, List.append_nil]

/-- What every reachable in-memory market satisfies, entirely in terms of its log. -/
structure MemSound (store : MemMarketStore) : Prop where
  journal : Journal.Sound maxI64 (traded store.log)
  stock : ∀ port item, (store.state port item).1.toInt = Journal.total (traded store.log) (port, item)
  price : ∀ port item, (store.state port item).2 = lastPrice store.log port item
  priced : ∀ port item, (0 : Int64) ≤ (store.state port item).2
  dedup : ∀ id, store.lookupTrade id = none ↔ Journal.recorded (traded store.log) id = false

theorem mem_new_sound : MemSound MemMarketStore.new := by
  refine ⟨Journal.sound_nil maxI64 (by decide), ?_, ?_, ?_, ?_⟩
  · intro port item
    simp [MemMarketStore.state, MemMarketStore.new, traded, Journal.total]
  · intro port item
    simp [MemMarketStore.state, MemMarketStore.new, lastPrice]
  · intro port item
    simp [MemMarketStore.state, MemMarketStore.new]
  · intro id
    simp [MemMarketStore.lookupTrade, MemMarketStore.new, traded, Journal.recorded]

theorem state_commit (store : MemMarketStore) (trade : Trade) (newStock newPrice : Int64)
    (port : PortId) (item : ItemId) :
    (store.commit trade newStock newPrice).state port item =
      if (port, item) = (trade.portId, trade.itemId) then (newStock, newPrice)
      else store.state port item := by
  simp only [MemMarketStore.state, MemMarketStore.commit, FiniteMap.get?_insert]
  by_cases here : (port, item) = (trade.portId, trade.itemId) <;> simp [here]

theorem lookup_commit (store : MemMarketStore) (trade : Trade) (newStock newPrice : Int64)
    (id : UInt64) :
    (store.commit trade newStock newPrice).lookupTrade id =
      if id = trade.txnId then some ⟨trade.portId, trade.itemId, newStock, newPrice⟩
      else store.lookupTrade id := by
  simp [MemMarketStore.lookupTrade, MemMarketStore.commit, FiniteMap.get?_insert]

/-- One application replays, commits exactly the trade, or refuses it. Only the
commit changes the store, and only at its own `(port, item)`. -/
theorem memApply_cases (store : MemMarketStore) (trade : Trade) :
    (∃ found, store.lookupTrade trade.txnId = some found ∧
      memApply store trade = (⟨trade.txnId, true, found.portId, found.itemId, found.stock,
        found.price, "duplicate (idempotent replay)"⟩, store)) ∨
    (∃ newStock, store.lookupTrade trade.txnId = none ∧ (0 : Int64) ≤ trade.unitPrice ∧
      newStock.toInt = (store.state trade.portId trade.itemId).1.toInt + trade.qty.toInt ∧
      (0 : Int64) ≤ newStock ∧
      memApply store trade = (⟨trade.txnId, true, trade.portId, trade.itemId, newStock,
        trade.unitPrice, ""⟩, store.commit trade newStock trade.unitPrice)) ∨
    (∃ reason, store.lookupTrade trade.txnId = none ∧
      memApply store trade = (reject trade (store.state trade.portId trade.itemId).1
        (store.state trade.portId trade.itemId).2 reason, store)) := by
  cases found : store.lookupTrade trade.txnId with
  | some record =>
      have answer := apply_replay store trade record (congrArg Except.ok found)
      exact Or.inl ⟨record, rfl, by rw [memApply, answer]⟩
  | none =>
      have answer := apply_fresh store trade (store.state trade.portId trade.itemId)
        (congrArg Except.ok found) rfl
      rcases judge_cases (store.state trade.portId trade.itemId) trade with
        ⟨newStock, priced, exact, enough, verdict⟩ | ⟨reason, verdict⟩
      · rw [verdict] at answer
        refine Or.inr (Or.inl ⟨newStock, rfl, priced, exact, enough, ?_⟩)
        rw [memApply, answer]
        rfl
      · rw [verdict] at answer
        exact Or.inr (Or.inr ⟨reason, rfl, by rw [memApply, answer]⟩)

theorem mem_commit_sound (store : MemMarketStore) (trade : Trade) (newStock : Int64)
    (sound : MemSound store) (fresh : store.lookupTrade trade.txnId = none)
    (priced : (0 : Int64) ≤ trade.unitPrice)
    (exact : newStock.toInt = (store.state trade.portId trade.itemId).1.toInt + trade.qty.toInt)
    (enough : (0 : Int64) ≤ newStock) :
    MemSound (store.commit trade newStock trade.unitPrice) := by
  have grown : traded (store.commit trade newStock trade.unitPrice).log =
      traded store.log ++ [entryOf trade] := by
    simp [traded, MemMarketStore.commit]
  rw [sound.stock] at exact
  have unrecorded := (sound.dedup trade.txnId).mp fresh
  -- The journal admits the trade for the same reason: the new stock is in range.
  have posted : (Journal.post maxI64 (traded store.log) (entryOf trade)).2 =
      traded store.log ++ [entryOf trade] := by
    have floor : 0 ≤ newStock.toInt := by simpa [Int64.le_iff_toInt_le] using enough
    have ceiling := (toInt_bounds newStock).2
    rw [exact] at floor ceiling
    simp [Journal.post, entryOf, unrecorded, floor, ceiling]
  refine ⟨?_, ?_, ?_, ?_, ?_⟩
  · rw [grown, ← posted]
    exact Journal.post_sound maxI64 _ _ sound.journal
  · intro port item
    rw [grown, Journal.total_snoc, state_commit]
    by_cases here : (port, item) = (trade.portId, trade.itemId)
    · simpa [here, entryOf] using exact
    · simpa [here, entryOf, Ne.symm here] using sound.stock port item
  · intro port item
    rw [state_commit]
    change _ = lastPrice (store.log ++ [(trade, newStock, trade.unitPrice)]) port item
    rw [lastPrice_snoc]
    by_cases here : (port, item) = (trade.portId, trade.itemId)
    · simp [here]
    · simpa [here, Ne.symm here] using sound.price port item
  · intro port item
    rw [state_commit]
    by_cases here : (port, item) = (trade.portId, trade.itemId)
    · simpa [here] using priced
    · simpa [here] using sound.priced port item
  · intro id
    rw [grown, Journal.recorded_snoc, lookup_commit]
    by_cases same : id = trade.txnId
    · simp [same, entryOf]
    · simpa [same, entryOf, Ne.symm same] using sound.dedup id

theorem memApply_sound (store : MemMarketStore) (trade : Trade) (sound : MemSound store) :
    MemSound (memApply store trade).2 := by
  rcases memApply_cases store trade with
    ⟨found, _, answer⟩ | ⟨newStock, fresh, priced, exact, enough, answer⟩ | ⟨reason, _, answer⟩
  · simpa [answer] using sound
  · rw [answer]
    exact mem_commit_sound store trade newStock sound fresh priced exact enough
  · simpa [answer] using sound

theorem mem_run_sound (trades : List Trade) :
    MemSound (Runs.final memApply MemMarketStore.new trades) :=
  Runs.invariant_always memApply MemSound memApply_sound trades MemMarketStore.new mem_new_sound

/-- What an acknowledgement says about the market: the recorded or current state. -/
def MarketAck.reported (ack : MarketAck) : PortId × ItemId × Int64 × Int64 :=
  (ack.portId, ack.itemId, ack.stock, ack.price)

def RecordedTrade.reported (record : RecordedTrade) : PortId × ItemId × Int64 × Int64 :=
  (record.portId, record.itemId, record.stock, record.price)

theorem lookup_memApply (store : MemMarketStore) (trade : Trade) (id : UInt64)
    (record : RecordedTrade) (present : store.lookupTrade id = some record) :
    (memApply store trade).2.lookupTrade id = some record := by
  rcases memApply_cases store trade with
    ⟨_, _, answer⟩ | ⟨newStock, fresh, _, _, _, answer⟩ | ⟨_, _, answer⟩
  · simpa [answer] using present
  · have different : id ≠ trade.txnId := by
      intro same
      rw [same, fresh] at present
      contradiction
    simpa [answer, lookup_commit, different] using present
  · simpa [answer] using present

theorem lookup_run (store : MemMarketStore) (trades : List Trade) (id : UInt64)
    (record : RecordedTrade) (present : store.lookupTrade id = some record) :
    (Runs.final memApply store trades).lookupTrade id = some record :=
  Runs.invariant_always memApply (fun s => s.lookupTrade id = some record)
    (fun s trade => lookup_memApply s trade id record) trades store present

theorem accepted_recorded (store : MemMarketStore) (trade : Trade)
    (accepted : (memApply store trade).1.accepted = true) :
    ∃ record, (memApply store trade).2.lookupTrade trade.txnId = some record ∧
      (memApply store trade).1.reported = record.reported := by
  rcases memApply_cases store trade with
    ⟨found, present, answer⟩ | ⟨newStock, _, _, _, _, answer⟩ | ⟨reason, _, answer⟩
  · exact ⟨found, by simpa [answer] using present, by rw [answer]; rfl⟩
  · refine ⟨⟨trade.portId, trade.itemId, newStock, trade.unitPrice⟩, ?_, by rw [answer]; rfl⟩
    simp [answer, lookup_commit]
  · simp [answer, reject] at accepted

theorem replay_reports (store : MemMarketStore) (trade : Trade) (record : RecordedTrade)
    (present : store.lookupTrade trade.txnId = some record) :
    (memApply store trade).1.accepted = true ∧
      (memApply store trade).1.reported = record.reported ∧ (memApply store trade).2 = store := by
  rcases memApply_cases store trade with ⟨found, here, answer⟩ | ⟨_, fresh, _⟩ | ⟨_, fresh, _⟩
  · rw [present] at here
    cases here
    rw [answer]
    exact ⟨rfl, rfl, rfl⟩
  · rw [present] at fresh
    contradiction
  · rw [present] at fresh
    contradiction

theorem refused_unchanged (store : MemMarketStore) (trade : Trade)
    (refused : (memApply store trade).1.accepted = false) : (memApply store trade).2 = store := by
  rcases memApply_cases store trade with ⟨_, _, answer⟩ | ⟨_, _, _, _, _, answer⟩ | ⟨_, _, answer⟩
  · rw [answer]
  · simp [answer] at refused
  · rw [answer]

theorem other_state_unchanged (store : MemMarketStore) (trade : Trade) (port : PortId)
    (item : ItemId) (other : (port, item) ≠ (trade.portId, trade.itemId)) :
    (memApply store trade).2.state port item = store.state port item := by
  rcases memApply_cases store trade with ⟨_, _, answer⟩ | ⟨_, _, _, _, _, answer⟩ | ⟨_, _, answer⟩
  · rw [answer]
  · rw [answer, state_commit, if_neg other]
  · rw [answer]

theorem recorded_committed (store : MemMarketStore) (sound : MemSound store) (id : UInt64)
    (committed : id ∈ store.log.map (fun row => row.1.txnId)) :
    ∃ record, store.lookupTrade id = some record := by
  cases found : store.lookupTrade id with
  | some record => exact ⟨record, rfl⟩
  | none =>
      have absent := (Journal.not_recorded_iff _ _).mp ((sound.dedup id).mp found)
      obtain ⟨row, member, rfl⟩ := List.mem_map.mp committed
      exact absurd rfl (absent (entryOf row.1) (List.mem_map_of_mem member))

def committedQty (log : List (Trade × Int64 × Int64)) (port : PortId) (item : ItemId) : Int :=
  ((log.filter (fun row => (row.1.portId, row.1.itemId) = (port, item))).map
    (fun row => row.1.qty.toInt)).sum

theorem traded_total (log : List (Trade × Int64 × Int64)) (port : PortId) (item : ItemId) :
    Journal.total (traded log) (port, item) = committedQty log port item := by
  unfold Journal.total traded committedQty
  rw [List.filter_map, List.map_map]
  rfl

/-- The whole-run law of the in-memory market: exact stock, last price, one
commit per id, exact replays, and no other effect of a refusal or a replay. -/
theorem mem_market_law (trades : List Trade) :
    let store := Runs.final memApply MemMarketStore.new trades
    (∀ port item,
      (store.state port item).1.toInt = committedQty store.log port item ∧
      0 ≤ (store.state port item).1.toInt ∧ (store.state port item).1.toInt ≤ maxI64 ∧
      (store.state port item).2 = lastPrice store.log port item ∧
      0 ≤ (store.state port item).2.toInt) ∧
    (store.log.map (fun row => row.1.txnId)).Nodup ∧
    (∀ first between replay, first.txnId = replay.txnId →
      (memApply store first).1.accepted = true →
      let later := Runs.final memApply (memApply store first).2 between
      (memApply later replay).1.accepted = true ∧
        (memApply later replay).1.reported = (memApply store first).1.reported) ∧
    (∀ trade, ((memApply store trade).1.accepted = false ∨
        trade.txnId ∈ store.log.map (fun row => row.1.txnId)) →
      (memApply store trade).2 = store) ∧
    (∀ trade port item, (port, item) ≠ (trade.portId, trade.itemId) →
      (memApply store trade).2.state port item = store.state port item) := by
  intro store
  have sound : MemSound store := mem_run_sound trades
  refine ⟨?_, ?_, ?_, ?_, fun trade port item => other_state_unchanged store trade port item⟩
  · intro port item
    have sum := sound.stock port item
    have bounds := sound.journal.bounded (port, item)
    have priced := sound.priced port item
    rw [← sum] at bounds
    rw [traded_total] at sum
    exact ⟨sum, bounds.1, bounds.2, sound.price port item,
      by simpa [Int64.le_iff_toInt_le] using priced⟩
  · have unique := sound.journal.unique
    rwa [traded, List.map_map] at unique
  · intro first between replay same accepted later
    obtain ⟨record, present, reported⟩ := accepted_recorded store first accepted
    have kept := lookup_run (memApply store first).2 between first.txnId record present
    rw [same] at kept
    obtain ⟨again, exact, _⟩ := replay_reports later replay record kept
    exact ⟨again, exact.trans reported.symm⟩
  · rintro trade (refused | replayed)
    · exact refused_unchanged store trade refused
    · obtain ⟨record, present⟩ := recorded_committed store sound trade.txnId replayed
      exact (replay_reports store trade record present).2.2

end SailwindOnline.Market
