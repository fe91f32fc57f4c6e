import SailwindOnline.EconStore

/-!
The market over the tables against the in-memory market. The tables bind a
transaction id as a signed 64-bit parameter, so an id above `i64::MAX` is refused
by the binding before any table is read; below it the two stores are related.
-/

namespace SailwindOnline.MarketRefinement
open MachineInt Persistence Market EconStore

variable {F : Type}

structure TradeCall where
  trade : Trade
  nowMs : Int64

def dbTrade (db : Db F) (request : TradeCall) : Except DbError MarketAck × Db F :=
  marketApply noFaults request.nowMs db request.trade

def memTrade (store : MemMarketStore) (request : TradeCall) :
    Except DbError MarketAck × MemMarketStore :=
  (.ok (memApply store request.trade).1, (memApply store request.trade).2)

def Bindable (txnId : UInt64) : Prop := txnId.toNat < 2 ^ 63

def recordOf (row : TradeRow) : RecordedTrade := ⟨row.portId, row.itemId, row.stock, row.price⟩

def dbRecord (db : Db F) (txnId : UInt64) : Option RecordedTrade :=
  (db.marketTrades.find? (fun row => row.txnId = txnId.toInt64)).map recordOf

structure Related (db : Db F) (store : MemMarketStore) : Prop where
  state : ∀ port item, (db.marketState port item).getD (0, 0) = store.state port item
  record : ∀ txnId, Bindable txnId → dbRecord db txnId = store.lookupTrade txnId

theorem bindable_key (txnId : UInt64) (small : Bindable txnId) :
    tryI64 txnId = some txnId.toInt64 :=
  (tryI64_some_iff txnId txnId.toInt64).mpr ⟨small, rfl⟩

theorem lookup_bindable (db : Db F) (nowMs : Int64) (txnId : UInt64) (small : Bindable txnId) :
    MarketStore.lookupTrade (DbMarketStore.mk db nowMs noFaults) txnId = .ok (dbRecord db txnId) := by
  change attempt false ((db.lookupTrade txnId).map _) = _
  rw [Db.lookupTrade, bindable_key txnId small]
  rfl

theorem lookup_unbindable (db : Db F) (nowMs : Int64) (txnId : UInt64) (large : ¬ Bindable txnId) :
    MarketStore.lookupTrade (DbMarketStore.mk db nowMs noFaults) txnId = .error .conversion := by
  change attempt false ((db.lookupTrade txnId).map _) = _
  rw [Db.lookupTrade, (tryI64_none_iff txnId).mpr (by unfold Bindable at large; omega)]
  rfl

/-- An id the binding refuses reaches no table. -/
theorem dbTrade_unbindable (db : Db F) (request : TradeCall)
    (large : ¬ Bindable request.trade.txnId) : dbTrade db request = (.error .conversion, db) := by
  have refused : Market.apply (DbMarketStore.mk db request.nowMs noFaults) request.trade =
      .error .conversion := by
    rw [Market.apply, lookup_unbindable db request.nowMs _ large]
  rw [dbTrade, marketApply, refused]

def committedTrade (db : Db F) (trade : Trade) (newStock newPrice nowMs : Int64) : Db F :=
  { db with
    marketTrades := db.marketTrades ++
      [⟨trade.txnId.toInt64, trade.portId, trade.itemId, newStock, newPrice, nowMs⟩]
    market := db.market.insert (trade.portId, trade.itemId) (newStock, newPrice) }

theorem store_commit (db : Db F) (trade : Trade) (newStock newPrice nowMs : Int64)
    (small : Bindable trade.txnId) (fresh : dbRecord db trade.txnId = none) :
    MarketStore.commit (DbMarketStore.mk db nowMs noFaults) trade newStock newPrice =
      .ok (DbMarketStore.mk (committedTrade db trade newStock newPrice nowMs) nowMs noFaults) := by
  have absent : ¬ db.marketTrades.any (fun prior => prior.txnId = trade.txnId.toInt64) = true := by
    simpa [dbRecord] using fresh
  have stored : db.commitTrade trade.txnId trade.portId trade.itemId newStock newPrice nowMs =
      .ok (committedTrade db trade newStock newPrice nowMs) := by
    rw [Db.commitTrade, bindable_key _ small]
    simp only [if_neg absent]
    rfl
  change attempt false ((db.commitTrade trade.txnId trade.portId trade.itemId newStock newPrice
    nowMs).map _) = _
  rw [stored]
  rfl

theorem commit_related (db : Db F) (store : MemMarketStore) (trade : Trade)
    (newStock newPrice nowMs : Int64) (related : Related db store)
    (fresh : dbRecord db trade.txnId = none) :
    Related (committedTrade db trade newStock newPrice nowMs)
      (store.commit trade newStock newPrice) := by
  constructor
  · intro port item
    rw [state_commit]
    have old := related.state port item
    simp only [Db.marketState, committedTrade, FiniteMap.get?_insert] at old ⊢
    by_cases here : (port, item) = (trade.portId, trade.itemId)
    · simp [here]
    · simpa [here] using old
  · intro txnId small
    rw [lookup_commit]
    have old := related.record txnId small
    by_cases same : txnId = trade.txnId
    · subst same
      have absent : db.marketTrades.find? (fun row => row.txnId = trade.txnId.toInt64) = none := by
        simpa [dbRecord] using fresh
      simp [dbRecord, committedTrade, List.find?_append, absent, recordOf]
    · have other : trade.txnId.toInt64 ≠ txnId.toInt64 :=
        fun equal => same (toInt64_injective _ _ equal).symm
      simpa [dbRecord, committedTrade, List.find?_append, same, other] using old

/-- On a bindable id the two markets answer alike and stay related. -/
theorem trade_related (db : Db F) (store : MemMarketStore) (request : TradeCall)
    (related : Related db store) (small : Bindable request.trade.txnId) :
    (dbTrade db request).1 = (memTrade store request).1 ∧
      Related (dbTrade db request).2 (memTrade store request).2 := by
  have looked := lookup_bindable db request.nowMs request.trade.txnId small
  have memLooked : MarketStore.lookupTrade store request.trade.txnId =
      .ok (dbRecord db request.trade.txnId) := by
    rw [related.record _ small]
    rfl
  -- Both sides look the id up first; only a fresh one reads stock and price.
  cases found : dbRecord db request.trade.txnId with
  | some recorded =>
      rw [found] at looked memLooked
      simp only [dbTrade, marketApply, memTrade, memApply, Market.apply_replay _ _ recorded looked,
        Market.apply_replay _ _ recorded memLooked]
      exact ⟨trivial, related⟩
  | none =>
      rw [found] at looked memLooked
      have dbState : MarketStore.state (DbMarketStore.mk db request.nowMs noFaults)
          request.trade.portId request.trade.itemId =
          .ok (store.state request.trade.portId request.trade.itemId) := by
        rw [← related.state]
        rfl
      have dbAnswer := Market.apply_fresh _ request.trade _ looked dbState
      have memAnswer := Market.apply_fresh store request.trade _ memLooked rfl
      rcases judge_cases (store.state request.trade.portId request.trade.itemId) request.trade with
        ⟨newStock, _, _, _, verdict⟩ | ⟨reason, verdict⟩
      · simp only [verdict, Except.map,
          store_commit db request.trade newStock request.trade.unitPrice request.nowMs small found]
          at dbAnswer
        simp only [verdict, MarketStore.commit, Except.map] at memAnswer
        simp only [dbTrade, marketApply, memTrade, memApply, dbAnswer, memAnswer]
        exact ⟨trivial, commit_related db store request.trade newStock request.trade.unitPrice
          request.nowMs related found⟩
      · simp only [verdict] at dbAnswer memAnswer
        simp only [dbTrade, marketApply, memTrade, memApply, dbAnswer, memAnswer]
        exact ⟨trivial, related⟩

/-- A healthy disk answers every bindable trade. -/
theorem dbTrade_answers (db : Db F) (request : TradeCall) (small : Bindable request.trade.txnId) :
    ∃ ack after, dbTrade db request = (.ok ack, after) := by
  have looked := lookup_bindable db request.nowMs request.trade.txnId small
  cases found : dbRecord db request.trade.txnId with
  | some recorded =>
      rw [found] at looked
      simp only [dbTrade, marketApply, Market.apply_replay _ _ recorded looked]
      exact ⟨_, _, rfl⟩
  | none =>
      rw [found] at looked
      have answer := Market.apply_fresh _ request.trade _ looked rfl
      rcases judge_cases ((db.marketState request.trade.portId request.trade.itemId).getD (0, 0))
        request.trade with ⟨newStock, _, _, _, verdict⟩ | ⟨reason, verdict⟩
      · simp only [verdict, Except.map,
          store_commit db request.trade newStock request.trade.unitPrice request.nowMs small found] at answer
        simp only [dbTrade, marketApply, answer]
        exact ⟨_, _, rfl⟩
      · simp only [verdict] at answer
        simp only [dbTrade, marketApply, answer]
        exact ⟨_, _, rfl⟩

theorem opening_related (db : Db F) (unstocked : db.market = FiniteMap.empty)
    (untraded : db.marketTrades = []) : Related db MemMarketStore.new := by
  constructor
  · intro port item
    simp [Db.marketState, unstocked, MemMarketStore.state, MemMarketStore.new]
  · intro txnId _
    simp [dbRecord, untraded, MemMarketStore.lookupTrade, MemMarketStore.new]

theorem run_related (db : Db F) (store : MemMarketStore) (requests : List TradeCall)
    (related : Related db store) (small : ∀ request ∈ requests, Bindable request.trade.txnId) :
    Related (Runs.final dbTrade db requests) (Runs.final memTrade store requests) :=
  Runs.related_final dbTrade memTrade Related (fun request => Bindable request.trade.txnId)
    (fun a b request fits held => (trade_related a b request held fits).2) requests small db store
    related

/-- The SQLite market refines the in-memory one on exactly the runs whose ids all
fit a signed 64-bit integer: elsewhere it answers with an error. -/
theorem market_runs_agree_iff (db : Db F) (requests : List TradeCall)
    (unstocked : db.market = FiniteMap.empty) (untraded : db.marketTrades = []) :
    (Runs.outputs dbTrade db requests = Runs.outputs memTrade MemMarketStore.new requests ∧
      ∀ port item, ((Runs.final dbTrade db requests).marketState port item).getD (0, 0) =
        (Runs.final memTrade MemMarketStore.new requests).state port item) ↔
      ∀ request ∈ requests, Bindable request.trade.txnId := by
  constructor
  · rintro ⟨same, _⟩ request member
    obtain ⟨before, after, rfl⟩ := List.append_of_mem member
    have here := (Runs.outputs_eq_iff dbTrade memTrade _ _ _).mp same before request after rfl
    by_contra large
    rw [dbTrade_unbindable _ request large] at here
    simp [memTrade] at here
  · intro small
    have start := opening_related db unstocked untraded
    refine ⟨?_, (run_related db _ requests start small).state⟩
    apply (Runs.outputs_eq_iff dbTrade memTrade requests _ _).mpr
    intro before request after split
    have earlier := run_related db _ before start
      (fun prior member => small prior (by rw [split]; simp [member]))
    exact (trade_related _ _ request earlier (small request (by rw [split]; simp))).1

end SailwindOnline.MarketRefinement
