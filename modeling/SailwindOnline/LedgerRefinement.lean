import SailwindOnline.EconStore

/-!
Whole runs of the ledger over both stores. Each run is compared with the journal
of its calls. The tables keep no balance per transaction, so a replay reads the
owner's gold of the moment: agreement with the in-memory store is exactly a
condition on what the owner committed in between.
-/

namespace SailwindOnline.LedgerRefinement
open MachineInt Persistence Ledger EconStore

variable {F : Type}

/-- A player who can act: a `players` row that starts without gold. -/
def Opened (db : Db F) (player : PlayerId) : Prop :=
  ∃ row, db.player player.toInt64 = some row ∧ row.gold = 0

theorem opened_balance (db : Db F) (player : PlayerId) (opened : Opened db player) :
    db.playerBalance player.toInt64 = 0 := by
  obtain ⟨row, found, gold⟩ := opened
  simp [Db.playerBalance, found, gold]

theorem opening_represents (db : Db F) (empty : db.ledger = []) :
    DbRepresents (fun player => db.playerBalance player.toInt64 = 0) db [] := by
  refine ⟨by simp [empty], by simp, ?_⟩
  intro player start
  rw [start, Journal.total_nil]
  rfl

/-- Every run over the tables represents the journal of its calls, and no
player row disappears on the way. -/
theorem db_run_represents (db : Db F) (requests : List DbCall) (empty : db.ledger = [])
    (opened : ∀ request ∈ requests, Opened db request.player) :
    DbRepresents (fun player => db.playerBalance player.toInt64 = 0)
      (Runs.final dbServe db requests) (committed (requests.map DbCall.call)) ∧
    ∀ player, HasRow db player → HasRow (Runs.final dbServe db requests) player := by
  induction requests using List.reverseRecOn with
  | nil => exact ⟨opening_represents db empty, fun _ present => present⟩
  | append_singleton requests request ih =>
      obtain ⟨rep, kept⟩ := ih (fun earlier member => opened earlier (by simp [member]))
      have acting := opened request (by simp)
      have start := opened_balance db request.player acting
      obtain ⟨row, found, _⟩ := acting
      have present := kept request.player ⟨row, found⟩
      have sound := committed_sound (requests.map DbCall.call)
      rw [Runs.final_snoc, List.map_append, List.map_singleton, committed_snoc]
      refine ⟨dbServe_represents _ _ _ request rep sound present start, ?_⟩
      intro player old
      exact dbServe_hasRow _ _ _ request rep sound start player (kept player old)

def committedGold (log : List (PlayerId × Txn × Int64)) (player : PlayerId) : Int :=
  ((log.filter (fun row => row.1 = player)).map (fun row => row.2.1.amountGold.toInt)).sum

def ledgerGold (ledger : List LedgerRow) (player : PlayerId) : Int :=
  ((ledger.filter (fun row => row.playerId = player.toInt64)).map (fun row => row.amount.toInt)).sum

theorem mem_total (store : MemStore) (log : List Ledger.Entry) (rep : MemRepresents store log)
    (player : PlayerId) : Journal.total log player = committedGold store.log player := by
  rw [← rep.entries, Journal.total, committedGold, List.filter_map, List.map_map]
  rfl

theorem db_total (counted : PlayerId → Prop) (db : Db F) (log : List Ledger.Entry)
    (rep : DbRepresents counted db log) (player : PlayerId) :
    Journal.total log player = ledgerGold db.ledger player := by
  rw [← rep.entries, Journal.total, ledgerGold, List.filter_map, List.map_map]
  congr 2
  apply List.filter_congr
  intro row _
  simp [rowEntry, toUInt64_eq_iff]

theorem mem_ids (store : MemStore) (log : List Ledger.Entry) (rep : MemRepresents store log) :
    log.map Journal.Entry.id = store.log.map (fun row => row.2.1.txnId) := by
  rw [← rep.entries, List.map_map]
  rfl

theorem db_ids (counted : PlayerId → Prop) (db : Db F) (log : List Ledger.Entry)
    (rep : DbRepresents counted db log) :
    log.map Journal.Entry.id = (db.ledger.map LedgerRow.txnId).map Int64.toUInt64 := by
  rw [← rep.entries, List.map_map, List.map_map]
  rfl

theorem recorded_of_mem (log : List Ledger.Entry) (id : UInt64)
    (member : id ∈ log.map Journal.Entry.id) : Journal.recorded log id = true := by
  obtain ⟨entry, inLog, same⟩ := List.mem_map.mp member
  exact (Journal.recorded_iff log id).mpr ⟨entry, inLog, same⟩

theorem mem_kept (store : MemStore) (log : List Ledger.Entry) (call : Call)
    (rep : MemRepresents store log) (sound : Journal.Sound maxI64 log)
    (idle : (memApply store call).1.accepted = false ∨ Journal.recorded log call.2.txnId = true) :
    (memApply store call).2 = store := by
  rcases memApply_cases store log call rep sound with
    ⟨_, _, _, answer⟩ | ⟨newBalance, _, fresh, _, verdict, answer⟩ | ⟨_, _, _, answer⟩
  · rw [answer]
  · rw [answer, verdict, fresh] at idle
    simp at idle
  · rw [answer]

theorem db_kept (counted : PlayerId → Prop) (db : Db F) (log : List Ledger.Entry)
    (request : DbCall) (rep : DbRepresents counted db log) (sound : Journal.Sound maxI64 log)
    (inScope : counted request.player) :
    ∃ ack, (dbServe db request).1 = .ok ack ∧
      (ack.accepted = false ∨ Journal.recorded log request.txn.txnId = true →
        (dbServe db request).2 = db) := by
  rcases dbServe_cases counted db log request rep sound inScope with
    ⟨entry, _, _, _, answer⟩ | ⟨newBalance, _, fresh, _, verdict, answer⟩ | ⟨_, _, _, answer⟩
  · exact ⟨_, by rw [answer], fun _ => by rw [answer]⟩
  · refine ⟨_, by rw [answer], fun idle => ?_⟩
    rw [verdict, fresh] at idle
    simp at idle
  · exact ⟨_, by rw [answer], fun _ => by rw [answer]⟩

/-- Conservation over both stores: balances are exact sums of committed amounts
in `0..=i64::MAX`, ids commit once, and an idle call changes nothing. -/
theorem ledger_conservation (calls : List Call) (db : Db F) (requests : List DbCall)
    (empty : db.ledger = []) (opened : ∀ request ∈ requests, Opened db request.player) :
    (let store := Runs.final memApply MemStore.new calls
     (∀ player, (store.balance player).toInt = committedGold store.log player ∧
        0 ≤ (store.balance player).toInt ∧ (store.balance player).toInt ≤ maxI64) ∧
     (store.log.map (fun row => row.2.1.txnId)).Nodup ∧
     ∀ call, ((memApply store call).1.accepted = false ∨
        call.2.txnId ∈ store.log.map (fun row => row.2.1.txnId)) →
        (memApply store call).2 = store) ∧
    (let after := Runs.final dbServe db requests
     (∀ player, db.playerBalance player.toInt64 = 0 →
        (after.playerBalance player.toInt64).toInt = ledgerGold after.ledger player ∧
        0 ≤ (after.playerBalance player.toInt64).toInt ∧
        (after.playerBalance player.toInt64).toInt ≤ maxI64) ∧
     (after.ledger.map LedgerRow.txnId).Nodup ∧
     ∀ request, Opened db request.player → ∃ ack, (dbServe after request).1 = .ok ack ∧
        (ack.accepted = false ∨ request.txn.txnId.toInt64 ∈ after.ledger.map LedgerRow.txnId →
          (dbServe after request).2 = after)) := by
  constructor
  · intro store
    have rep : MemRepresents store (committed calls) := mem_run_represents calls
    have sound := committed_sound calls
    refine ⟨?_, ?_, ?_⟩
    · intro player
      have bounds := sound.bounded player
      rw [← rep.balances player] at bounds
      exact ⟨(rep.balances player).trans (mem_total store _ rep player), bounds⟩
    · rw [← mem_ids store _ rep]
      exact sound.unique
    · rintro call (refused | replayed)
      · exact mem_kept store _ call rep sound (Or.inl refused)
      · rw [← mem_ids store _ rep] at replayed
        exact mem_kept store _ call rep sound (Or.inr (recorded_of_mem _ _ replayed))
  · intro after
    have rep := (db_run_represents db requests empty opened).1
    have sound := committed_sound (requests.map DbCall.call)
    refine ⟨?_, ?_, ?_⟩
    · intro player start
      have bounds := sound.bounded player
      rw [← rep.balances player start] at bounds
      exact ⟨(rep.balances player start).trans (db_total _ _ _ rep player), bounds⟩
    · have unique := sound.unique
      rw [db_ids _ _ _ rep] at unique
      exact unique.of_map _
    · intro request acting
      obtain ⟨ack, answered, kept⟩ := db_kept _ after _ request rep sound
        (opened_balance db request.player acting)
      refine ⟨ack, answered, ?_⟩
      rintro (refused | replayed)
      · exact kept (Or.inl refused)
      · apply kept
        refine Or.inr (recorded_of_mem _ _ ?_)
        rw [db_ids _ _ _ rep]
        exact List.mem_map.mpr ⟨_, replayed, toUInt64_toInt64 _⟩

/-- One opened player, and two credits with a replay of the first after the second. -/
def openedDb : Db Unit := ⟨[⟨1, "P", "tok", 0, 0, 0⟩], 1, [], FiniteMap.empty, [], []⟩

def credit (txnId : UInt64) (amount : Int64) : DbCall := ⟨1, ⟨txnId, amount, 0, ""⟩, 0⟩

def lateReplay : List DbCall := [credit 1 100, credit 2 50, credit 1 100]

theorem lateReplay_opened : ∀ request ∈ lateReplay, Opened openedDb request.player := by
  have acting : Opened openedDb 1 := ⟨⟨1, "P", "tok", 0, 0, 0⟩, by decide, rfl⟩
  intro request member
  simp only [lateReplay, List.mem_cons, List.not_mem_nil, or_false] at member
  rcases member with rfl | rfl | rfl <;> exact acting

theorem ledger_conservation_late_replay :
    ((Runs.final dbServe openedDb lateReplay).playerBalance 1).toInt =
      ledgerGold (Runs.final dbServe openedDb lateReplay).ledger 1 :=
  ((ledger_conservation [] openedDb lateReplay rfl lateReplay_opened).2.1 1 (by decide)).1

theorem mem_serve_final (requests : List DbCall) :
    Runs.final memServe MemStore.new requests =
      Runs.final memApply MemStore.new (requests.map DbCall.call) := by
  generalize MemStore.new = store
  induction requests generalizing store with
  | nil => rfl
  | cons request rest ih => exact ih _

theorem mem_fresh_answer (store : MemStore) (log : List Ledger.Entry) (call : Call)
    (rep : MemRepresents store log) (sound : Journal.Sound maxI64 log)
    (fresh : Journal.recorded log call.2.txnId = false) :
    (memApply store call).1 = (judge (store.balance call.1) call.2).1 := by
  rcases memApply_cases store log call rep sound with
    ⟨found, present, _⟩ | ⟨_, _, _, _, _, answer⟩ | ⟨_, _, _, answer⟩
  · rw [settled_recorded (rep.settled _ found present)] at fresh
    contradiction
  · rw [answer]
  · rw [answer]

theorem db_fresh_answer (counted : PlayerId → Prop) (db : Db F) (log : List Ledger.Entry)
    (request : DbCall) (rep : DbRepresents counted db log) (sound : Journal.Sound maxI64 log)
    (inScope : counted request.player)
    (fresh : Journal.recorded log request.txn.txnId = false) :
    (dbServe db request).1 =
      .ok (judge (db.playerBalance request.player.toInt64) request.txn).1 := by
  rcases dbServe_cases counted db log request rep sound inScope with
    ⟨entry, member, same, _⟩ | ⟨_, _, _, _, _, answer⟩ | ⟨_, _, _, answer⟩
  · rw [(Journal.recorded_iff _ _).mpr ⟨entry, member, same⟩] at fresh
    contradiction
  · rw [answer]
  · rw [answer]

theorem mem_replay_answer (store : MemStore) (log : List Ledger.Entry) (call : Call)
    (rep : MemRepresents store log) (sound : Journal.Sound maxI64 log)
    (known : Journal.recorded log call.2.txnId = true) :
    ∃ found : RecordedTxn, Settled log call.2.txnId found.player found.newBalance.toInt ∧
      (memApply store call).1 =
        ⟨call.2.txnId, true, found.newBalance, "duplicate (idempotent replay)"⟩ := by
  rcases memApply_cases store log call rep sound with
    ⟨found, present, _, answer⟩ | ⟨_, _, fresh, _⟩ | ⟨_, fresh, _⟩
  · exact ⟨found, rep.settled _ found present, by rw [answer]⟩
  · rw [known] at fresh
    contradiction
  · rw [known] at fresh
    contradiction

theorem db_replay_answer (counted : PlayerId → Prop) (db : Db F) (log : List Ledger.Entry)
    (request : DbCall) (rep : DbRepresents counted db log) (sound : Journal.Sound maxI64 log)
    (inScope : counted request.player)
    (known : Journal.recorded log request.txn.txnId = true) :
    ∃ entry ∈ log, entry.id = request.txn.txnId ∧
      (dbServe db request).1 = .ok ⟨request.txn.txnId, true,
        db.playerBalance entry.account.toInt64, "duplicate (idempotent replay)"⟩ := by
  rcases dbServe_cases counted db log request rep sound inScope with
    ⟨entry, member, same, _, answer⟩ | ⟨_, _, fresh, _⟩ | ⟨_, fresh, _⟩
  · exact ⟨entry, member, same, by rw [answer]⟩
  · rw [known] at fresh
    contradiction
  · rw [known] at fresh
    contradiction

theorem settled_owner (log : List Ledger.Entry) (id : UInt64) (player : PlayerId) (balance : Int)
    (settled : Settled log id player balance) (unique : (log.map Journal.Entry.id).Nodup)
    (entry : Ledger.Entry) (member : entry ∈ log) (same : entry.id = id) :
    entry.account = player := by
  obtain ⟨before, first, after, rfl, sameId, sameOwner, _⟩ := settled
  have twin := List.inj_on_of_nodup_map unique member
    (show first ∈ before ++ first :: after by simp) (same.trans sameId.symm)
  rw [twin, sameOwner]

/-- One position: the answers agree exactly when a replayed id's owner is at rest. -/
theorem serve_agree_iff (counted : PlayerId → Prop) (db : Db F) (store : MemStore)
    (log : List Ledger.Entry) (request : DbCall) (dbRep : DbRepresents counted db log)
    (memRep : MemRepresents store log) (sound : Journal.Sound maxI64 log)
    (inScope : counted request.player) (owners : ∀ entry ∈ log, counted entry.account) :
    (dbServe db request).1 = (memServe store request).1 ↔
      Journal.laterNet log request.txn.txnId = 0 := by
  cases known : Journal.recorded log request.txn.txnId with
  | false =>
      have sameBalance : db.playerBalance request.player.toInt64 = store.balance request.player := by
        apply Int64.toInt_inj.mp
        rw [dbRep.balances _ inScope, memRep.balances]
      have memAnswer := mem_fresh_answer store log request.call memRep sound known
      rw [Journal.laterNet_unrecorded log _ known, memServe, memAnswer,
        db_fresh_answer counted db log request dbRep sound inScope known, sameBalance]
      simp [DbCall.call]
  | true =>
      obtain ⟨found, settled, memAnswer⟩ := mem_replay_answer store log request.call memRep sound known
      obtain ⟨entry, member, same, dbAnswer⟩ :=
        db_replay_answer counted db log request dbRep sound inScope known
      have owner := settled_owner log _ _ _ settled sound.unique entry member same
      have gained := settled_laterNet settled sound.unique
      have current := dbRep.balances entry.account (owners entry member)
      rw [owner] at current
      rw [dbAnswer, memServe, memAnswer, owner]
      simp only [DbCall.call, Except.ok.injEq, LedgerAck.mk.injEq, true_and, and_true] at gained ⊢
      constructor
      · intro agree
        rw [agree] at current
        omega
      · intro rest
        apply Int64.toInt_inj.mp
        rw [current]
        omega

theorem committed_owner (requests : List DbCall) (entry : Ledger.Entry)
    (member : entry ∈ committed (requests.map DbCall.call)) :
    ∃ request ∈ requests, entry = Ledger.entryOf request.call := by
  induction requests using List.reverseRecOn with
  | nil => simp [committed_nil] at member
  | append_singleton requests request ih =>
      rw [List.map_append, List.map_singleton, committed_snoc] at member
      rcases Journal.post_cases maxI64 (committed (requests.map DbCall.call))
          (Ledger.entryOf request.call) with ⟨_, same⟩ | ⟨_, _, _, same⟩ | ⟨_, _, same⟩
      all_goals rw [same] at member
      · obtain ⟨earlier, inside, rfl⟩ := ih member
        exact ⟨earlier, by simp [inside], rfl⟩
      · rcases List.mem_append.mp member with old | new
        · obtain ⟨earlier, inside, rfl⟩ := ih old
          exact ⟨earlier, by simp [inside], rfl⟩
        · rw [List.mem_singleton] at new
          exact ⟨request, by simp, new⟩
      · obtain ⟨earlier, inside, rfl⟩ := ih member
        exact ⟨earlier, by simp [inside], rfl⟩

/-- The SQLite ledger answers like the in-memory one exactly on the runs in which
every replayed transaction finds its owner with the balance it left: the amounts
the owner committed after it cancel out. -/
theorem ledger_acks_agree_iff (db : Db F) (requests : List DbCall) (empty : db.ledger = [])
    (opened : ∀ request ∈ requests, Opened db request.player) :
    Runs.outputs dbServe db requests = Runs.outputs memServe MemStore.new requests ↔
      ∀ before request after, requests = before ++ request :: after →
        Journal.laterNet (committed (before.map DbCall.call)) request.txn.txnId = 0 := by
  rw [Runs.outputs_eq_iff]
  have position (before : List DbCall) (request : DbCall) (after : List DbCall)
      (split : requests = before ++ request :: after) :
      (dbServe (Runs.final dbServe db before) request).1 =
          (memServe (Runs.final memServe MemStore.new before) request).1 ↔
        Journal.laterNet (committed (before.map DbCall.call)) request.txn.txnId = 0 := by
    have earlier : ∀ prior ∈ before, Opened db prior.player := fun prior member =>
      opened prior (by rw [split]; simp [member])
    have dbRep := (db_run_represents db before empty earlier).1
    rw [mem_serve_final]
    refine serve_agree_iff _ _ _ _ request dbRep (mem_run_represents _) (committed_sound _)
      (opened_balance db _ (opened request (by rw [split]; simp))) ?_
    intro entry member
    obtain ⟨prior, inside, rfl⟩ := committed_owner before entry member
    exact opened_balance db _ (earlier prior inside)
  constructor
  · intro agree before request after split
    exact (position before request after split).mp (agree before request after split)
  · intro rest before request after split
    exact (position before request after split).mpr (rest before request after split)

theorem ledger_acks_agree_immediate_replay :
    Runs.outputs dbServe openedDb [credit 1 100, credit 1 100] =
      Runs.outputs memServe MemStore.new [credit 1 100, credit 1 100] := by
  refine (ledger_acks_agree_iff openedDb [credit 1 100, credit 1 100] rfl ?_).mpr ?_
  · intro request member
    exact lateReplay_opened request (by simp_all [lateReplay])
  · intro before request after split
    rcases before with _ | ⟨first, _ | ⟨second, rest⟩⟩
    · rfl
    · obtain ⟨rfl, tail⟩ := List.cons.inj split
      obtain ⟨rfl, _⟩ := List.cons.inj tail
      decide
    · have short := congrArg List.length split
      simp at short

/-- The third answer is 150 over the tables and 100 in memory. -/
theorem late_replay_disagrees :
    openedDb.ledger = [] ∧ (∀ request ∈ lateReplay, Opened openedDb request.player) ∧
      Runs.outputs dbServe openedDb lateReplay ≠ Runs.outputs memServe MemStore.new lateReplay :=
  ⟨rfl, lateReplay_opened, by decide⟩

end SailwindOnline.LedgerRefinement
