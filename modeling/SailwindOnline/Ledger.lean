import SailwindOnline.FiniteMap
import SailwindOnline.Journal
import SailwindOnline.MachineInt

/-!
The gold ledger of `sw-econ`: `Ledger::apply` over any `LedgerStore`, and the
in-memory store. A store that fails to commit keeps its previous contents, as
the trait's atomicity contract demands; the in-memory store cannot fail.
-/

namespace SailwindOnline.Ledger
open MachineInt

abbrev PlayerId := UInt64

structure Txn where
  txnId : UInt64
  amountGold : Int64
  kind : UInt8
  note : String
  deriving DecidableEq

structure LedgerAck where
  txnId : UInt64
  accepted : Bool
  newBalance : Int64
  reason : String
  deriving DecidableEq

structure RecordedTxn where
  player : PlayerId
  newBalance : Int64
  deriving DecidableEq

class LedgerStore (Store : Type) (Error : outParam Type) where
  balance : Store → PlayerId → Except Error Int64
  lookupTxn : Store → UInt64 → Except Error (Option RecordedTxn)
  commit : Store → PlayerId → Txn → Int64 → Except Error Store

section Policy
variable {Store Error : Type} [LedgerStore Store Error]

def apply (store : Store) (player : PlayerId) (txn : Txn) : Except Error (LedgerAck × Store) :=
  match LedgerStore.lookupTxn store txn.txnId with
  | .error failure => .error failure
  | .ok (some recorded) =>
      .ok (⟨txn.txnId, true, recorded.newBalance, "duplicate (idempotent replay)"⟩, store)
  | .ok none =>
      match LedgerStore.balance store player with
      | .error failure => .error failure
      | .ok balance =>
          match checkedAdd balance txn.amountGold with
          | some newBalance =>
              if 0 ≤ newBalance then
                match LedgerStore.commit store player txn newBalance with
                | .error failure => .error failure
                | .ok after => .ok (⟨txn.txnId, true, newBalance, ""⟩, after)
              else .ok (⟨txn.txnId, false, balance, "insufficient funds"⟩, store)
          | none => .ok (⟨txn.txnId, false, balance, "amount out of range"⟩, store)

/-- The decision on a fresh transaction depends on the balance alone: the answer,
and the balance to commit when it is accepted. -/
def judge (balance : Int64) (txn : Txn) : LedgerAck × Option Int64 :=
  match checkedAdd balance txn.amountGold with
  | some newBalance =>
      if 0 ≤ newBalance then (⟨txn.txnId, true, newBalance, ""⟩, some newBalance)
      else (⟨txn.txnId, false, balance, "insufficient funds"⟩, none)
  | none => (⟨txn.txnId, false, balance, "amount out of range"⟩, none)

theorem apply_replay (store : Store) (player : PlayerId) (txn : Txn) (recorded : RecordedTxn)
    (found : LedgerStore.lookupTxn store txn.txnId = .ok (some recorded)) :
    apply store player txn =
      .ok (⟨txn.txnId, true, recorded.newBalance, "duplicate (idempotent replay)"⟩, store) := by
  simp [apply, found]

theorem apply_fresh (store : Store) (player : PlayerId) (txn : Txn) (balance : Int64)
    (fresh : LedgerStore.lookupTxn store txn.txnId = .ok none)
    (current : LedgerStore.balance store player = .ok balance) :
    apply store player txn =
      match (judge balance txn).2 with
      | none => .ok ((judge balance txn).1, store)
      | some newBalance => (LedgerStore.commit store player txn newBalance).map
          (fun after => ((judge balance txn).1, after)) := by
  unfold apply judge
  rw [fresh, current]
  cases sum : checkedAdd balance txn.amountGold with
  | none => simp [sum]
  | some newBalance =>
      by_cases enough : 0 ≤ newBalance
      · cases stored : LedgerStore.commit store player txn newBalance <;>
          simp [sum, enough, stored, Except.map]
      · simp [sum, enough]

end Policy

structure MemStore where
  balances : FiniteMap PlayerId Int64
  txns : FiniteMap UInt64 RecordedTxn
  log : List (PlayerId × Txn × Int64)

namespace MemStore

def new : MemStore := ⟨FiniteMap.empty, FiniteMap.empty, []⟩

def balance (store : MemStore) (player : PlayerId) : Int64 := (store.balances.get? player).getD 0

def lookupTxn (store : MemStore) (txnId : UInt64) : Option RecordedTxn := store.txns.get? txnId

def commit (store : MemStore) (player : PlayerId) (txn : Txn) (newBalance : Int64) : MemStore :=
  { balances := store.balances.insert player newBalance
    txns := store.txns.insert txn.txnId ⟨player, newBalance⟩
    log := store.log ++ [(player, txn, newBalance)] }

instance : LedgerStore MemStore Empty where
  balance store player := .ok (store.balance player)
  lookupTxn store txnId := .ok (store.lookupTxn txnId)
  commit store player txn newBalance := .ok (store.commit player txn newBalance)

end MemStore

abbrev Call := PlayerId × Txn

/-- The in-memory error type is uninhabited, so every application answers. -/
def memApply (store : MemStore) (call : Call) : LedgerAck × MemStore :=
  match apply store call.1 call.2 with
  | .ok answer => answer
  | .error impossible => nomatch impossible

/-! The journal behind a call list, computed from the calls alone. Both stores
are related to it: it is what the ledger is for. -/

abbrev Entry := Journal.Entry UInt64 PlayerId

def entryOf (call : Call) : Entry := ⟨call.2.txnId, call.1, call.2.amountGold.toInt⟩

def committed (calls : List Call) : List Entry :=
  Runs.final (Journal.post maxI64) [] (calls.map entryOf)

theorem committed_nil : committed [] = [] := rfl

theorem committed_snoc (calls : List Call) (call : Call) :
    committed (calls ++ [call]) = (Journal.post maxI64 (committed calls) (entryOf call)).2 := by
  rw [committed, List.map_append, List.map_singleton, Runs.final_snoc]
  rfl

theorem committed_sound (calls : List Call) : Journal.Sound maxI64 (committed calls) :=
  Journal.run_sound maxI64 (by decide) (calls.map entryOf)

/-- The decision agrees with the journal whenever the balance is the owner's total. -/
theorem judge_post (log : List Entry) (call : Call) (balance : Int64)
    (exact : balance.toInt = Journal.total log call.1)
    (sound : Journal.Sound maxI64 log) (fresh : Journal.recorded log call.2.txnId = false) :
    (∃ newBalance, judge balance call.2 = (⟨call.2.txnId, true, newBalance, ""⟩, some newBalance) ∧
      newBalance.toInt = Journal.total log call.1 + call.2.amountGold.toInt ∧
      Journal.post maxI64 log (entryOf call) = (.posted, log ++ [entryOf call])) ∨
    ((judge balance call.2).2 = none ∧ (judge balance call.2).1.accepted = false ∧
      Journal.post maxI64 log (entryOf call) = (.refused, log)) := by
  have floor := (sound.bounded call.1).1
  have refusal (unfit : ¬(0 ≤ Journal.total log call.1 + call.2.amountGold.toInt ∧
      Journal.total log call.1 + call.2.amountGold.toInt ≤ maxI64)) :
      Journal.post maxI64 log (entryOf call) = (.refused, log) := by
    simp [Journal.post, entryOf, fresh, unfit]
  unfold judge
  cases sum : checkedAdd balance call.2.amountGold with
  | none =>
      have range := checkedAdd_none _ _ sum
      have low := (toInt_bounds call.2.amountGold).1
      rw [exact] at range
      unfold minI64 at range low
      exact Or.inr ⟨rfl, rfl, refusal (by omega)⟩
  | some newBalance =>
      have total := checkedAdd_some _ _ _ sum
      rw [exact] at total
      have ceiling := (toInt_bounds newBalance).2
      by_cases enough : (0 : Int64) ≤ newBalance
      · have nonneg : 0 ≤ newBalance.toInt := by simpa [Int64.le_iff_toInt_le] using enough
        refine Or.inl ⟨newBalance, by simp [enough], total, ?_⟩
        rw [total] at nonneg ceiling
        simp [Journal.post, entryOf, fresh, nonneg, ceiling]
      · have negative : newBalance.toInt < 0 := by simpa [Int64.le_iff_toInt_le] using enough
        rw [total] at negative
        exact Or.inr ⟨by simp [enough], by simp [enough], refusal (by omega)⟩

/-- The balance an id was recorded with is its owner's total up to and including it. -/
def Settled (log : List Entry) (id : UInt64) (player : PlayerId) (balance : Int) : Prop :=
  ∃ before entry after, log = before ++ entry :: after ∧ entry.id = id ∧
    entry.account = player ∧ balance = Journal.total (before ++ [entry]) player

theorem settled_recorded {log : List Entry} {id : UInt64} {player : PlayerId} {balance : Int}
    (settled : Settled log id player balance) : Journal.recorded log id = true := by
  obtain ⟨before, entry, after, rfl, rfl, _, _⟩ := settled
  exact (Journal.recorded_iff _ _).mpr ⟨entry, by simp, rfl⟩

theorem settled_append {log : List Entry} {id : UInt64} {player : PlayerId} {balance : Int}
    (settled : Settled log id player balance) (more : List Entry) :
    Settled (log ++ more) id player balance := by
  obtain ⟨before, entry, after, rfl, same, owner, sum⟩ := settled
  exact ⟨before, entry, after ++ more, by simp, same, owner, sum⟩

theorem settled_snoc (log : List Entry) (entry : Entry) :
    Settled (log ++ [entry]) entry.id entry.account
      (Journal.total log entry.account + entry.amount) :=
  ⟨log, entry, [], rfl, rfl, rfl, by rw [Journal.total_snoc]; simp⟩

/-- What the owner gained since separates the current total from the settled one. -/
theorem settled_laterNet {log : List Entry} {id : UInt64} {player : PlayerId} {balance : Int}
    (settled : Settled log id player balance) (unique : (log.map Journal.Entry.id).Nodup) :
    Journal.total log player = balance + Journal.laterNet log id := by
  obtain ⟨before, entry, after, rfl, rfl, rfl, rfl⟩ := settled
  have first := Journal.recorded_before_unique before after entry unique
  rw [Journal.laterNet_split before after entry first, ← Journal.total_append]
  simp

structure MemRepresents (store : MemStore) (log : List Entry) : Prop where
  entries : store.log.map (fun row => entryOf (row.1, row.2.1)) = log
  balances : ∀ player, (store.balance player).toInt = Journal.total log player
  missing : ∀ id, store.lookupTxn id = none ↔ Journal.recorded log id = false
  settled : ∀ id found, store.lookupTxn id = some found →
    Settled log id found.player found.newBalance.toInt

theorem mem_new_represents : MemRepresents MemStore.new [] := by
  refine ⟨rfl, fun player => ?_, fun id => ?_, fun id found present => ?_⟩
  · simp [MemStore.balance, MemStore.new, Journal.total]
  · simp [MemStore.lookupTxn, MemStore.new, Journal.recorded]
  · simp [MemStore.lookupTxn, MemStore.new] at present

theorem mem_commit_represents (store : MemStore) (log : List Entry) (call : Call)
    (newBalance : Int64) (rep : MemRepresents store log)
    (exact : newBalance.toInt = Journal.total log call.1 + call.2.amountGold.toInt) :
    MemRepresents (store.commit call.1 call.2 newBalance) (log ++ [entryOf call]) := by
  constructor
  · simp [MemStore.commit, rep.entries]
  · intro player
    have old := rep.balances player
    simp only [MemStore.balance, MemStore.commit, FiniteMap.get?_insert, Journal.total_snoc,
      entryOf] at old ⊢
    by_cases same : player = call.1
    · subst same
      simpa using exact
    · simpa [same, Ne.symm same] using old
  · intro id
    have old := rep.missing id
    simp only [MemStore.lookupTxn, MemStore.commit, FiniteMap.get?_insert,
      Journal.recorded_snoc, entryOf] at old ⊢
    by_cases same : id = call.2.txnId
    · simp [same]
    · simpa [same, Ne.symm same] using old
  · intro id found present
    simp only [MemStore.lookupTxn, MemStore.commit, FiniteMap.get?_insert] at present
    by_cases same : id = call.2.txnId
    · simp only [same, ↓reduceIte, Option.some.injEq] at present
      subst present
      subst same
      simpa only [exact, entryOf] using settled_snoc log (entryOf call)
    · simp only [same, ↓reduceIte] at present
      exact settled_append (rep.settled id found present) _

/-- The three outcomes of one in-memory application against its journal. -/
theorem memApply_cases (store : MemStore) (log : List Entry) (call : Call)
    (rep : MemRepresents store log) (sound : Journal.Sound maxI64 log) :
    (∃ found, store.lookupTxn call.2.txnId = some found ∧
      Journal.post maxI64 log (entryOf call) = (.replayed, log) ∧
      memApply store call =
        (⟨call.2.txnId, true, found.newBalance, "duplicate (idempotent replay)"⟩, store)) ∨
    (∃ newBalance, newBalance.toInt = Journal.total log call.1 + call.2.amountGold.toInt ∧
      Journal.recorded log call.2.txnId = false ∧
      Journal.post maxI64 log (entryOf call) = (.posted, log ++ [entryOf call]) ∧
      (judge (store.balance call.1) call.2).1 = ⟨call.2.txnId, true, newBalance, ""⟩ ∧
      memApply store call =
        ((judge (store.balance call.1) call.2).1, store.commit call.1 call.2 newBalance)) ∨
    (Journal.post maxI64 log (entryOf call) = (.refused, log) ∧
      Journal.recorded log call.2.txnId = false ∧
      (judge (store.balance call.1) call.2).1.accepted = false ∧
      memApply store call = ((judge (store.balance call.1) call.2).1, store)) := by
  have known := rep.missing call.2.txnId
  cases found : store.lookupTxn call.2.txnId with
  | some record =>
      have present := settled_recorded (rep.settled _ _ found)
      have answer := apply_replay store call.1 call.2 record (congrArg Except.ok found)
      exact Or.inl ⟨record, rfl, by simp [Journal.post, entryOf, present], by simp [memApply, answer]⟩
  | none =>
      have fresh := known.mp found
      have answer := apply_fresh store call.1 call.2 (store.balance call.1)
        (congrArg Except.ok found) rfl
      rcases judge_post log call (store.balance call.1) (rep.balances call.1) sound fresh with
        ⟨newBalance, verdict, exact, posted⟩ | ⟨kept, refused, posted⟩
      · rw [verdict] at answer
        refine Or.inr (Or.inl ⟨newBalance, exact, fresh, posted, congrArg Prod.fst verdict, ?_⟩)
        rw [memApply, answer, verdict]
        rfl
      · rw [kept] at answer
        exact Or.inr (Or.inr ⟨posted, fresh, refused, by rw [memApply, answer]⟩)

theorem memApply_represents (store : MemStore) (log : List Entry) (call : Call)
    (rep : MemRepresents store log) (sound : Journal.Sound maxI64 log) :
    MemRepresents (memApply store call).2 (Journal.post maxI64 log (entryOf call)).2 := by
  rcases memApply_cases store log call rep sound with
    ⟨found, _, posted, answer⟩ | ⟨newBalance, exact, _, posted, _, answer⟩ | ⟨posted, _, _, answer⟩
  · simpa [posted, answer] using rep
  · rw [posted, answer]
    exact mem_commit_represents store log call newBalance rep exact
  · simpa [posted, answer] using rep

/-- Every in-memory run represents the journal of its calls. -/
theorem mem_run_represents (calls : List Call) :
    MemRepresents (Runs.final memApply MemStore.new calls) (committed calls) := by
  induction calls using List.reverseRecOn with
  | nil => exact mem_new_represents
  | append_singleton calls call ih =>
      rw [Runs.final_snoc, committed_snoc]
      exact memApply_represents _ _ call ih (committed_sound calls)

end SailwindOnline.Ledger
