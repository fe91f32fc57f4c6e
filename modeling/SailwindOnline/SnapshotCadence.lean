import SailwindOnline.SnapshotVisits

/-!
The cadence of due visits. A session keeps the tick of its last visit, and the
next visit waits for `ticks_per_snapshot` calls unless that tick is 0, which also
stands for a session never visited: after the visit of the call in which the
32-bit tick wraps to 0 the session's next turn is due at once.
-/

namespace SailwindOnline.SnapshotCadence
open Server SessionRuns Traces SnapshotSchedule SnapshotFreshness SnapshotVisits

section Gaps
variable {F : Type} [Platform F] [Codec F] {db : Persistence.Db F} {pending : List Event} {server : Server F}
  {trace earlier middle : List (Stage F)} {first last : Stage F} {peer : PeerId}

/-- The next call considers `peer`, due or not. -/
def turns (peer : PeerId) (stage : Stage F) : Bool := isCall stage && decide (peer ∈ callWindow stage.before)

/-- From `first` to `last`, both picked, with none picked between them and the session of `peer` kept. -/
structure Between (picks : Stage F → Bool) (peer : PeerId) (first : Stage F) (middle : List (Stage F))
    (last : Stage F) : Prop where
  opened : visits peer first = true
  quiet : ∀ stage ∈ middle, picks stage = false
  closed : picks last = true
  kept : ∀ stage ∈ first :: middle, (stage.after.sessions.get? peer).isSome = true

/-- How many calls of the broadcaster lie from one stage to another with `middle` between them. -/
def callsApart (middle : List (Stage F)) : Nat := (middle.filter isCall).length + 1

/-- Successive due visits of the session in a run lie `ticks_per_snapshot` calls apart. -/
def CadenceKept (server : Server F) (trace : List (Stage F)) (peer : PeerId) : Prop :=
  ∀ earlier first middle last later, trace = earlier ++ [first] ++ middle ++ last :: later →
    Between (visits peer) peer first middle last → server.cfg.ticksPerSnapshot ≤ callsApart middle

/-- A visit in the call in which the tick wraps to 0 is followed by `ticks_per_snapshot` calls before the
session's next turn. -/
def WrapSpared (server : Server F) (trace : List (Stage F)) (peer : PeerId) : Prop :=
  ∀ earlier first middle last later, trace = earlier ++ [first] ++ middle ++ last :: later →
    first.before.snapshotTick + 1 = 0 → Between (turns peer) peer first middle last →
    server.cfg.ticksPerSnapshot ≤ callsApart middle

omit [Codec F] in
theorem turns_of_visits {stage : Stage F} (visited : visits peer stage = true) : turns peer stage = true := by
  simp only [visits, visitDue, turns, Bool.and_eq_true] at visited ⊢
  exact ⟨visited.1, visited.2.1⟩

/-- The clock and the last visit, as the calls since that visit leave them. -/
structure Waited (tick : UInt32) (middle : List (Stage F)) (peer : PeerId) (server : Server F) : Prop where
  clock : server.snapshotTick = tick + UInt32.ofNat (middle.filter isCall).length
  visited : ∃ session, server.sessions.get? peer = some session ∧ session.snapshotLastVisitTick = tick

theorem waited_first (run : Run db (earlier ++ [first]) server pending) (opened : visits peer first = true)
    (kept : (first.after.sessions.get? peer).isSome = true) :
    Waited (first.before.snapshotTick + 1) ([] : List (Stage F)) peer server := by
  obtain ⟨session, found⟩ := visit_found opened
  obtain ⟨later, present⟩ := Option.isSome_iff_exists.mp kept
  have visited := stage_visited run found present opened
  have clock := stage_clock run
  rw [if_pos (Bool.and_eq_true_iff.mp opened).1] at clock
  obtain ⟨-, -, rfl⟩ := run.unsnoc
  exact ⟨by simp [clock], later, present, visited.tick⟩

theorem Waited.next {tick : UInt32} (waited : Waited tick middle peer last.before)
    (run : Run db (trace ++ [last]) server pending) (idle : visits peer last = false)
    (kept : (last.after.sessions.get? peer).isSome = true) : Waited tick (middle ++ [last]) peer server := by
  obtain ⟨session, found, timed⟩ := waited.visited
  obtain ⟨later, present⟩ := Option.isSome_iff_exists.mp kept
  have same := stage_unvisited run found present idle
  simp only [sweepOf, Prod.mk.injEq] at same
  have clock := stage_clock run
  obtain ⟨-, -, rfl⟩ := run.unsnoc
  refine ⟨?_, later, present, same.2.1.trans timed⟩
  rw [clock, waited.clock]
  by_cases calling : isCall last = true
  · simp [calling, UInt32.ofNat_add, UInt32.add_assoc]
  · simp [calling]

theorem waited_run (run : Run db (earlier ++ [first] ++ middle) server pending) (opened : visits peer first = true)
    (quiet : ∀ stage ∈ middle, visits peer stage = false)
    (kept : ∀ stage ∈ first :: middle, (stage.after.sessions.get? peer).isSome = true) :
    Waited (first.before.snapshotTick + 1) middle peer server := by
  induction middle using List.reverseRecOn generalizing server pending with
  | nil =>
      rw [List.append_nil] at run
      exact waited_first run opened (kept first List.mem_cons_self)
  | append_singleton middle stage ih =>
      rw [← List.append_assoc] at run
      obtain ⟨⟨waiting, shorter⟩, -, -⟩ := Run.unsnoc run
      have waited := ih shorter (fun stage listed => quiet stage (List.mem_append_left _ listed))
        (fun stage listed => kept stage (by
          rcases List.mem_cons.mp listed with rfl | inside
          · exact List.mem_cons_self
          · exact List.mem_cons_of_mem _ (List.mem_append_left _ inside)))
      have here : stage ∈ middle ++ [stage] := List.mem_append_right _ List.mem_cons_self
      exact waited.next run (quiet stage here) (kept stage (List.mem_cons_of_mem _ here))

omit [Codec F] in
/-- Between visits, a turn that is not taken means that the cadence has not passed, and that the last visit
was not at tick 0. -/
theorem Waited.due_iff {tick : UInt32} (waited : Waited tick middle peer last.before)
    (inv : Inv pending last.before) (turn : turns peer last = true) :
    visits peer last = true ↔ tick = 0 ∨ last.before.cfg.ticksPerSnapshot ≤ callsApart middle % 2 ^ 32 := by
  obtain ⟨calling, inside⟩ := Bool.and_eq_true_iff.mp turn
  obtain ⟨session, found, timed⟩ := waited.visited
  obtain ⟨cell, here, -, -⟩ := inv.agree.cells peer session found
  -- The 32-bit difference of the ticks counts the calls even across the wrap.
  have elapsed : (last.before.snapshotTick + 1 - tick).toNat = callsApart middle % 2 ^ 32 := by
    have ticks : last.before.snapshotTick + 1 - tick = UInt32.ofNat (callsApart middle) := by
      rw [waited.clock, callsApart, UInt32.ofNat_add, UInt32.add_assoc, UInt32.add_comm tick, UInt32.add_sub_cancel]
      rfl
    rw [ticks, UInt32.toNat_ofNat']
  have cadence : last.before.nominalCadence.toNat = last.before.cfg.ticksPerSnapshot := cadence_eq last.before
  rw [visits, calling, Bool.true_and, visitDue_iff found here]
  simp only [of_decide_eq_true inside, true_and, snapshotDue, timed, Bool.not_eq_true', Bool.and_eq_false_iff,
    decide_eq_false_iff_not, not_not, UInt32.not_lt, UInt32.le_iff_toNat_le]
  show tick = 0 ∨ last.before.nominalCadence.toNat ≤ (last.before.snapshotTick + 1 - tick).toNat ↔ _
  rw [elapsed, cadence]

/-- A run keeps a session's cadence exactly when it spares the session at the wrap of the tick. -/
theorem cadence_kept_iff (run : Run db trace server pending) (peer : PeerId) :
    CadenceKept server trace peer ↔ WrapSpared server trace peer := by
  constructor
  · intro cadence earlier first middle last later split wrapped between
    subst split
    have idle : ∀ stage ∈ middle, visits peer stage = false := by
      intro stage listed
      rw [← Bool.not_eq_true]
      intro visited
      have turn := turns_of_visits visited
      rw [between.quiet stage listed] at turn
      cases turn
    obtain ⟨⟨waiting, before⟩, -, -⟩ := TickEffects.run_upto run
    have waited := waited_run before between.opened idle between.kept
    have visited := (waited.due_iff before.inv between.closed).mpr (.inl wrapped)
    exact cadence _ first middle last later rfl ⟨between.opened, idle, visited, between.kept⟩
  · intro spared earlier first middle last later split between
    subst split
    obtain ⟨⟨waiting, before⟩, -, cfg⟩ := TickEffects.run_upto run
    have waited := waited_run before between.opened between.quiet between.kept
    have turn := turns_of_visits between.closed
    rcases (waited.due_iff before.inv turn).mp between.closed with wrapped | passed
    · -- After a visit at tick 0 the first turn is a visit, so no turn came before this one.
      refine spared _ first middle last later rfl wrapped ⟨between.opened, ?_, turn, between.kept⟩
      intro stage listed
      rw [← Bool.not_eq_true]
      intro skipped
      obtain ⟨front, back, rfl⟩ := List.append_of_mem listed
      rw [← List.append_assoc, List.append_assoc _ (stage :: back), List.cons_append] at run
      obtain ⟨⟨unhandled, upto⟩, -, -⟩ := TickEffects.run_upto run
      have sooner := waited_run upto between.opened
        (fun stage listed => between.quiet stage (List.mem_append_left _ listed))
        (fun stage listed => between.kept stage (by
          rcases List.mem_cons.mp listed with rfl | inside
          · exact List.mem_cons_self
          · exact List.mem_cons_of_mem _ (List.mem_append_left _ inside)))
      have visited := (sooner.due_iff upto.inv skipped).mpr (.inl wrapped)
      rw [between.quiet stage listed] at visited
      cases visited
    · rw [cfg]
      exact passed.trans (Nat.mod_le _ _)

end Gaps

/-! Calls in a row for two clients who have joined. -/

def calling (server : Server Int) : Nat → List (Stage Int)
  | 0 => []
  | calls + 1 => ⟨server, .tick .snapshots, server.broadcastSnapshots⟩ :: calling server.broadcastSnapshots calls

def called (server : Server Int) : Nat → Server Int
  | 0 => server
  | calls + 1 => called server.broadcastSnapshots calls

theorem calling_run {trace : List (Stage Int)} {server : Server Int} (run : Run emptyDb trace server []) (calls : Nat) :
    Run emptyDb (trace ++ calling server calls) (called server calls) [] := by
  induction calls generalizing trace server with
  | zero => simpa [calling, called] using run
  | succ calls ih =>
      have next := ih (run.tick .snapshots)
      rw [List.append_assoc] at next
      exact next

theorem cadence_kept_joined : CadenceKept (called joinedServer 8) (joinStages ++ calling joinedServer 8) 1 := by
  have early : (joinStages ++ calling joinedServer 8).all (fun stage => stage.before.snapshotTick + 1 ≠ 0) = true := by
    decide +kernel
  refine (cadence_kept_iff (calling_run joinStages_run 8) 1).mpr ?_
  intro earlier first middle last later split wrapped
  have listed : first ∈ joinStages ++ calling joinedServer 8 := by
    rw [split]
    simp
  exact absurd wrapped (by simpa using List.all_eq_true.mp early first listed)

/-! The same clients on a server that has served nobody up to the last tick before the wrap. -/

theorem idle_run (calls : Nat) :
    ∃ trace, Run emptyDb trace { freshServer with snapshotTick := UInt32.ofNat calls } [] := by
  induction calls with
  | zero => exact ⟨[], .start (rfl : Server.new (ValidConfig.default 1024 rfl rfl) emptyDb 0 0 = .ok freshServer)⟩
  | succ calls ih =>
      obtain ⟨trace, run⟩ := ih
      have called : Tick.snapshots.run { freshServer with snapshotTick := UInt32.ofNat calls } =
          { freshServer with snapshotTick := UInt32.ofNat (calls + 1) } := by
        rw [UInt32.ofNat_add]
        rfl
      have next := run.tick .snapshots
      rw [called] at next
      exact ⟨_, next⟩

def idleServer : Server Int := { freshServer with snapshotTick := UInt32.ofNat (2 ^ 32 - 1) }

def wrapServer : Server Int := handleAll (polledBy idleServer joinScript) 1000 joinEvents

theorem wrap_run : ∃ trace, Run emptyDb trace wrapServer [] := by
  obtain ⟨trace, idle⟩ := idle_run (2 ^ 32 - 1)
  have seen : (idleServer.host.pollWithWork 0 joinScript).toOption.map
      (fun after => after.events.map Prod.fst) = some joinEvents := by decide +kernel
  have waiting := polledBy_run idle joinScript seen
  rw [← List.append_nil joinEvents] at waiting
  exact ⟨_, handleAll_run joinEvents 1000 waiting⟩

/-- The visit at tick 0 is forgotten, and the next call visits the session again. -/
theorem cadence_broken :
    ∃ trace server, Run emptyDb trace server [] ∧ server.cfg.ticksPerSnapshot = 7 ∧ ¬ CadenceKept server trace 1 := by
  obtain ⟨trace, run⟩ := wrap_run
  have cadence : (called wrapServer 2).cfg.ticksPerSnapshot = 7 := by decide +kernel
  refine ⟨_, _, calling_run run 2, cadence, ?_⟩
  intro kept
  have visited : (calling wrapServer 2).all (visits 1) = true := by decide +kernel
  have present : (calling wrapServer 2).all (fun stage => (stage.after.sessions.get? 1).isSome) = true := by
    decide +kernel
  have opened := List.all_eq_true.mp visited _ List.mem_cons_self
  have closed := List.all_eq_true.mp visited _ (List.mem_cons_of_mem _ List.mem_cons_self)
  have held := List.all_eq_true.mp present _ List.mem_cons_self
  have apart := kept trace _ [] _ [] (by simp [calling]) ⟨opened, by simp, closed, by simpa using held⟩
  rw [cadence] at apart
  exact absurd apart (by decide)

end SailwindOnline.SnapshotCadence
