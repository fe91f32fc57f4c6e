import Mathlib.Data.List.TakeWhile
import SailwindOnline.Newcomers
import SailwindOnline.Throttles

/-!
The flush interval as a deadline. `begin_dirty_flush` opens an interval of
`5 * tick_hz` calls of the bounded flush, each of which writes at most eight
players in ascending order; an interval writes everybody who waited at its
start exactly when the crowd fits that many rows.
-/

namespace SailwindOnline.FlushCadence
open MachineInt Server SessionIndex SessionRuns OrderedSet Effects TickEffects Traces
open Persistence FlushQueue PlayerTable
open Newcomers RateLimiting Throttles

def flushIntervalSecs : Nat := 5

/-- The rows an interval can write at the fixed tick rate. -/
def intervalRows {F : Type} (cfg : Config F) : Nat := dirtyDbUpdatesPerTick * (flushIntervalSecs * cfg.tickHz.toNat)

section Intervals
variable {F : Type} [Platform F] {server after : Server F} {stage : Stage F} {middle : List (Stage F)}

def isFlush (stage : Stage F) : Bool :=
  match stage.action with
  | .tick (.dirtyFlush _ _) => true
  | _ => false

def isBegin (stage : Stage F) : Bool :=
  match stage.action with
  | .tick .beginFlush => true
  | _ => false

/-- No session disconnects and no touch of the flush fails. -/
def Undisturbed (stage : Stage F) : Prop :=
  match stage.action with
  | .handle _ (.disconnected peer _) => stage.before.sessions.get? peer = none
  | .tick (.dirtyFlush fails _) => ∀ player, fails player = false
  | _ => True

/-- Some flush call wrote the player's row and took it off the queue. -/
def PersistedWithin (middle : List (Stage F)) (player : UInt64) : Prop :=
  ∃ stage ∈ middle, ∃ fails now, stage.action = .tick (.dirtyFlush fails now) ∧
    player ∈ stage.before.flushPlayers ∧ player ∉ stage.after.flushPlayers ∧ Persisted stage.after.db now player

/-- What is left of `queue` after some calls. -/
structure Draining (queue : List UInt64) (middle : List (Stage F)) (server : Server F) : Prop where
  running : server.flushPaused = false
  left : server.flushPlayers = (queue.drop (dirtyDbUpdatesPerTick * (middle.filter isFlush).length)).toFinset
  waiting_iff : ∀ player ∈ queue, player ∈ server.flushPlayers ↔ ¬ PersistedWithin middle player

theorem persistedWithin_snoc {player : UInt64} :
    PersistedWithin (middle ++ [stage]) player ↔ PersistedWithin middle player ∨ PersistedWithin [stage] player := by
  simp only [PersistedWithin, List.mem_append, or_and_right, exists_or]

theorem not_persistedWithin_other {player : UInt64} (other : isFlush stage = false) :
    ¬ PersistedWithin [stage] player := by
  rintro ⟨same, member, fails, now, action, -⟩
  cases List.mem_singleton.mp member
  rw [isFlush, action] at other
  cases other

/-- Work that leaves the flush queue alone. -/
theorem Draining.other {queue : List UInt64} (draining : Draining queue middle stage.before)
    (other : isFlush stage = false) (flush : stage.after.flushPlayers = stage.before.flushPlayers)
    (paused : stage.after.flushPaused = stage.before.flushPaused) : Draining queue (middle ++ [stage]) stage.after where
  running := paused.trans draining.running
  left := by
    rw [flush, draining.left]
    simp [other]
  waiting_iff player member := by
    rw [flush, draining.waiting_iff player member, persistedWithin_snoc]
    simp [not_persistedWithin_other other]

omit [Platform F] in
theorem persisted_touchEach {db : Db F} {now : Int64} {player : UInt64} {players : List UInt64}
    (known : HasRow db player) (member : player ∈ players) : Persisted (touchEach now db players) now player := by
  have later : ∀ (players : List UInt64) (db : Db F), Persisted db now player →
      Persisted (touchEach now db players) now player := by
    intro players
    induction players with
    | nil => exact fun _ persisted => persisted
    | cons other rest ih => exact fun db persisted => ih _ (persisted_touch other persisted)
  induction players generalizing db with
  | nil => cases member
  | cons other rest ih =>
      rcases List.mem_cons.mp member with rfl | inside
      · exact later rest _ (persisted_own now known)
      · exact ih ((hasRow_touch _ _).mpr known) inside

theorem flushEach_running {fails : UInt64 → Bool} (sound : ∀ player, fails player = false) (now : Int64)
    (players : List UInt64) (server : Server F) :
    (flushEach fails now players server).1.flushPaused = server.flushPaused := by
  induction players generalizing server with
  | nil => rfl
  | cons player rest ih =>
      unfold flushEach
      simp only [attempt, sound, Bool.false_eq_true, if_false]
      rw [ih]
      unfold settleFlushed
      simp only
      split <;> rfl

/-- One call writes the next eight players of the queue. -/
theorem Draining.flush {queue : List UInt64} {fails : UInt64 → Bool} {now : Int64}
    (sorted : queue.Pairwise (· < ·)) (rooted : Rooted stage.before) (draining : Draining queue middle stage.before)
    (action : stage.action = .tick (.dirtyFlush fails now)) (sound : ∀ player, fails player = false)
    (done : stage.after = (stage.before.processDirtyFlushAt fails now).1) :
    Draining queue (middle ++ [stage]) stage.after := by
  have wrote := processDirtyFlushAt_wrote stage.before fails now
  rw [← done] at wrote
  have all : ∀ players, reached fails players = players := by
    intro players
    exact List.takeWhile_eq_self_iff.mpr fun player _ => by simp [sound]
  -- What is left of the queue is sorted, so the flush reaches its front in the same order.
  have order : ascending stage.before.flushPlayers =
      queue.drop (dirtyDbUpdatesPerTick * (middle.filter isFlush).length) := by
    rw [draining.left]
    exact ascending_toFinset (sorted.sublist (List.drop_sublist _ _))
  have taken : flushReached stage.before fails =
      (queue.drop (dirtyDbUpdatesPerTick * (middle.filter isFlush).length)).take dirtyDbUpdatesPerTick := by
    rw [flushReached, draining.running, all, order]
    rfl
  have flushing : isFlush stage = true := by rw [isFlush, action]
  have gone : ∀ player ∈ stage.before.flushPlayers, player ∉ stage.after.flushPlayers →
      player ∈ flushReached stage.before fails := by
    intro player held dropped
    rw [wrote.flush, Finset.mem_sdiff, not_and_not_right, List.mem_toFinset] at dropped
    exact dropped held
  refine ⟨?_, ?_, ?_⟩
  · rw [done]
    unfold processDirtyFlushAt
    rw [draining.running]
    simp only [Bool.false_eq_true, if_false]
    rw [flushEach_running sound]
    exact draining.running
  · have calls : ((middle ++ [stage]).filter isFlush).length = (middle.filter isFlush).length + 1 := by
      simp [flushing]
    rw [calls, wrote.flush, taken, draining.left, Nat.mul_succ, ← List.drop_drop]
    generalize queue.drop (dirtyDbUpdatesPerTick * (middle.filter isFlush).length) = rest at *
    have unique : rest.Nodup := by
      rw [← order]
      exact ascending_nodup _
    ext player
    rw [Finset.mem_sdiff, List.mem_toFinset, List.mem_toFinset, List.mem_toFinset]
    have split := List.take_append_drop dirtyDbUpdatesPerTick rest
    have apart := unique
    rw [← split, List.nodup_append] at apart
    constructor
    · rintro ⟨inside, untaken⟩
      rw [← split, List.mem_append] at inside
      exact inside.resolve_left untaken
    · intro later
      exact ⟨List.mem_of_mem_drop later, fun early => apart.2.2 player early player later rfl⟩
  · intro player member
    have before := draining.waiting_iff player member
    rw [persistedWithin_snoc, not_or]
    constructor
    · intro waiting
      have held : player ∈ stage.before.flushPlayers := by
        rw [wrote.flush] at waiting
        exact (Finset.mem_sdiff.mp waiting).1
      refine ⟨before.mp held, ?_⟩
      rintro ⟨same, here, _, _, -, -, dropped, -⟩
      cases List.mem_singleton.mp here
      exact dropped waiting
    · rintro ⟨unwritten_before, unwritten_now⟩
      have held := before.mpr unwritten_before
      by_contra dropped
      refine unwritten_now ⟨stage, List.mem_singleton_self _, fails, now, action, held, dropped, ?_⟩
      rw [wrote.db]
      refine persisted_touchEach (rooted player (Or.inl ?_)) (gone player held dropped)
      exact Finset.mem_union_right _ held

theorem outcome_flush {moment : Moment} {event : Event} (outcome : Outcome server moment event after)
    (stays : ∀ peer reason, event = .disconnected peer reason → server.sessions.get? peer = none) :
    after.flushPlayers = server.flushPlayers ∧ after.flushPaused = server.flushPaused := by
  cases outcome with
  | calm frame posts kept =>
      exact ⟨(congrArg Server.flushPlayers frame :), (congrArg Server.flushPaused frame :)⟩
  | moved found motion state cell placed => exact ⟨rfl, rfl⟩
  | spoke found here about captured => exact ⟨rfl, rfl⟩
  | @joined peer bytes base middle numbered player identityHash name generation reply vacant frame posts
      superseded numbering =>
      have kept := entered_frame peer (withGeneration generation (firstSession server player identityHash name))
        reply superseded numbering
      exact ⟨(congrArg Server.flushPlayers kept :).trans (congrArg Server.flushPlayers frame :),
        (congrArg Server.flushPaused kept :).trans (congrArg Server.flushPaused frame :)⟩
  | @left peer reason session db flushPlayers dirtyPlayers flushPaused found =>
      rw [stays peer reason rfl] at found
      cases found

variable [Codec F] {db : Db F} {pending : List Event} {early : List (Stage F)} {begun : Stage F}

/-- One stage of an interval. -/
theorem Draining.step {queue : List UInt64} (sorted : queue.Pairwise (· < ·)) (inv : Inv pending stage.before)
    (rooted : Rooted stage.before) (draining : Draining queue middle stage.before) (lawful : stage.Lawful)
    (undisturbed : Undisturbed stage) (inside : isBegin stage = false) :
    Draining queue (middle ++ [stage]) stage.after := by
  obtain ⟨before, action, after, rfl, move⟩ := lawful_move inv lawful
  cases move with
  | poll host => exact draining.other rfl rfl rfl
  | handle outcome =>
      have same := outcome_flush outcome (by
        rintro peer reason rfl
        exact undisturbed)
      exact draining.other rfl same.1 same.2
  | tick tick =>
      cases tick with
      | aoi fails =>
          have frame := (processAoiWork_effect before fails).frame
          exact draining.other rfl (congrArg Server.flushPlayers frame :) (congrArg Server.flushPaused frame :)
      | snapshots =>
          have frame := (broadcastSnapshots_effect before).frame
          exact draining.other rfl (congrArg Server.flushPlayers frame :) (congrArg Server.flushPaused frame :)
      | fanout =>
          have frame := (processFanoutWork_run before).frame
          exact draining.other rfl (congrArg Server.flushPlayers frame :) (congrArg Server.flushPaused frame :)
      | dirtyFlush fails now => exact draining.flush sorted rooted rfl undisturbed rfl
      | beginFlush => cases inside
      | clock clockMs =>
          have frame := broadcastClock_frame before clockMs
          exact draining.other rfl (congrArg Server.flushPlayers frame :) (congrArg Server.flushPaused frame :)

theorem begun_after (opens : isBegin begun = true) (lawful : begun.Lawful) :
    begun.after = begun.before.beginDirtyFlush := by
  obtain ⟨before, action, after⟩ := begun
  cases action with
  | poll now script => cases opens
  | handle moment event => cases opens
  | tick tick =>
      cases tick <;> cases opens
      exact lawful

/-- An interval, from the call that opens it: what is left of the crowd that waited then. -/
theorem run_draining (run : Run db (early ++ begun :: middle) server pending) (opens : isBegin begun = true)
    (undisturbed : ∀ stage ∈ middle, Undisturbed stage) (inside : ∀ stage ∈ middle, isBegin stage = false) :
    Draining (ascending begun.after.flushPlayers) middle server := by
  induction middle using List.reverseRecOn generalizing server pending with
  | nil =>
      obtain ⟨-, lawful, rfl⟩ := Run.unsnoc run
      have paused : begun.after.flushPaused = false := by
        rw [begun_after opens lawful]
        rfl
      refine ⟨paused, ?_, fun player member => ?_⟩
      · ext player
        simp
      · simpa [PersistedWithin] using member
  | append_singleton middle stage ih =>
      rw [← List.cons_append, ← List.append_assoc] at run
      obtain ⟨⟨earlier, shorter⟩, lawful, rfl⟩ := run.unsnoc
      have member : stage ∈ middle ++ [stage] := List.mem_append_right _ (List.mem_singleton_self _)
      have draining := ih shorter (fun other held => undisturbed other (List.mem_append_left _ held))
        fun other held => inside other (List.mem_append_left _ held)
      exact draining.step (ascending_sorted _) shorter.inv (run_flushInv shorter).rooted lawful
        (undisturbed stage member) (inside stage member)

end Intervals

/-! Runs in which nobody disconnects. -/
section Crews
variable {F : Type} [Platform F] {server after : Server F} {peer : PeerId}

def Manned (server : Server F) : Prop := ∀ player ∈ unwritten server, (server.playerPeers.get? player).isSome

theorem Manned.of_subset (manned : Manned server) (owners : after.playerPeers = server.playerPeers)
    (within : unwritten after ⊆ unwritten server) : Manned after := by
  intro player waiting
  rw [owners]
  exact manned player (within waiting)

theorem Manned.of_eq (manned : Manned server) (owners : after.playerPeers = server.playerPeers)
    (dirty : after.dirtyPlayers = server.dirtyPlayers) (flush : after.flushPlayers = server.flushPlayers) :
    Manned after :=
  manned.of_subset owners (by rw [unwritten, dirty, flush, unwritten])

theorem outcome_manned {moment : Moment} {event : Event} (agree : SessionsAgree noStray server)
    (manned : Manned server) (outcome : Outcome server moment event after)
    (stays : ∀ peer reason, event = .disconnected peer reason → server.sessions.get? peer = none) :
    Manned after := by
  cases outcome with
  | calm frame posts kept =>
      exact manned.of_eq (congrArg Server.playerPeers frame :) (congrArg Server.dirtyPlayers frame :)
        (congrArg Server.flushPlayers frame :)
  | @moved _ _ session found motion state cell placed =>
      intro player waiting
      simp only [unwritten, Finset.insert_union, Finset.mem_insert] at waiting
      rcases waiting with rfl | waiting
      · have owner := owner_of agree found
        simp [owner]
      · exact manned player waiting
  | spoke found here about captured => exact manned.of_eq rfl rfl rfl
  | @joined peer bytes base middle numbered player identityHash name generation reply vacant frame posts
      superseded numbering =>
      have owners : base.playerPeers = server.playerPeers := (congrArg Server.playerPeers frame :)
      have dirty : base.dirtyPlayers = server.dirtyPlayers := (congrArg Server.dirtyPlayers frame :)
      have flush : base.flushPlayers = server.flushPlayers := (congrArg Server.flushPlayers frame :)
      have kept := entered_frame peer (withGeneration generation (firstSession server player identityHash name))
        reply superseded numbering
      have queued : (entered numbered peer (withGeneration generation
          (firstSession server player identityHash name)) reply).flushPlayers = server.flushPlayers :=
        (congrArg Server.flushPlayers kept :).trans flush
      intro other waiting
      rw [entered_owners _ _ reply rfl superseded numbering, owners]
      split <;> rename_i own
      · rfl
      · refine manned other ?_
        rw [unwritten, entered_dirty peer _ reply superseded numbering, dirty, queued, Finset.insert_union,
          Finset.mem_insert] at waiting
        exact waiting.resolve_left own
  | @left peer reason session db flushPlayers dirtyPlayers flushPaused found =>
      rw [stays peer reason rfl] at found
      cases found

variable [Codec F] {db : Db F} {pending : List Event} {trace early middle : List (Stage F)} {begun : Stage F}

theorem unwritten_tick (server : Server F) (tick : Tick) : unwritten (tick.run server) ⊆ unwritten server := by
  have same : ∀ {after : Server F}, after.dirtyPlayers = server.dirtyPlayers →
      after.flushPlayers = server.flushPlayers → unwritten after ⊆ unwritten server := by
    intro after dirty flush
    rw [unwritten, dirty, flush, unwritten]
  cases tick with
  | aoi fails =>
      have frame := (processAoiWork_effect server fails).frame
      exact same (congrArg Server.dirtyPlayers frame :) (congrArg Server.flushPlayers frame :)
  | snapshots =>
      have frame := (broadcastSnapshots_effect server).frame
      exact same (congrArg Server.dirtyPlayers frame :) (congrArg Server.flushPlayers frame :)
  | fanout =>
      have frame := (processFanoutWork_run server).frame
      exact same (congrArg Server.dirtyPlayers frame :) (congrArg Server.flushPlayers frame :)
  | dirtyFlush fails now =>
      have wrote := processDirtyFlushAt_wrote server fails now
      show unwritten (server.processDirtyFlushAt fails now).1 ⊆ unwritten server
      rw [unwritten, wrote.dirty, wrote.flush]
      exact Finset.union_subset_union_right Finset.sdiff_subset
  | beginFlush =>
      intro player waiting
      simp only [Tick.run, beginDirtyFlush, unwritten, Finset.mem_union] at waiting ⊢
      grind
  | clock clockMs =>
      have frame := broadcastClock_frame server clockMs
      exact same (congrArg Server.dirtyPlayers frame :) (congrArg Server.flushPlayers frame :)

/-- While nobody disconnects, the unwritten players all have sessions. -/
theorem run_manned (run : Run db trace server pending) (undisturbed : ∀ stage ∈ trace, Undisturbed stage) :
    Manned server := by
  have earlier : ∀ {trace : List (Stage F)} {stage : Stage F}, (∀ other ∈ trace ++ [stage], Undisturbed other) →
      (∀ other ∈ trace, Undisturbed other) ∧ Undisturbed stage := fun all =>
    ⟨fun other held => all other (List.mem_append_left _ held),
      all _ (List.mem_append_right _ (List.mem_singleton_self _))⟩
  induction run with
  | start opened =>
      obtain ⟨identityPlayers, -, rfl⟩ := new_opened opened
      intro player waiting
      simp [unwritten, Server.opened] at waiting
  | poll now script _ polled ih => exact (ih (earlier undisturbed).1).of_eq rfl rfl rfl
  | @handle trace server event pending moment run ih =>
      obtain ⟨before, stays⟩ := earlier undisturbed
      refine outcome_manned run.inv.agree (ih before) (handleEvent_outcome run.inv moment event) ?_
      rintro peer reason rfl
      exact stays
  | tick tick run ih =>
      exact (ih (earlier undisturbed).1).of_subset (keeps_tick _ tick).owners (unwritten_tick _ tick)

omit [Codec F] in
theorem Manned.card_le (manned : Manned server) (inv : Inv pending server) :
    (unwritten server).card ≤ server.cfg.maxTransportPeersUsize := by
  have owned : unwritten server ⊆
      server.sessions.keys.image fun peer => ((server.sessions.get? peer).map Session.playerId).getD 0 := by
    intro player waiting
    obtain ⟨peer, owner⟩ := Option.isSome_iff_exists.mp (manned player waiting)
    obtain ⟨session, found, own⟩ := (inv.agree.owner_iff player peer).mp owner
    exact Finset.mem_image.mpr
      ⟨peer, (FiniteMap.mem_keys_iff_exists _ _).mpr ⟨session, found⟩, by rw [found, ← own]; rfl⟩
  calc (unwritten server).card
    _ ≤ (server.sessions.keys.image _).card := Finset.card_le_card owned
    _ ≤ server.sessions.keys.card := Finset.card_image_le
    _ ≤ server.cfg.maxTransportPeersUsize := inv.hosted.size_le

theorem begun_flush (opens : isBegin begun = true) (lawful : begun.Lawful) :
    begun.after.flushPlayers = unwritten begun.before := by
  rw [begun_after opens lawful]
  exact Finset.union_comm _ _

/-- What an interval wrote, against how many waited when it began. -/
theorem persistedWithin_all_iff (run : Run db (early ++ begun :: middle) server pending)
    (opens : isBegin begun = true) (undisturbed : ∀ stage ∈ middle, Undisturbed stage)
    (inside : ∀ stage ∈ middle, isBegin stage = false)
    (calls : (middle.filter isFlush).length = flushIntervalSecs * server.cfg.tickHz.toNat) :
    (∀ player ∈ begun.after.flushPlayers, PersistedWithin middle player) ↔
      (unwritten begun.before).card ≤ intervalRows server.cfg.toConfig := by
  have opened := begun_flush opens (run_upto run).2.1
  have draining := run_draining run opens undisturbed inside
  rw [← opened, ← ascending_length, intervalRows, ← calls]
  have left := draining.left
  have persisted := draining.waiting_iff
  simp only [mem_ascending] at persisted
  generalize dirtyDbUpdatesPerTick * (middle.filter isFlush).length = rows at left ⊢
  constructor
  · intro all
    have none_left : server.flushPlayers = ∅ := by
      refine Finset.eq_empty_of_forall_notMem fun player held => ?_
      have member : player ∈ begun.after.flushPlayers := by
        rw [left, List.mem_toFinset] at held
        exact (mem_ascending _ _).mp (List.mem_of_mem_drop held)
      exact (persisted player member).mp held (all player member)
    rw [none_left, eq_comm, List.toFinset_eq_empty_iff] at left
    exact List.drop_eq_nil_iff.mp left
  · intro fits player member
    by_contra unpersisted
    have held := (persisted player member).mpr unpersisted
    rw [left, List.drop_eq_nil_of_le fits] at held
    cases held

/-- Between one `begin_dirty_flush` and the next, at the fixed tick rate and without failures or
disconnects, everybody who waited is written exactly when they are no more than an interval's rows;
so always, if the settings admit no more peers than that. -/
theorem interval_writes_all_iff (run : Run db (early ++ begun :: middle) server pending)
    (opens : isBegin begun = true) (undisturbed : ∀ stage ∈ middle, Undisturbed stage)
    (inside : ∀ stage ∈ middle, isBegin stage = false)
    (calls : (middle.filter isFlush).length = flushIntervalSecs * server.cfg.tickHz.toNat) :
    ((∀ player ∈ begun.after.flushPlayers, PersistedWithin middle player) ↔
      (unwritten begun.before).card ≤ intervalRows server.cfg.toConfig) ∧
    ((∀ stage ∈ early, Undisturbed stage) →
      server.cfg.maxTransportPeersUsize ≤ intervalRows server.cfg.toConfig →
      ∀ player ∈ begun.after.flushPlayers, PersistedWithin middle player) := by
  have exactly := persistedWithin_all_iff run opens undisturbed inside calls
  refine ⟨exactly, fun calm fits => exactly.mpr ?_⟩
  obtain ⟨⟨waiting, first⟩, -, cfg⟩ := run_upto run
  rw [cfg] at fits ⊢
  exact ((run_manned first calm).card_le first.inv).trans fits

/-- Calls of the flush that all succeed. -/
def flushStages : Nat → Server F → List (Stage F)
  | 0, _ => []
  | calls + 1, server =>
    let after := Tick.run server (.dirtyFlush (fun _ => false) 0)
    ⟨server, .tick (.dirtyFlush (fun _ => false) 0), after⟩ :: flushStages calls after

theorem flushStages_plain (calls : Nat) (server : Server F) : ∀ stage ∈ flushStages calls server,
    Undisturbed stage ∧ isBegin stage = false ∧ isFlush stage = true := by
  induction calls generalizing server with
  | zero => simp [flushStages]
  | succ calls ih =>
      intro stage member
      rcases List.mem_cons.mp member with rfl | later
      · exact ⟨fun _ => rfl, rfl, rfl⟩
      · exact ih _ stage later

theorem length_flushStages (calls : Nat) (server : Server F) : (flushStages calls server).length = calls := by
  induction calls generalizing server with
  | zero => rfl
  | succ calls ih => simp [flushStages, ih]

theorem run_flushStages (calls : Nat) (run : Run db trace server pending) :
    ∃ after, Run db (trace ++ flushStages calls server) after pending := by
  induction calls generalizing trace server with
  | zero => exact ⟨server, by simpa [flushStages] using run⟩
  | succ calls ih =>
      obtain ⟨after, longer⟩ := ih (run.tick (.dirtyFlush (fun _ => false) 0))
      exact ⟨after, by simpa [flushStages] using longer⟩

def beginStage (server : Server F) : Stage F := ⟨server, .tick .beginFlush, Tick.run server .beginFlush⟩

/-- Any run goes on with one interval of successful calls. -/
theorem run_interval (run : Run db trace server pending) :
    ∃ after middle, Run db (trace ++ beginStage server :: middle) after pending ∧
      (∀ stage ∈ middle, Undisturbed stage) ∧ (∀ stage ∈ middle, isBegin stage = false) ∧
      (middle.filter isFlush).length = flushIntervalSecs * after.cfg.tickHz.toNat ∧ after.cfg = server.cfg := by
  obtain ⟨after, longer⟩ := run_flushStages (flushIntervalSecs * server.cfg.tickHz.toNat) (run.tick .beginFlush)
  have plain := flushStages_plain (flushIntervalSecs * server.cfg.tickHz.toNat) (Tick.run server .beginFlush)
  rw [List.append_assoc, List.singleton_append] at longer
  have cfg : after.cfg = server.cfg :=
    (run_upto longer : (∃ waiting, Run db trace (beginStage server).before waiting) ∧ _).2.2
  refine ⟨after, _, longer, fun stage member => (plain stage member).1,
    fun stage member => (plain stage member).2.1, ?_, cfg⟩
  rw [List.filter_eq_self.mpr fun stage member => (plain stage member).2.2, length_flushStages, cfg]

/-- Two players of a default server are both written within the interval after they joined. -/
theorem interval_writes_all_joined :
    ∃ (early middle : List (Stage Int)) (server : Server Int),
      Run emptyDb (early ++ beginStage joinedServer :: middle) server [] ∧
      ∀ player ∈ joinedServer.beginDirtyFlush.flushPlayers, PersistedWithin middle player := by
  obtain ⟨early, run⟩ := exists_run joinedServer_reached
  obtain ⟨server, middle, longer, undisturbed, inside, calls, cfg⟩ := run_interval run
  refine ⟨early, middle, server, longer, ?_⟩
  have settings : joinedServer.cfg.tickHz = 30 := by decide +kernel
  have few : (unwritten joinedServer).card ≤ 2 := by decide +kernel
  refine (interval_writes_all_iff longer rfl undisturbed inside calls).1.mpr ?_
  rw [cfg, intervalRows, settings]
  exact few.trans (by decide)

end Crews

/-! A server too slow for its crew. -/
section Overcrowded

/-- At two ticks a second the settings admit 96 peers, and an interval writes 80 rows. -/
def crewConfig : ValidConfig Int :=
  { Config.default 1024 with tickHz := 2, snapshotHz := 2, maxTransportPeers := 96, valid := rfl }

def crewServer : Server Int := Server.opened crewConfig emptyDb FiniteMap.empty 0 0

def crewSize : Nat := 81

def crewToken (index : Nat) : String := String.singleton (Char.ofNat (index + 1))

def crewAddr (index : Nat) : SocketAddr := .v4 (UInt32.ofNat index) 5000

local instance crewCodec : Codec Int where
  encode _ := []
  decode
    | [index] => some (.hello (helloOf (crewToken index.toNat)))
    | _ => none

theorem crewToken_apart {index other : Nat} (inside : index < crewSize) (within : other < crewSize)
    (same : tokenHash (crewToken index) = tokenHash (crewToken other)) : index = other := by
  have unique : ((List.range crewSize).map fun index => fnv1a (crewToken index).toUTF8.toList).Nodup := by
    decide +kernel
  have hashes := tokenHash_inj same
  exact List.inj_on_of_nodup_map unique (List.mem_range.mpr inside) (List.mem_range.mpr within) hashes

theorem crewToken_valid {index : Nat} (inside : index < crewSize) :
    validateHello 512 (helloOf (crewToken index)) = .ok (crewToken index, "sailor") := by
  have all : ∀ index < crewSize, validateHello 512 (helloOf (crewToken index)) = .ok (crewToken index, "sailor") := by
    decide +kernel
  exact all index inside

/-- The transport once the first `count` clients are connected. -/
structure Aboard (count : Nat) (host : Host) : Prop where
  untroubled : Untroubled host
  slots : host.peerSlots.length = count
  strangers : ∀ index < crewSize, count ≤ index → host.peers.get? (crewAddr index) = none ∧
    host.peersPerIp.get? (crewAddr index).ip = none

/-- The server once they have joined, one second apart. -/
structure Crew (count : Nat) (server : Server Int) : Prop where
  cfg : server.cfg = crewConfig
  vacant : ∀ index < crewSize, count ≤ index → server.sessions.get? (index + 1) = none
  unheard : ∀ index < crewSize, count ≤ index → server.helloLimiter.last.get? (UInt64.ofNat (index + 1)) = none
  sources : ∀ index < crewSize, count ≤ index → (crewAddr index).ip ∉ server.sourceSessionLimiter.last.keys
  charged : server.sourceSessionLimiter.last.size ≤ count ∧ server.sourceSessionLimiter.maxKeys = 96
  rested : server.newSessionLimiter.minIntervalMs = 30 ∧
    ∀ last, server.newSessionLimiter.last = some last → last = Int64.ofNat (1000 * count)
  unlisted : ∀ index < crewSize, count ≤ index →
    server.identityPlayers.get? (tokenHash (crewToken index)) = none
  listed : server.identityPlayers.size = count
  rows : server.db.players.length = count ∧ server.db.playerSequence = Int64.ofNat count
  row : ∀ row ∈ server.db.players, ∃ index < count, row.id = Int64.ofNat (index + 1) ∧
    row.tokenHash = tokenHash (crewToken index)
  waiting : count ≤ (unwritten server).card

theorem crewAddr_apart {index other : Nat} (inside : index < crewSize) (within : other < crewSize)
    (same : (crewAddr index).ip = (crewAddr other).ip) : index = other := by
  have octets : UInt32.ofNat index = UInt32.ofNat other := IpAddr.v4.inj same
  have numbers := congrArg UInt32.toNat octets
  simp only [UInt32.toNat_ofNat', crewSize] at numbers inside within
  omega

theorem crewKey_apart {index other : Nat} (inside : index < crewSize) (within : other < crewSize)
    (same : UInt64.ofNat (index + 1) = UInt64.ofNat (other + 1)) : index = other := by
  have numbers := congrArg UInt64.toNat same
  simp only [UInt64.toNat_ofNat', crewSize] at numbers inside within
  omega

theorem crewId_apart {index other : Nat} (inside : index < crewSize) (within : other < crewSize)
    (same : Int64.ofNat (index + 1) = Int64.ofNat (other + 1)) : index = other := by
  have numbers := congrArg Int64.toInt same
  simp only [crewSize] at inside within
  rw [Int64.toInt_ofNat_of_lt (by omega), Int64.toInt_ofNat_of_lt (by omega)] at numbers
  omega

/-- The newcomer's id belongs to no row yet, so to no session and to no queue. -/
theorem Crew.untracked {count : Nat} {server : Server Int} (crew : Crew count server) (more : count < crewSize)
    (rooted : Rooted server) : ¬ Tracked server (Int64.ofNat (count + 1)).toUInt64 := by
  intro tracked
  obtain ⟨row, member, own⟩ := rooted _ tracked
  obtain ⟨index, earlier, id, -⟩ := crew.row row member
  rw [id, Int64.toInt64_toUInt64] at own
  exact absurd (crewId_apart (earlier.trans more) more own) (Nat.ne_of_lt earlier)

variable {count : Nat} {server : Server Int}

def crewMoment (count : Nat) : Moment := calmAt (Int64.ofNat (1000 * (count + 1)))

theorem Crew.newcomer (crew : Crew count server) (more : count < crewSize)
    (located : server.host.peerAddr (count + 1) = some (crewAddr count)) :
    Newcomer server (crewMoment count) (count + 1) (helloOf (crewToken count)) (tokenHash (crewToken count)) "sailor"
      (crewAddr count).ip (Int64.ofNat (count + 1)) := by
  have counting : ∀ count < crewSize, checkedAdd (Int64.ofNat count) 1 = some (Int64.ofNat (count + 1)) ∧
      ¬ Int64.ofNat (count + 1) < 0 ∧
      ¬ saturatingSub (Int64.ofNat (1000 * (count + 1))) (Int64.ofNat (1000 * count)) < 30 := by
    decide +kernel
  obtain ⟨next, nonnegative, later⟩ := counting count more
  have small : count < 96 ∧ count < 10000 ∧ count < maxPlayerRowsCeiling := by
    simp only [crewSize, maxPlayerRowsCeiling] at more ⊢
    omega
  have unlisted := crew.unlisted count more le_rfl
  have rested : identityRested server (crewMoment count) (tokenHash (crewToken count)) = true := by
    unfold identityRested GlobalRateLimiter.allow
    simp only [unlisted, crew.rested.1]
    cases held : server.newSessionLimiter.last with
    | none => rfl
    | some last =>
        rw [crew.rested.2 last held]
        simp only [crewMoment, calmAt, later, if_false]
        rfl
  refine ⟨allow_fresh (crew.unheard count more le_rfl) _, rfl, ⟨⟨⟨_, ?_, rfl⟩, ?_, _, located, rfl⟩, ?_, rested⟩, rfl,
    unlisted, ?_, ?_, ?_, ?_, nonnegative⟩
  · rw [crew.cfg]
    exact crewToken_valid more
  · exact crew.vacant count more le_rfl
  · refine (bounded_allow_fresh (crew.sources count more le_rfl) ?_ _).1
    rw [crew.charged.2]
    exact crew.charged.1.trans_lt small.1
  · rintro ⟨row, member, own⟩
    obtain ⟨index, earlier, -, hash⟩ := crew.row row member
    exact absurd (crewToken_apart (earlier.trans more) more (hash.symm.trans own)) (Nat.ne_of_lt earlier)
  · rw [crew.rows.1, crew.cfg]
    exact small.2.1
  · rw [crew.listed]
    exact small.2.2
  · rw [crew.rows.2]
    exact next

theorem Aboard.next {host : Host} (aboard : Aboard count host) (more : count < crewSize) (maintenanceCursor : Nat) :
    Aboard (count + 1) { boarded host.startPoll.host (crewAddr count) with maintenanceCursor } := by
  refine ⟨(aboard.untroubled.startPoll.boarded _).withCursor _, ?_, ?_⟩
  · simp [boarded, Host.startPoll, aboard.slots]
  · intro index inside later
    obtain ⟨unknown, alone⟩ := aboard.strangers index inside (by omega)
    have apart : (crewAddr index).ip ≠ (crewAddr count).ip := fun same =>
      absurd (crewAddr_apart inside more same) (by omega)
    have elsewhere : crewAddr index ≠ crewAddr count := fun same => apart (congrArg SocketAddr.ip same)
    simp only [boarded, Host.startPoll, FiniteMap.get?_insert, apart, elsewhere, if_false]
    exact ⟨unknown, alone⟩

theorem allow_rested {limiter : GlobalRateLimiter} {now : Int64} (armed : limiter.minIntervalMs = 30)
    (rested : (limiter.allow now).2 = true) : (limiter.allow now).1 = { limiter with last := some now } := by
  unfold GlobalRateLimiter.allow at rested ⊢
  rw [armed] at rested ⊢
  simp only [show ¬ (30 : Int64) ≤ 0 by decide, if_false] at rested ⊢
  split at rested <;> rename_i held
  · split at rested <;> rename_i early
    · cases rested
    · simp [early]
  · rfl

theorem Crew.next {after : Server Int} (crew : Crew count server) (more : count < crewSize)
    (rested : (server.newSessionLimiter.allow (crewMoment count).admissionMs).2 = true)
    (untracked : ¬ Tracked server (Int64.ofNat (count + 1)).toUInt64)
    (welcomed : Welcomed server (crewMoment count) (count + 1) (tokenHash (crewToken count)) "sailor"
      (crewAddr count).ip (Int64.ofNat (count + 1)) after) : Crew (count + 1) after := by
  have absent : (Int64.ofNat (count + 1)).toUInt64 ∉ unwritten server := fun waiting => untracked (Or.inl waiting)
  have charged := (bounded_allow_fresh (crew.sources count more le_rfl) (by
    rw [crew.charged.2]
    simp only [crewSize] at more
    have size := crew.charged.1
    omega) (crewMoment count).admissionMs).2
  rw [← welcomed.sourceSessionLimiter] at charged
  refine ⟨welcomed.cfg.trans crew.cfg, ?_, ?_, ?_, ?_, ?_, ?_, ?_, ?_, ?_, ?_⟩
  · intro index inside later
    have apart : index + 1 ≠ count + 1 := by omega
    exact welcomed.vacant (index + 1) apart (crew.vacant index inside (by omega))
  · intro index inside later
    rw [welcomed.helloLimiter, ← FiniteMap.not_mem_keys]
    intro member
    rcases Finset.mem_insert.mp (keys_allow _ _ _ member) with same | earlier
    · exact absurd (crewKey_apart inside more same) (by omega)
    · exact (FiniteMap.not_mem_keys _ _).mpr (crew.unheard index inside (by omega)) earlier
  · intro index inside later
    have unseen := crew.sources index inside (by omega)
    rcases charged with same | recorded
    · rw [same]
      exact unseen
    · rw [recorded]
      simp only [BoundedRateLimiter.record, FiniteMap.keys_insert, Finset.mem_insert, not_or]
      exact ⟨fun same => absurd (crewAddr_apart inside more same) (by omega), unseen⟩
  · have size := crew.charged
    rcases charged with same | recorded
    · rw [same]
      exact ⟨size.1.trans (Nat.le_succ _), size.2⟩
    · rw [recorded]
      exact ⟨(size_record_le _ _ _).trans (Nat.succ_le_succ size.1), size.2⟩
  · rw [welcomed.newSessionLimiter, allow_rested crew.rested.1 rested]
    exact ⟨crew.rested.1, fun last held => (Option.some.inj held).symm⟩
  · intro index inside later
    rw [welcomed.identityPlayers, FiniteMap.get?_insert, if_neg, crew.unlisted index inside (by omega)]
    exact fun same => absurd (crewToken_apart inside more same) (by omega)
  · rw [welcomed.identityPlayers, FiniteMap.size_insert_fresh _ _ _ (crew.unlisted count more le_rfl), crew.listed]
  · rw [welcomed.db]
    exact ⟨by simp [enlisted, crew.rows.1], rfl⟩
  · intro row member
    rw [welcomed.db] at member
    rcases List.mem_append.mp member with earlier | new
    · obtain ⟨index, below, facts⟩ := crew.row row earlier
      exact ⟨index, by omega, facts⟩
    · rw [List.mem_singleton.mp new]
      exact ⟨count, by omega, rfl, rfl⟩
  · have grown : unwritten after = insert (Int64.ofNat (count + 1)).toUInt64 (unwritten server) := by
      rw [unwritten, welcomed.dirtyPlayers, welcomed.flushPlayers, Finset.insert_union]
      rfl
    rw [grown, Finset.card_insert_of_notMem absent]
    exact Nat.succ_le_succ crew.waiting

/-- Stages in which clients connect and say hello. -/
def Boarding (stage : Stage Int) : Prop :=
  match stage.action with
  | .poll _ _ | .handle _ (.connected _) | .handle _ (.data _ _) => True
  | _ => False

/-- One more client boards. -/
theorem crew_next {trace : List (Stage Int)} (run : Run emptyDb trace server []) (crew : Crew count server)
    (aboard : Aboard count server.host) (more : count < crewSize) :
    ∃ stages after, Run emptyDb (trace ++ stages) after [] ∧ Crew (count + 1) after ∧
      Aboard (count + 1) after.host ∧ ∀ stage ∈ stages, Boarding stage := by
  obtain ⟨unknown, alone⟩ := aboard.strangers count more le_rfl
  have room : server.host.peerSlots.length < server.host.limits.maxPeers := by
    rw [aboard.slots, run.inv.hosted.limits, crew.cfg]
    exact more.trans (by decide)
  obtain ⟨state, maintenanceCursor, polled, host, events⟩ := @poll_boards _ _ [UInt8.ofNat count]
    run.inv.hosted.indexed aboard.untroubled unknown alone room (by simp [WireProtocol.mtu])
  rw [aboard.slots] at events
  have next := aboard.next more maintenanceCursor
  rw [← host] at next
  -- The poll reports the newcomer with its first datagram, and that datagram is its hello.
  have calling := Run.poll 0 _ run polled
  rw [events] at calling
  have connected : Run emptyDb _ { server with host := state.host }
      [.data (count + 1) [UInt8.ofNat count]] := Run.handle (crewMoment count) calling
  have crewed : Crew count { server with host := state.host } :=
    ⟨crew.cfg, crew.vacant, crew.unheard, crew.sources, crew.charged, crew.rested, crew.unlisted, crew.listed,
      crew.rows, crew.row, crew.waiting⟩
  have located : state.host.peerAddr (count + 1) = some (crewAddr count) := by
    have present : state.host.peers.get? (crewAddr count) = some (boardingPeer (crewAddr count) count) := by
      rw [host]
      simp [boarded, Host.startPoll, aboard.slots]
    exact connected.inv.hosted.indexed.peerAddr_of present
  have newcomer := crewed.newcomer more located
  have untracked := crewed.untracked more (run_flushInv connected).rooted
  have unowned : server.playerPeers.get? (Int64.ofNat (count + 1)).toUInt64 = none := by
    by_contra owned
    obtain ⟨peer, owner⟩ := Option.ne_none_iff_exists'.mp owned
    exact untracked (Or.inr ⟨peer, (run.inv.agree.owner_iff _ _).mp owner⟩)
  have welcomed := newcomer_welcomed connected.inv newcomer unowned
  have rested : (server.newSessionLimiter.allow (crewMoment count).admissionMs).2 = true := by
    have open_gate := newcomer.gated.rested
    simp only [identityRested, newcomer.unlisted] at open_gate
    exact open_gate
  have joined := crewed.next more rested untracked welcomed
  have decoded : (UInt8.ofNat count).toNat = count := by
    simp only [crewSize] at more
    rw [UInt8.toNat_ofNat']
    omega
  have same : (Server.handleEvent { server with host := state.host } (crewMoment count)
      (.data (count + 1) [UInt8.ofNat count])).1 =
      (Server.onHelloAt { server with host := state.host } (crewMoment count) (count + 1)
        (helloOf (crewToken count))).1 := by
    show (Server.onHelloAt _ _ _ (helloOf (crewToken (UInt8.ofNat count).toNat))).1 = _
    rw [decoded]
  rw [← same] at joined welcomed
  have handled := Run.handle (crewMoment count) connected
  rw [List.append_assoc, List.append_assoc] at handled
  refine ⟨_, _, handled, joined, welcomed.host ▸ next, ?_⟩
  intro stage member
  simp only [List.cons_append, List.nil_append, List.mem_cons, List.not_mem_nil, or_false] at member
  rcases member with rfl | rfl | rfl <;> exact trivial

/-- The whole crew boards. -/
theorem crew_boards (size : Nat) (fits : size ≤ crewSize) :
    ∃ trace server, Run emptyDb trace server [] ∧ Crew size server ∧ Aboard size server.host ∧
      ∀ stage ∈ trace, Boarding stage := by
  induction size with
  | zero =>
      refine ⟨[], crewServer, .start (rfl : Server.new crewConfig emptyDb 0 0 = .ok crewServer), ?_, ?_, by simp⟩
      · refine ⟨rfl, ?_, ?_, ?_, ⟨?_, rfl⟩, ⟨rfl, ?_⟩, ?_, ?_, ⟨rfl, rfl⟩, ?_, Nat.zero_le _⟩ <;>
          simp [crewServer, Server.opened, emptyDb]
      · exact ⟨⟨rfl, rfl, rfl, by simp [crewServer, Server.opened, Host.bound]⟩, rfl,
          by simp [crewServer, Server.opened, Host.bound]⟩
  | succ size ih =>
      obtain ⟨trace, server, run, crew, aboard, boarding⟩ := ih (by omega)
      obtain ⟨stages, after, longer, crewed, embarked, more⟩ := crew_next run crew aboard (by omega)
      refine ⟨trace ++ stages, after, longer, crewed, embarked, fun stage member => ?_⟩
      exact (List.mem_append.mp member).elim (boarding stage) (more stage)

theorem Boarding.undisturbed {stage : Stage Int} (boarding : Boarding stage) : Undisturbed stage := by
  obtain ⟨before, action, after⟩ := stage
  cases action with
  | poll now script => trivial
  | handle moment event => cases event <;> trivial
  | tick tick => cases boarding

/-- Eighty-one clients join; ten calls write eighty of them. -/
theorem crew_outgrows_interval :
    ∃ (early : List (Stage Int)) (begun : Stage Int) (middle : List (Stage Int)) (server : Server Int),
      Run emptyDb (early ++ begun :: middle) server [] ∧ server.cfg = crewConfig ∧ isBegin begun = true ∧
      (∀ stage ∈ early ++ middle, Undisturbed stage) ∧ (∀ stage ∈ middle, isBegin stage = false) ∧
      (middle.filter isFlush).length = flushIntervalSecs * server.cfg.tickHz.toNat ∧
      ¬ ∀ player ∈ begun.after.flushPlayers, PersistedWithin middle player := by
  obtain ⟨early, full, run, crew, -, boarding⟩ := crew_boards crewSize le_rfl
  obtain ⟨server, middle, longer, undisturbed, inside, calls, cfg⟩ := run_interval run
  refine ⟨early, beginStage full, middle, server, longer, cfg.trans crew.cfg, rfl, ?_, inside, calls, ?_⟩
  · intro stage member
    exact (List.mem_append.mp member).elim (fun held => (boarding stage held).undisturbed) (undisturbed stage)
  · rw [persistedWithin_all_iff longer rfl undisturbed inside calls, cfg, crew.cfg]
    have crowd : crewSize ≤ (unwritten full).card := crew.waiting
    have rows : intervalRows crewConfig.toConfig = 80 := by decide
    rw [rows]
    exact not_le.mpr crowd

end Overcrowded
end SailwindOnline.FlushCadence
