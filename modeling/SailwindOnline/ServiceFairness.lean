import SailwindOnline.CyclicService
import SailwindOnline.Interest
import SailwindOnline.SnapshotSchedule
import SailwindOnline.TickEffects

/-!
Fair service over whole runs. Interest work and snapshots each keep a cursor that
only their own calls move, so the calls of any stretch of a run resume each other,
whatever joins, leaves and is scheduled in between.
-/

namespace SailwindOnline.ServiceFairness
open CyclicService Server SessionIndex SessionRuns Effects TickEffects Traces Interest SnapshotSchedule

section Cursors
variable {F : Type} [Platform F] {server after : Server F}

def schedule (server : Server F) : Option PeerId × Option PeerId × UInt32 :=
  (server.aoiRecipientCursor, server.snapshotRecipientCursor, server.snapshotTick)

theorem outcome_schedule {moment : Moment} {event : Event} (outcome : Outcome server moment event after) :
    schedule after = schedule server := by
  cases outcome with
  | calm frame posts kept => exact (congrArg schedule frame :)
  | moved | spoke | left => rfl
  | @joined peer bytes base middle numbered player identityHash name generation reply vacant frame posts
      superseded numbering =>
      have kept := entered_frame peer (withGeneration generation (firstSession server player identityHash name))
        reply superseded numbering
      exact (congrArg schedule kept :).trans (congrArg schedule frame :)

variable [Codec F]

theorem postBounded_cursor (server : Server F) (peer : PeerId) (payload : ServerMessage F) :
    (server.postBounded peer payload).1.aoiRecipientCursor = server.aoiRecipientCursor := by
  unfold postBounded
  split <;> rfl

theorem sendCellSnapshot_cursor (server : Server F) (peer : PeerId) (cell : World.Cell)
    (sessions : List (Session F)) (moorings : List (MooringSnap F)) :
    (server.sendCellSnapshot peer cell sessions moorings).aoiRecipientCursor = server.aoiRecipientCursor := by
  have posted := postBounded_cursor server peer
    (.cellSnapshot cell (playerSnaps sessions) (boatSnaps sessions) moorings)
  unfold sendCellSnapshot
  split <;> rename_i sending <;> rw [sending] at posted <;> exact posted

theorem processOneAoiWork_cursor (server : Server F) (peer : PeerId) (fails : Bool) :
    (server.processOneAoiWork peer fails).1.aoiRecipientCursor = server.aoiRecipientCursor := by
  have chunked : (server.nextAoiChunk peer).1.aoiRecipientCursor = server.aoiRecipientCursor := by
    unfold nextAoiChunk
    split
    · rfl
    · simp only
      split <;> rfl
  have prepared : ∀ settled : Server F,
      (settled.prepareCellHydration peer).1.aoiRecipientCursor = settled.aoiRecipientCursor := by
    intro settled
    unfold prepareCellHydration
    split <;> rfl
  unfold processOneAoiWork
  split <;> rename_i chunking <;> rw [chunking] at chunked
  · exact (postBounded_cursor _ _ _).trans chunked
  · rename_i settled
    have ready := prepared settled
    refine Eq.trans ?_ chunked
    split <;> rename_i preparing <;> rw [preparing] at ready
    · exact ready
    refine Eq.trans ?_ ready
    split
    · unfold hydratePlayers
      simp only
      split
      · rfl
      · exact sendCellSnapshot_cursor _ _ _ _ _
    split
    · rfl
    · unfold completeHydration
      show (if _ then _ else _ : Server F).aoiRecipientCursor = _
      split
      · rfl
      · exact postBounded_cursor _ _ _
    · unfold hydrateMooring
      simp only
      split
      · exact sendCellSnapshot_cursor _ _ _ _ _
      · rfl

theorem serveAoiRecipient_cursor (fails : PeerId → Bool) (server : Server F) (peer : PeerId) :
    (serveAoiRecipient fails server peer).aoiRecipientCursor = server.aoiRecipientCursor := by
  have worked := processOneAoiWork_cursor
    { server with aoiRecipients := server.aoiRecipients.erase peer } peer (fails peer)
  unfold serveAoiRecipient
  simp only
  split
  · rfl
  split
  · refine Eq.trans ?_ worked
    unfold scheduleAoi
    split <;> rfl
  · exact worked

theorem serveAoiRecipients_cursor (fails : PeerId → Bool) (peers : List PeerId) (server : Server F) :
    (peers.foldl (serveAoiRecipient fails) server).aoiRecipientCursor = server.aoiRecipientCursor := by
  induction peers generalizing server with
  | nil => rfl
  | cons peer rest ih => exact (ih _).trans (serveAoiRecipient_cursor fails server peer)

end Cursors

/-! Nobody else's visit takes a recipient off the schedule. -/
section Waiting
variable {F : Type} [Platform F] [Codec F] {server : Server F} {peer other : PeerId}

theorem serveAoiRecipient_waits (fails : PeerId → Bool) (apart : other ≠ peer) (member : other ∈ server.aoiRecipients) :
    other ∈ (serveAoiRecipient fails server peer).aoiRecipients := by
  let taken : Server F := { server with aoiRecipients := server.aoiRecipients.erase peer }
  have left : other ∈ taken.aoiRecipients := Finset.mem_erase.mpr ⟨apart, member⟩
  unfold serveAoiRecipient
  simp only
  cases found : server.sessions.get? peer with
  | none => exact left
  | some session =>
      have present : taken.sessions.get? peer = some session := found
      obtain ⟨-, kept, -⟩ := processOneAoiWork_work (fails peer) present
      rw [← kept] at left
      simp only [Option.isNone_some, Bool.false_eq_true, if_false]
      split
      · unfold scheduleAoi
        split
        · exact Finset.mem_insert_of_mem left
        · exact left
      · exact left

theorem serveAoiRecipients_wait (fails : PeerId → Bool) (peers : List PeerId) (apart : other ∉ peers)
    (member : other ∈ server.aoiRecipients) :
    other ∈ (peers.foldl (serveAoiRecipient fails) server).aoiRecipients := by
  induction peers generalizing server with
  | nil => exact member
  | cons peer rest ih =>
      rw [List.mem_cons, not_or] at apart
      exact ih apart.2 (serveAoiRecipient_waits fails apart.1 member)

end Waiting

/-! The two walks over recipients that the fixed tick keeps. -/
section Rotas
variable {F : Type} [Platform F] {server : Server F} {stage : Stage F}

inductive Rota where
  | aoi
  | snapshots

namespace Rota

def limit : Rota → Nat
  | aoi => aoiWorkItemsPerTick
  | snapshots => snapshotPacketsPerTick

def keys (server : Server F) : Rota → Finset PeerId
  | aoi => server.aoiRecipients
  | snapshots => server.snapshotRecipients

def cursor (server : Server F) : Rota → Option PeerId
  | aoi => server.aoiRecipientCursor
  | snapshots => server.snapshotRecipientCursor

def calls (stage : Stage F) (rota : Rota) : Bool :=
  match rota, stage.action with
  | aoi, .tick (.aoi _) => true
  | snapshots, .tick .snapshots => true
  | _, _ => false

/-- The peers that the next call serves. -/
def served (server : Server F) (rota : Rota) : List PeerId :=
  orderedPeersAfter (rota.keys server) (rota.cursor server) rota.limit

def call (server : Server F) (rota : Rota) : Call := ⟨rota.keys server, rota.cursor server⟩

theorem cursor_of_schedule {after : Server F} (same : schedule after = schedule server) (rota : Rota) :
    rota.cursor after = rota.cursor server := by
  cases rota with
  | aoi => exact congrArg Prod.fst same
  | snapshots => exact congrArg (fun schedule => schedule.2.1) same

theorem registered (agree : SessionsAgree noStray server) (rota : Rota) :
    rota.keys server ⊆ server.sessions.keys := by
  cases rota with
  | aoi => exact agree.scheduled
  | snapshots => exact agree.recipients.subset

theorem limit_positive (rota : Rota) : 0 < rota.limit := by cases rota <;> decide

end Rota

variable [Codec F] {db : Persistence.Db F} {pending : List Event} {trace earlier window : List (Stage F)}
  {rota : Rota} {peer : PeerId}

theorem tick_cursor (server : Server F) (tick : Tick) (rota : Rota) :
    rota.cursor (tick.run server) =
      if rota.calls ⟨server, .tick tick, tick.run server⟩ then (rota.call server).next rota.limit
      else rota.cursor server := by
  cases tick with
  | aoi fails =>
      cases rota with
      | aoi => exact serveAoiRecipients_cursor fails _ _
      | snapshots => exact (congrArg Server.snapshotRecipientCursor (processAoiWork_effect server fails).frame :)
  | snapshots =>
      cases rota with
      | aoi => exact (congrArg Server.aoiRecipientCursor (broadcastSnapshots_effect server).frame :)
      | snapshots => exact (visits_clock (callWindow server) (callStart server)).2
  | fanout =>
      have frame := (processFanoutWork_run server).frame
      cases rota with
      | aoi => exact (congrArg Server.aoiRecipientCursor frame :)
      | snapshots => exact (congrArg Server.snapshotRecipientCursor frame :)
  | dirtyFlush fails now =>
      have frame := (processDirtyFlushAt_effect server fails now).frame
      cases rota with
      | aoi => exact (congrArg Server.aoiRecipientCursor frame :)
      | snapshots => exact (congrArg Server.snapshotRecipientCursor frame :)
  | beginFlush => cases rota <;> rfl
  | clock clockMs =>
      have frame := broadcastClock_frame server clockMs
      cases rota with
      | aoi => exact (congrArg Server.aoiRecipientCursor frame :)
      | snapshots => exact (congrArg Server.snapshotRecipientCursor frame :)

/-- Only a walk's own calls move its cursor. -/
theorem stage_cursor (run : Run db (trace ++ [stage]) server pending) (rota : Rota) :
    rota.cursor stage.after =
      if rota.calls stage then (rota.call stage.before).next rota.limit else rota.cursor stage.before := by
  obtain ⟨start, action, after, rfl, move, -⟩ := run_move run
  cases move with
  | poll host => cases rota <;> rfl
  | handle outcome =>
      have kept := Rota.cursor_of_schedule (outcome_schedule outcome) rota
      cases rota <;> exact kept
  | tick tick => exact tick_cursor start tick rota

theorem tick_waits (tick : Tick) (member : peer ∈ server.aoiRecipients)
    (passed : Rota.aoi.calls ⟨server, .tick tick, tick.run server⟩ = true → peer ∉ Rota.aoi.served server) :
    peer ∈ (tick.run server).aoiRecipients := by
  cases tick with
  | aoi fails => exact serveAoiRecipients_wait fails _ (passed rfl) member
  | snapshots =>
      have same := (congrArg Server.aoiRecipients (broadcastSnapshots_effect server).frame :)
      exact same ▸ member
  | fanout =>
      have same := (congrArg Server.aoiRecipients (processFanoutWork_run server).frame :)
      exact same ▸ member
  | dirtyFlush fails now =>
      have same := (congrArg Server.aoiRecipients (processDirtyFlushAt_effect server fails now).frame :)
      exact same ▸ member
  | beginFlush => exact member
  | clock clockMs =>
      have same := (congrArg Server.aoiRecipients (broadcastClock_frame server clockMs) :)
      exact same ▸ member

/-- A recipient of interest work that is not served and keeps its session stays a recipient. -/
theorem stage_waits (run : Run db (trace ++ [stage]) server pending) (member : peer ∈ stage.before.aoiRecipients)
    (stays : (stage.after.sessions.get? peer).isSome = true)
    (passed : Rota.aoi.calls stage = true → peer ∉ Rota.aoi.served stage.before) :
    peer ∈ stage.after.aoiRecipients := by
  obtain ⟨start, action, after, rfl, move, -⟩ := run_move run
  cases move with
  | poll host => exact member
  | handle outcome => exact outcome_waits outcome member stays
  | tick tick => exact tick_waits tick member passed

theorem run_waits {first : Stage F} {rest : List (Stage F)} (run : Run db (earlier ++ first :: rest) server pending)
    (member : peer ∈ first.before.aoiRecipients)
    (stays : ∀ stage ∈ first :: rest, (stage.after.sessions.get? peer).isSome = true)
    (passed : ∀ stage ∈ first :: rest, Rota.aoi.calls stage = true → peer ∉ Rota.aoi.served stage.before) :
    peer ∈ server.aoiRecipients ∧ ∀ stage ∈ first :: rest, peer ∈ stage.before.aoiRecipients := by
  induction rest using List.reverseRecOn generalizing server pending with
  | nil =>
      have here : first ∈ [first] := List.mem_cons_self
      have kept := stage_waits run member (stays first here) (passed first here)
      obtain ⟨-, -, rfl⟩ := Run.unsnoc run
      exact ⟨kept, fun stage listed => List.mem_singleton.mp listed ▸ member⟩
  | append_singleton rest stage ih =>
      rw [← List.cons_append] at run stays passed ⊢
      rw [← List.append_assoc] at run
      obtain ⟨⟨waiting, before⟩, -, rfl⟩ := Run.unsnoc run
      obtain ⟨last, all⟩ := ih before (fun stage listed => stays stage (List.mem_append_left _ listed))
        (fun stage listed => passed stage (List.mem_append_left _ listed))
      have here : stage ∈ first :: rest ++ [stage] := List.mem_append_right _ List.mem_cons_self
      refine ⟨stage_waits run last (stays stage here) (passed stage here), fun other listed => ?_⟩
      rcases List.mem_append.mp listed with early | final
      · exact all other early
      · exact List.mem_singleton.mp final ▸ last

omit [Codec F] in
theorem call_keys (inv : Inv pending server) (rota : Rota) (peer : PeerId) (member : peer ∈ rota.keys server) :
    0 < peer ∧ peer ≤ server.cfg.maxTransportPeersUsize :=
  inv.hosted.issued peer (Rota.registered inv.agree rota member)

/-- The cursor is a peer number the transport has issued, though its peer may have left. -/
theorem stage_within (run : Run db (trace ++ [stage]) server pending)
    (known : ∀ mark ∈ rota.cursor stage.before, mark ≤ stage.before.cfg.maxTransportPeersUsize) :
    ∀ mark ∈ rota.cursor server, mark ≤ server.cfg.maxTransportPeersUsize := by
  have moved := stage_cursor run rota
  obtain ⟨⟨waiting, before⟩, lawful, rfl⟩ := run.unsnoc
  rw [lawful_cfg before.inv lawful, moved]
  have within : (rota.call stage.before).Within stage.before.cfg.maxTransportPeersUsize :=
    ⟨call_keys before.inv rota, known⟩
  split
  · exact within.next
  · exact known

theorem run_within (run : Run db trace server pending) (rota : Rota) :
    (rota.call server).Within server.cfg.maxTransportPeersUsize := by
  refine ⟨call_keys run.inv rota, ?_⟩
  induction run with
  | start opened =>
      obtain ⟨identityPlayers, -, rfl⟩ := new_opened opened
      cases rota <;> rintro _ ⟨⟩
  | poll now script run polled ih => exact stage_within (.poll now script run polled) ih
  | handle moment run ih => exact stage_within (.handle moment run) ih
  | tick tick run ih => exact stage_within (.tick tick run) ih

def callsOf (rota : Rota) (window : List (Stage F)) : List Call :=
  (window.filter rota.calls).map fun stage => rota.call stage.before

/-- The calls of a stretch of the run resume each other, and the cursor is where the last one left it. -/
theorem run_resumes (run : Run db (earlier ++ window) server pending) (rota : Rota) :
    (callsOf rota window).IsChain (Resumes rota.limit) ∧
      ∀ last ∈ (callsOf rota window).getLast?, rota.cursor server = last.next rota.limit := by
  induction window using List.reverseRecOn generalizing server pending with
  | nil => exact ⟨List.isChain_nil, by rintro _ ⟨⟩⟩
  | append_singleton window stage ih =>
      rw [← List.append_assoc] at run
      obtain ⟨⟨waiting, before⟩, -, rfl⟩ := Run.unsnoc run
      obtain ⟨chain, left⟩ := ih before
      have moved := stage_cursor run rota
      by_cases calling : rota.calls stage = true
      · have grown : callsOf rota (window ++ [stage]) = callsOf rota window ++ [rota.call stage.before] := by
          simp [callsOf, calling]
        rw [if_pos calling] at moved
        rw [grown]
        refine ⟨chain.append (List.isChain_singleton _) ?_, ?_⟩
        · rintro last ended _ ⟨⟩
          exact left last ended
        · intro last ended
          rw [List.getLast?_concat] at ended
          cases ended
          exact moved
      · have same : callsOf rota (window ++ [stage]) = callsOf rota window := by simp [callsOf, calling]
        rw [if_neg calling] at moved
        rw [same, moved]
        exact ⟨chain, left⟩

/-- A peer that waits through enough calls for a round of all peer numbers is served in one of them. -/
theorem run_served (run : Run db (earlier ++ window) server pending)
    (enough : (server.cfg.maxTransportPeersUsize + (rota.limit - 1)) / rota.limit ≤ (window.filter rota.calls).length)
    (waiting : ∀ stage ∈ window, rota.calls stage = true → peer ∈ rota.keys stage.before) :
    ∃ stage ∈ window, rota.calls stage = true ∧ peer ∈ rota.served stage.before := by
  have positive := rota.limit_positive
  have peers : 0 < server.cfg.maxTransportPeersUsize := Nat.lt_of_lt_of_le Nat.zero_lt_one (Nat.le_max_left _ _)
  obtain ⟨chain, -⟩ := run_resumes run rota
  have listed : ∀ call ∈ callsOf rota window, ∃ stage ∈ window, rota.calls stage = true ∧
      rota.call stage.before = call := by
    intro call member
    obtain ⟨stage, calling, same⟩ := List.mem_map.mp member
    obtain ⟨present, calls⟩ := List.mem_filter.mp calling
    exact ⟨stage, present, calls, same⟩
  have within : ∀ call ∈ callsOf rota window, call.Within server.cfg.maxTransportPeersUsize := by
    intro call member
    obtain ⟨stage, present, -, rfl⟩ := listed call member
    obtain ⟨early, late, rfl⟩ := List.append_of_mem present
    rw [← List.append_assoc] at run
    obtain ⟨⟨waiting, before⟩, lawful, cfg⟩ := run_upto run
    exact cfg ▸ run_within before rota
  have long : server.cfg.maxTransportPeersUsize ≤ rota.limit * (callsOf rota window).length := by
    rw [callsOf, List.length_map]
    have scaled := Nat.mul_le_mul_left rota.limit enough
    have rounded := Nat.lt_mul_div_succ (server.cfg.maxTransportPeersUsize + (rota.limit - 1)) positive
    rw [Nat.mul_add, Nat.mul_one] at rounded
    omega
  have some : callsOf rota window ≠ [] := by
    intro none
    rw [none, List.length_nil, Nat.mul_zero] at long
    omega
  -- The cursor may stand at a peer that has left, so the round is one of all peer numbers, not of the peers.
  obtain ⟨call, member, served⟩ := served_within chain positive within
    (fun call member => by
      obtain ⟨stage, present, calls, rfl⟩ := listed call member
      exact waiting stage present calls) long some
  obtain ⟨stage, present, calls, rfl⟩ := listed call member
  exact ⟨stage, present, calls, served⟩

/-- Interest work serves every peer that waits, from the first call on or at each call, and snapshots consider
every recipient, within a round of all peer numbers; no call serves a peer twice. -/
theorem service_fair (run : Run db (earlier ++ window) server pending) (peer : PeerId) :
    ((server.cfg.maxTransportPeersUsize + 7) / 8 ≤ (window.filter Rota.aoi.calls).length →
      (∀ first ∈ window.head?, peer ∈ first.before.aoiRecipients) ∧
          (∀ stage ∈ window, (stage.after.sessions.get? peer).isSome = true) ∨
        (∀ stage ∈ window, Rota.aoi.calls stage = true → peer ∈ stage.before.aoiRecipients) →
      ∃ stage ∈ window, Rota.aoi.calls stage = true ∧ (stage.before.sessions.get? peer).isSome = true ∧
        peer ∈ orderedPeersAfter stage.before.aoiRecipients stage.before.aoiRecipientCursor
          aoiWorkItemsPerTick) ∧
    ((server.cfg.maxTransportPeersUsize + 31) / 32 ≤ (window.filter Rota.snapshots.calls).length →
      (∀ stage ∈ window, Rota.snapshots.calls stage = true → peer ∈ stage.before.snapshotRecipients) →
      ∃ stage ∈ window, Rota.snapshots.calls stage = true ∧
        peer ∈ orderedPeersAfter stage.before.snapshotRecipients stage.before.snapshotRecipientCursor
          snapshotPacketsPerTick) ∧
    ∀ stage ∈ window,
      (orderedPeersAfter stage.before.aoiRecipients stage.before.aoiRecipientCursor aoiWorkItemsPerTick).Nodup ∧
      (orderedPeersAfter stage.before.snapshotRecipients stage.before.snapshotRecipientCursor
        snapshotPacketsPerTick).Nodup := by
  refine ⟨?_, ?_, ?_⟩
  · intro enough waits
    have round : (server.cfg.maxTransportPeersUsize + (Rota.aoi.limit - 1)) / Rota.aoi.limit ≤
        (window.filter Rota.aoi.calls).length := enough
    obtain ⟨stage, present, calls, served⟩ : ∃ stage ∈ window, Rota.aoi.calls stage = true ∧
        peer ∈ Rota.aoi.served stage.before := by
      by_contra never
      push Not at never
      have waiting : ∀ stage ∈ window, Rota.aoi.calls stage = true → peer ∈ stage.before.aoiRecipients := by
        rcases waits with ⟨head, stays⟩ | listed
        · -- Until it is served, a peer that waited at the start waits at every call.
          cases window with
          | nil => exact fun stage listed => nomatch listed
          | cons first rest =>
              obtain ⟨-, all⟩ := run_waits run (head first rfl) stays never
              exact fun stage listed _ => all stage listed
        · exact listed
      obtain ⟨stage, present, calls, served⟩ := run_served run round waiting
      exact never stage present calls served
    obtain ⟨early, late, rfl⟩ := List.append_of_mem present
    rw [← List.append_assoc] at run
    obtain ⟨⟨unhandled, before⟩, -, -⟩ := run_upto run
    have turn : peer ∈ (Rota.aoi.call stage.before).served Rota.aoi.limit := served
    have held := Rota.registered before.inv.agree .aoi (mem_served turn)
    exact ⟨stage, present, calls, (FiniteMap.mem_keys _ _).mp held, served⟩
  · intro enough waiting
    have round : (server.cfg.maxTransportPeersUsize + (Rota.snapshots.limit - 1)) / Rota.snapshots.limit ≤
        (window.filter Rota.snapshots.calls).length := enough
    exact run_served run round waiting
  · intro stage _
    exact ⟨served_nodup _ (Rota.aoi.call stage.before), served_nodup _ (Rota.snapshots.call stage.before)⟩

end Rotas

/-! Ten clients wait for interest work, which has room for eight of them in a call. -/
section Fleet

local instance : Codec Int := fleetCodec

def fleetServed : Server Int := fleetJoined.processAoiWork fun _ => false

def firstCall : Stage Int := ⟨fleetJoined, .tick (.aoi fun _ => false), fleetServed⟩

def snapshotCall : Stage Int := ⟨fleetServed, .tick .snapshots, fleetServed.broadcastSnapshots⟩

def secondCall : Stage Int :=
  ⟨fleetServed.broadcastSnapshots, .tick (.aoi fun _ => false),
    fleetServed.broadcastSnapshots.processAoiWork fun _ => false⟩

def fleetWindow : List (Stage Int) := [firstCall, snapshotCall, secondCall]

theorem fleetWindow_cases {stage : Stage Int} (member : stage ∈ fleetWindow) :
    stage = firstCall ∨ stage = snapshotCall ∨ stage = secondCall := by
  simpa only [fleetWindow, List.mem_cons, List.not_mem_nil, or_false] using member

/-- The second call serves the client that the first one left over, and a call of the snapshots considers it. -/
theorem service_fair_fleet :
    10 ∉ orderedPeersAfter fleetJoined.aoiRecipients fleetJoined.aoiRecipientCursor 8 ∧
    10 ∈ orderedPeersAfter fleetServed.broadcastSnapshots.aoiRecipients fleetServed.broadcastSnapshots.aoiRecipientCursor 8 ∧
    10 ∈ orderedPeersAfter fleetServed.snapshotRecipients fleetServed.snapshotRecipientCursor 32 := by
  obtain ⟨trace, joined⟩ := fleet_run
  have run : Run emptyDb (trace ++ fleetWindow)
      (fleetServed.broadcastSnapshots.processAoiWork fun _ => false) [] := by
    have called := ((joined.tick (.aoi fun _ => false)).tick .snapshots).tick (.aoi fun _ => false)
    rw [List.append_assoc, List.append_assoc] at called
    exact called
  have left : 10 ∉ orderedPeersAfter fleetJoined.aoiRecipients fleetJoined.aoiRecipientCursor 8 := by decide +kernel
  have waits : ∀ first ∈ fleetWindow.head?, 10 ∈ first.before.aoiRecipients := by decide +kernel
  have stays : ∀ stage ∈ fleetWindow, (stage.after.sessions.get? 10).isSome = true := by decide +kernel
  have listed : ∀ stage ∈ fleetWindow, Rota.snapshots.calls stage = true → 10 ∈ stage.before.snapshotRecipients := by
    decide +kernel
  obtain ⟨interest, snapshots, -⟩ := service_fair run 10
  refine ⟨left, ?_, ?_⟩
  · obtain ⟨stage, member, calls, -, served⟩ := interest (by decide +kernel) (.inl ⟨waits, stays⟩)
    rcases fleetWindow_cases member with rfl | rfl | rfl
    · exact absurd served left
    · cases calls
    · exact served
  · obtain ⟨stage, member, calls, served⟩ := snapshots (by decide +kernel) listed
    rcases fleetWindow_cases member with rfl | rfl | rfl
    · cases calls
    · exact served
    · cases calls

end Fleet
end SailwindOnline.ServiceFairness
