import SailwindOnline.Settings
import SailwindOnline.WorldTime

/-!
`Server::run` and `main`. A frame polls the host, handles every event of the
poll in order, does the fixed-tick work once and starts the broadcast and the
flush that are due. A handler's failure is logged, its panic unwinds the loop.
The loop is a run in the sense of `Traces`, so what holds of every run holds of
the program; a process that gets past its settings is one entry of the history
of the file that these name.
-/

namespace SailwindOnline.MainLoop
open Persistence Server Traces Effects TickEffects SessionRuns DatabaseFile Lifetimes HostPoll

def flushInterval : Duration := 5 * 10 ^ 9

/-- What one frame reads from outside; `moment n` is read by the n-th handler. -/
structure FrameInput where
  start : Instant
  script : List SocketTurn
  moment : Nat → Moment
  aoiFails : PeerId → Bool
  flushFails : UInt64 → Bool
  flushMs : Int64
  clockMs : Int64

structure LoopState (F : Type) [Platform F] where
  server : Server F
  tick : UInt64
  lastFlush : Instant

section Frames
variable {F : Type} [Platform F] [Codec F]

/-- A failed handler is logged and the next event is handled; a panic is not caught. -/
def handleEvents (moment : Nat → Moment) : Nat → List Event → Server F → Server F × Except Panic Unit
  | _, [], server => (server, .ok ())
  | n, event :: rest, server =>
    match server.handleEvent (moment n) event with
    | (server, .error (.panic panic)) => (server, .error panic)
    | (server, _) => handleEvents moment (n + 1) rest server

namespace LoopState

def clockDue (state : LoopState F) : Bool := state.tick.toNat % state.server.cfg.ticksPerClockBroadcast == 0

def flushDue (state : LoopState F) (start : Instant) : Bool := decide (flushInterval ≤ start - state.lastFlush)

/-- The rest of a frame once `server` has handled its events. -/
def work (state : LoopState F) (input : FrameInput) (server : Server F) : LoopState F :=
  let server := (server.processAoiWork input.aoiFails).broadcastSnapshots.processFanoutWork
  let server := (server.processDirtyFlushAt input.flushFails input.flushMs).1
  let server := if state.clockDue then server.broadcastClock input.clockMs else server
  if state.flushDue input.start then
    { server := server.beginDirtyFlush, tick := state.tick + 1, lastFlush := input.start }
  else { server, tick := state.tick + 1, lastFlush := state.lastFlush }

def frame (state : LoopState F) (input : FrameInput) : LoopState F × Except Panic Unit :=
  match state.server.host.pollWithWork input.start input.script with
  | .error panic => (state, .error panic)
  | .ok poll =>
    match handleEvents input.moment 0 (poll.events.map Prod.fst) { state.server with host := poll.host } with
    | (server, .error panic) => ({ state with server }, .error panic)
    | (server, .ok ()) => (state.work input server, .ok ())

/-- The loop as far as it gets: a panic ends it in the frame it happens in. -/
def loop (state : LoopState F) : List FrameInput → LoopState F × Except Panic Unit
  | [] => (state, .ok ())
  | input :: rest =>
    match state.frame input with
    | (state, .error panic) => (state, .error panic)
    | (next, .ok ()) => next.loop rest

end LoopState

/-! No handler panics. -/

/-- The handler may fail, but it does not panic. -/
def Calm (handled : Handled F) : Prop := ∀ panic, handled.2 ≠ .error (.panic panic)

variable {handled : Handled F} {server : Server F} {pending : List Event}

omit [Codec F] in
theorem calm_ok (server : Server F) : Calm (server, .ok ()) := by
  intro panic
  simp

omit [Codec F] in
theorem applyEcon_calm (server : Server F) (moment : Moment) (peer : PeerId) (player : UInt64) (txn : Ledger.Txn) :
    Calm (server.applyEcon moment peer player txn) := by
  intro panic
  unfold applyEcon
  split <;> simp

omit [Codec F] in
theorem onEcon_calm (server : Server F) (moment : Moment) (peer : PeerId) (txn : EconTxn) :
    Calm (server.onEcon moment peer txn) := by
  intro panic
  unfold onEcon
  split
  · simp
  simp only
  split
  · simp
  split
  · simp
  · exact applyEcon_calm _ moment peer _ _ panic
  · split
    · exact applyEcon_calm _ moment peer _ _ panic
    · simp

omit [Codec F] in
theorem applyTrade_calm (server : Server F) (moment : Moment) (peer : PeerId) (trade : Market.Trade) :
    Calm (server.applyTrade moment peer trade) := by
  intro panic
  unfold applyTrade
  split <;> simp

omit [Codec F] in
theorem onTrade_calm (server : Server F) (moment : Moment) (peer : PeerId) (request : MarketTradeRequest) :
    Calm (server.onTrade moment peer request) := by
  intro panic
  unfold onTrade
  split
  · simp
  simp only
  split
  · simp
  · exact applyTrade_calm _ moment peer _ panic
  · split
    · exact applyTrade_calm _ moment peer _ panic
    · unfold throttleTrade
      split <;> simp

theorem onMoor_calm (server : Server F) (moment : Moment) (peer : PeerId) (request : MoorRequest F) :
    Calm (server.onMoor moment peer request) := by
  intro panic
  unfold onMoor
  split
  · simp
  simp only
  split
  · simp
  split
  · simp
  split
  · simp
  · split <;> simp

omit [Codec F] in
theorem onDisconnect_calm (server : Server F) (moment : Moment) (peer : PeerId) :
    Calm (server.onDisconnect moment peer) := by
  intro panic
  unfold onDisconnect
  simp only
  split
  · simp
  · unfold persistDeparture
    simp only
    split <;> simp

omit [Codec F] in
/-- A hello may evict a peer, and the host never panics over a peer that it knows. -/
theorem hello_calm {moment : Moment} {peer : PeerId} {hello : ClientHello}
    (effect : HelloEffect server moment peer hello handled) : Calm handled := by
  intro panic
  cases effect with
  | silent charges storage =>
      intro panicked
      obtain ⟨cause, same⟩ := storage _ panicked
      cases same
  | faulted gated admitted fault =>
      cases fault <;> simp
  | _ => simp

theorem handleEvent_calm (inv : Inv pending server) (moment : Moment) (event : Event) :
    Calm (server.handleEvent moment event) := by
  cases event with
  | connected peer => exact calm_ok server
  | disconnected peer reason => exact onDisconnect_calm server moment peer
  | data peer bytes =>
      unfold handleEvent
      cases decoded : Codec.decode (F := F) bytes with
      | none =>
          intro panic
          simp [handleDataAt, decoded]
      | some message =>
          simp only [handleDataAt, decoded]
          cases message with
          | hello hello => exact hello_calm (onHelloAt_effect inv moment hello)
          | state state => exact calm_ok _
          | chat chat => exact calm_ok _
          | econ txn => exact onEcon_calm server moment peer txn
          | trade request => exact onTrade_calm server moment peer request
          | moor request => exact onMoor_calm server moment peer request

theorem handleEvents_cons {event : Event} {rest : List Event} (moment : Nat → Moment) (n : Nat)
    (calm : Calm (server.handleEvent (moment n) event)) :
    handleEvents moment n (event :: rest) server =
      handleEvents moment (n + 1) rest (server.handleEvent (moment n) event).1 := by
  rw [handleEvents]
  split <;> rename_i ended
  · exact absurd (congrArg Prod.snd ended) (calm _)
  · rw [ended]

/-! One frame as a piece of a run. -/

def handlings (moment : Nat → Moment) (n : Nat) (events : List Event) : List Action :=
  (events.zipIdx n).map fun entry => .handle (moment entry.2) entry.1

/-- What a frame does, in order. -/
def frameActions (state : LoopState F) (input : FrameInput) (events : List Event) : List Action :=
  [.poll input.start input.script] ++ handlings input.moment 0 events ++
    [.tick (.aoi input.aoiFails), .tick .snapshots, .tick .fanout, .tick (.dirtyFlush input.flushFails input.flushMs)] ++
    (if state.clockDue then [.tick (.clock input.clockMs)] else []) ++
    (if state.flushDue input.start then [.tick .beginFlush] else [])

variable {db : Db F} {trace : List (Stage F)}

/-- After `trace` the run goes on from `base` with `actions`, under the same settings. -/
def Performs (db : Db F) (trace : List (Stage F)) (base : Server F) (actions : List Action)
    (server : Server F) (pending : List Event) : Prop :=
  ∃ stages, Run db (trace ++ stages) server pending ∧ Begins base stages server ∧
    stages.map Stage.action = actions ∧ server.cfg = base.cfg

variable {base : Server F} {cfg : ValidConfig F} {actions : List Action}

theorem Performs.listed {listed : List Action} (performs : Performs db trace base actions server pending)
    (same : listed = actions) : Performs db trace base listed server pending := same ▸ performs

theorem Performs.tick (performs : Performs db trace base actions server pending) (tick : Tick) :
    Performs db trace base (actions ++ [.tick tick]) (tick.run server) pending := by
  obtain ⟨stages, run, begins, done, same⟩ := performs
  have longer := run.tick tick
  rw [List.append_assoc] at longer
  exact ⟨_, longer, begins_snoc.mpr begins, by simp [done], (keeps_tick server tick).cfg.trans same⟩

theorem Performs.handle {event : Event} (performs : Performs db trace base actions server (event :: pending))
    (moment : Moment) :
    Performs db trace base (actions ++ [.handle moment event]) (server.handleEvent moment event).1 pending := by
  obtain ⟨stages, run, begins, done, same⟩ := performs
  have longer := run.handle moment
  rw [List.append_assoc] at longer
  exact ⟨_, longer, begins_snoc.mpr begins, by simp [done], (outcome_cfg (handleEvent_outcome run.inv moment event)).trans same⟩

theorem Performs.calm {event : Event} (performs : Performs db trace base actions server (event :: pending))
    (moment : Moment) : Calm (server.handleEvent moment event) := by
  obtain ⟨stages, run, -⟩ := performs
  exact handleEvent_calm run.inv moment event

theorem Performs.handleEvents (moment : Nat → Moment) (n : Nat) (events : List Event)
    (performs : Performs db trace base actions server events) :
    ∃ after, handleEvents moment n events server = (after, .ok ()) ∧
      Performs db trace base (actions ++ handlings moment n events) after [] := by
  induction events generalizing server actions n with
  | nil => exact ⟨server, rfl, by simpa [handlings] using performs⟩
  | cons event rest ih =>
      obtain ⟨after, handled, later⟩ := ih (n + 1) (performs.handle (moment n))
      rw [List.append_assoc] at later
      exact ⟨after, (handleEvents_cons moment n (performs.calm (moment n))).trans handled, later⟩

/-- What a frame does after its poll. -/
theorem Performs.work {state : LoopState F} (performs : Performs db trace base actions server []) (input : FrameInput) :
    Performs db trace base (actions ++
      [.tick (.aoi input.aoiFails), .tick .snapshots, .tick .fanout, .tick (.dirtyFlush input.flushFails input.flushMs)] ++
      (if state.clockDue then [.tick (.clock input.clockMs)] else []) ++
      (if state.flushDue input.start then [.tick .beginFlush] else [])) (state.work input server).server [] := by
  have worked := (((performs.tick (.aoi input.aoiFails)).tick .snapshots).tick .fanout).tick
    (.dirtyFlush input.flushFails input.flushMs)
  unfold LoopState.work
  -- The clock and the flush come last, each only when it is due.
  cases clocked : state.clockDue with
  | true =>
      have broadcast := worked.tick (.clock input.clockMs)
      cases due : state.flushDue input.start with
      | true => exact (broadcast.tick .beginFlush).listed (by simp)
      | false => exact broadcast.listed (by simp)
  | false =>
      cases due : state.flushDue input.start with
      | true => exact (worked.tick .beginFlush).listed (by simp)
      | false => exact worked.listed (by simp)

theorem work_times (state : LoopState F) (input : FrameInput) (server : Server F) :
    (state.work input server).tick = state.tick + 1 ∧
      (state.work input server).lastFlush = if state.flushDue input.start then input.start else state.lastFlush := by
  unfold LoopState.work
  cases due : state.flushDue input.start <;> exact ⟨rfl, rfl⟩

/-- A frame never panics, leaves no event behind and adds its actions to the run. -/
theorem frame_run {state : LoopState F} (run : Run db trace state.server []) (input : FrameInput) :
    ∃ next events, state.frame input = (next, .ok ()) ∧
      Performs db trace state.server (frameActions state input events) next.server [] ∧
      next.tick = state.tick + 1 ∧
      next.lastFlush = if state.flushDue input.start then input.start else state.lastFlush := by
  obtain ⟨poll, polled, -⟩ := pollWithWork_advances run.inv.hosted.indexed input.start input.script
  have begun : Performs db trace state.server [.poll input.start input.script]
      { state.server with host := poll.host } (poll.events.map Prod.fst) :=
    ⟨[_], run.poll input.start input.script polled, rfl, rfl, rfl⟩
  obtain ⟨after, handled, done⟩ := begun.handleEvents input.moment 0
  obtain ⟨ticked, flushed⟩ := work_times state input after
  have framed : state.frame input = (state.work input after, .ok ()) := by
    unfold LoopState.frame
    simp only [polled, handled]
  exact ⟨_, poll.events.map Prod.fst, framed, done.work input, ticked, flushed⟩

/-! The whole loop. -/

/-- The start of the last frame that began a flush, or of the loop. -/
def lastFlushAfter (started : Instant) (inputs : List FrameInput) : Instant :=
  inputs.foldl (fun last input => if flushInterval ≤ input.start - last then input.start else last) started

def FlushesAt (started : Instant) (inputs : List FrameInput) (k : Nat) (input : FrameInput) : Prop :=
  inputs[k]? = some input ∧ flushInterval ≤ input.start - lastFlushAfter started (inputs.take k)

/-- The k-th frame of a loop. -/
def blockAt (cfg : ValidConfig F) (started : Instant) (inputs : List FrameInput) (k : Nat) (input : FrameInput)
    (events : List Event) : List Action :=
  [.poll input.start input.script] ++ handlings input.moment 0 events ++
    [.tick (.aoi input.aoiFails), .tick .snapshots, .tick .fanout, .tick (.dirtyFlush input.flushFails input.flushMs)] ++
    (if k % 2 ^ 64 % cfg.ticksPerClockBroadcast = 0 then [.tick (.clock input.clockMs)] else []) ++
    (if flushInterval ≤ input.start - lastFlushAfter started (inputs.take k) then [.tick .beginFlush] else [])

omit [Codec F] in
theorem lastFlushAfter_snoc (started : Instant) (inputs : List FrameInput) (input : FrameInput) :
    lastFlushAfter started (inputs ++ [input]) =
      if flushInterval ≤ input.start - lastFlushAfter started inputs then input.start
      else lastFlushAfter started inputs := by
  rw [lastFlushAfter, List.foldl_append, ← lastFlushAfter]
  rfl

theorem loop_append (state : LoopState F) (inputs more : List FrameInput) (done : (state.loop inputs).2 = .ok ()) :
    state.loop (inputs ++ more) = (state.loop inputs).1.loop more := by
  induction inputs generalizing state with
  | nil => rfl
  | cons first rest ih =>
      rcases framed : state.frame first with ⟨next, panic | ⟨⟩⟩
      · rw [LoopState.loop, framed] at done
        cases done
      · have step : ∀ later, state.loop (first :: later) = next.loop later := fun later => by
          rw [LoopState.loop, framed]
        rw [step] at done
        rw [List.cons_append, step, step]
        exact ih next done

/-- A loop is the run of its frames' blocks. -/
structure Loops (db : Db F) (base : Server F) (started : Instant) (inputs : List FrameInput)
    (outcome : LoopState F × Except Panic Unit) : Prop where
  returns : outcome.2 = .ok ()
  tick : outcome.1.tick = UInt64.ofNat inputs.length
  lastFlush : outcome.1.lastFlush = lastFlushAfter started inputs
  performs : ∃ blocks : List (List Action), blocks.length = inputs.length ∧
    Performs db [] base blocks.flatten outcome.1.server [] ∧
    ∀ k input, inputs[k]? = some input → ∃ events, blocks[k]? = some (blockAt base.cfg started inputs k input events)

theorem loop_loops {epochMs : Int64} {weatherSeed : UInt64} (started : Instant) (inputs : List FrameInput)
    (opened : Server.new cfg db epochMs weatherSeed = .ok server) :
    Loops db server started inputs ((⟨server, 0, started⟩ : LoopState F).loop inputs) := by
  induction inputs using List.reverseRecOn with
  | nil =>
      exact ⟨rfl, rfl, rfl, [], rfl, ⟨[], .start opened, rfl, rfl, rfl⟩, by simp⟩
  | append_singleton inputs input ih =>
      obtain ⟨returns, tick, lastFlush, blocks, length, ⟨stages, run, begins, done, same⟩, each⟩ := ih
      obtain ⟨next, events, framed, ⟨more, longer, onward, doneAlso, sameAlso⟩, ticked, flushed⟩ := frame_run run input
      have whole : (⟨server, 0, started⟩ : LoopState F).loop (inputs ++ [input]) = (next, .ok ()) := by
        rw [loop_append _ _ _ returns, LoopState.loop, framed]
        rfl
      rw [whole]
      have last : frameActions ((⟨server, 0, started⟩ : LoopState F).loop inputs).1 input events =
          blockAt server.cfg started (inputs ++ [input]) inputs.length input events := by
        unfold frameActions blockAt LoopState.clockDue LoopState.flushDue
        rw [same, tick, lastFlush, List.take_left]
        simp [UInt64.toNat_ofNat']
      refine ⟨rfl, ?_, ?_, blocks ++ [blockAt server.cfg started (inputs ++ [input]) inputs.length input events],
        by simp [length], ⟨stages ++ more, ?_, begins_append begins onward, ?_, sameAlso.trans same⟩, ?_⟩
      · rw [ticked, tick]
        simp
      · rw [flushed, lastFlushAfter_snoc, ← lastFlush]
        simp [LoopState.flushDue]
      · simpa using longer
      · rw [List.map_append, done, doneAlso, last, List.flatten_append, List.flatten_singleton]
      · intro k given held
        rcases Nat.lt_or_ge k inputs.length with earlier | here
        · rw [List.getElem?_append_left earlier] at held
          obtain ⟨events, block⟩ := each k given held
          refine ⟨events, ?_⟩
          rw [List.getElem?_append_left (length ▸ earlier), block]
          unfold blockAt
          rw [List.take_append_of_le_length earlier.le]
        · have bound := List.getElem?_eq_some_iff.mp held |>.1
          have own : k = inputs.length := by
            simp only [List.length_append, List.length_singleton] at bound
            omega
          subst own
          rw [List.getElem?_concat_length] at held
          cases held
          exact ⟨events, by rw [← length, List.getElem?_concat_length, length]⟩

omit [Platform F] [Codec F] in
/-- One frame of a cadence of `interval`: the last start only moves on, and the frame is within the next interval. -/
theorem cadence_step {interval : Nat} (positive : 0 < interval) (start last : Nat) :
    last ≤ (if interval ≤ start - last then start else last) ∧
      start < (if interval ≤ start - last then start else last) + interval := by
  split <;> omega

omit [Platform F] [Codec F] in
theorem cadence_apart {interval first last start : Nat} (positive : 0 < interval) (kept : first ≤ last)
    (due : interval ≤ start - last) : first + interval ≤ start := by
  omega

theorem flushInterval_pos : 0 < flushInterval := by decide

omit [Platform F] [Codec F] in
theorem lastFlushAfter_next (started : Instant) {inputs : List FrameInput} {k : Nat} {input : FrameInput}
    (held : inputs[k]? = some input) : lastFlushAfter started (inputs.take (k + 1)) =
      if flushInterval ≤ input.start - lastFlushAfter started (inputs.take k) then input.start
      else lastFlushAfter started (inputs.take k) := by
  rw [List.take_add_one, held, Option.toList_some, lastFlushAfter_snoc]

omit [Platform F] [Codec F] in
theorem lastFlushAfter_mono (started : Instant) (inputs : List FrameInput) {i j : Nat} (ordered : i ≤ j) :
    lastFlushAfter started (inputs.take i) ≤ lastFlushAfter started (inputs.take j) := by
  induction ordered with
  | refl => exact le_refl _
  | @step k _ ih =>
      refine ih.trans ?_
      cases held : inputs[k]? with
      | none =>
          have ended := List.getElem?_eq_none_iff.mp held
          rw [List.take_of_length_le ended, List.take_of_length_le (by omega)]
      | some input =>
          rw [lastFlushAfter_next started held]
          exact (cadence_step flushInterval_pos _ _).1

omit [Platform F] [Codec F] in
/-- Flushes begin at least an interval apart, and no frame is an interval later than the last of them. -/
theorem flushes_spaced (started : Instant) (inputs : List FrameInput) :
    (∀ i j first second, i < j → FlushesAt started inputs i first → FlushesAt started inputs j second →
      first.start + flushInterval ≤ second.start) ∧
    ∀ k input, inputs[k]? = some input →
      input.start < lastFlushAfter started (inputs.take (k + 1)) + flushInterval := by
  constructor
  · rintro i j first second before ⟨held, due⟩ ⟨-, dueAgain⟩
    have began := lastFlushAfter_next started held
    rw [if_pos due] at began
    have kept := lastFlushAfter_mono started inputs (Nat.succ_le_of_lt before)
    rw [Nat.succ_eq_add_one, began] at kept
    exact cadence_apart flushInterval_pos kept dueAgain
  · intro k input held
    rw [lastFlushAfter_next started held]
    exact (cadence_step flushInterval_pos _ _).2

/-- The loop never panics and is a run of the server: every frame polls, handles its events in order, works once, and
broadcasts the clock and begins a flush when they are due, the flushes an interval apart and no later than that. -/
theorem loop_cadence {epochMs : Int64} {weatherSeed : UInt64} (started : Instant) (inputs : List FrameInput)
    (opened : Server.new cfg db epochMs weatherSeed = .ok server) :
    Loops db server started inputs ((⟨server, 0, started⟩ : LoopState F).loop inputs) ∧
    (∀ i j first second, i < j → FlushesAt started inputs i first → FlushesAt started inputs j second →
      first.start + flushInterval ≤ second.start) ∧
    ∀ k input, inputs[k]? = some input →
      input.start < lastFlushAfter started (inputs.take (k + 1)) + flushInterval :=
  ⟨loop_loops started inputs opened, flushes_spaced started inputs⟩

/-- A frame without traffic. -/
def idleFrame (start : Instant) (script : List SocketTurn) : FrameInput :=
  { start, script
    moment := fun _ => calmAt 1000
    aoiFails := fun _ => false
    flushFails := fun _ => false
    flushMs := 1000
    clockMs := 1000 }

/-- Two frames: both clients connect and say hello in the first. -/
theorem loop_cadence_joining : ((⟨freshServer, 0, 0⟩ : LoopState Int).loop
    [idleFrame 0 joinScript, idleFrame (6 * 10 ^ 9) []]).2 = .ok () :=
  (loop_cadence 0 _ (rfl : Server.new (ValidConfig.default 1024 rfl rfl) emptyDb 0 0 = .ok freshServer)).1.returns

end Frames

/-! The flush of a shutdown. -/
section Shutdown
variable {F : Type} [Platform F]

end Shutdown

/-! A process from its first line to the end of `main`. -/

inductive ProcessError where
  | settings (failure : Settings.ResolveError)
  | boot (failure : BootError)
  | address
  | announcement
  | panic (panic : Panic)
  | shutdown (failure : ShutdownError)

/-- What one process reads from outside. `located` is the file that a database path opens, none for one that is kept
in memory; `addressed` and `announced` are the bound socket telling its address and the standard output taking the
line about it. -/
structure Launch (F Place : Type) [Platform F] where
  args : List String
  surroundings : Settings.Surroundings F
  located : String → Option Place
  moment : DbFile.BootMoment
  addressed : Bool
  announced : Bool
  started : Instant
  inputs : List FrameInput
  fails : Nat → UInt64 → Bool
  stopMs : Int64
  order : List SocketAddr

section Processes
variable {F Place : Type} [Platform F] [Codec F]

/-- `Server::new` and `run` on the file that the settings name, with the datagrams of the host's shutdown. -/
def serve (cfg : ValidConfig F) (launch : Launch F Place) (file : DbFile F) :
    DbFile F × Except ProcessError Unit × List (SocketAddr × WireProtocol.Bytes) :=
  match file.boot cfg launch.moment with
  | (file, .error failure) => (file, .error (.boot failure), [])
  | (file, .ok server) =>
    if !launch.addressed then (file, .error .address, [])
    else if !launch.announced then (file, .error .announcement, [])
    else
      match (⟨server, 0, launch.started⟩ : LoopState F).loop launch.inputs with
      | (state, .error panic) => (file.holding state.server.db, .error (.panic panic), [])
      | (state, .ok ()) =>
        let (server, flushed) := state.server.flushAll launch.fails launch.stopMs
        (file.holding server.db, flushed.mapError .shutdown, (server.host.shutdown launch.order).sent)

variable [DecidableEq Place]

/-- Only faults of the disk, the socket or the standard output stop a process that has its settings. -/
inductive Served (launch : Launch F Place) : Except ProcessError Unit → Prop
  | done : Served launch (.ok ())
  | unread {operation : Nat} (failing : launch.moment.fails operation = true) : Served launch (.error (.boot .disk))
  | unbound (taken : launch.moment.binds = false) : Served launch (.error (.boot .bind))
  | unaddressed (unknown : launch.addressed = false) : Served launch (.error .address)
  | unannounced (closed : launch.announced = false) : Served launch (.error .announcement)
  | unflushed {failure : ShutdownError} {attempt : Nat} {player : UInt64}
      (failing : launch.fails attempt player = true) : Served launch (.error (.shutdown failure))

inductive Ended (cellSizeM : F) (launch : Launch F Place) : Except ProcessError Unit → Prop
  | unresolved {failure : Settings.ResolveError}
      (refused : Settings.resolve cellSizeM launch.surroundings launch.args = .error failure) :
      Ended cellSizeM launch (.error (.settings failure))
  | served {settings : Settings.ServerSettings F} {outcome : Except ProcessError Unit}
      (resolved : Settings.resolve cellSizeM launch.surroundings launch.args = .ok settings)
      (served : Served launch outcome) : Ended cellSizeM launch outcome

variable {lives : List (Life F)} {file : DbFile F} {cellSizeM : F} {launch : Launch F Place}

omit [Codec F] [DecidableEq Place] in
theorem Ended.calm {outcome : Except ProcessError Unit} (ended : Ended cellSizeM launch outcome) (panic : Panic) :
    outcome ≠ .error (.panic panic) := by
  rintro rfl
  cases ended with
  | served resolved served => cases served

/-- What `main` leaves of the disk it finds. -/
structure Leaves (cellSizeM : F) (launch : Launch F Place) (disk after : Place → DbFile F) : Prop where
  grows : ∀ place, TableWrites.Extends (disk place).rows (after place).rows
  recorded : ∀ place, ∃ lives, History lives (after place)
  others : ∀ place, (∀ settings, Settings.resolve cellSizeM launch.surroundings launch.args = .ok settings →
    launch.located settings.dbPath ≠ some place) → after place = disk place

omit [DecidableEq Place] in
theorem Leaves.refl {disk : Place → DbFile F} (histories : ∀ place, ∃ lives, History lives (disk place)) :
    Leaves cellSizeM launch disk disk :=
  ⟨fun _ => .refl _, histories, fun _ _ => rfl⟩

/-- One file of the disk is written. -/
theorem Leaves.update {disk : Place → DbFile F} {place : Place} {settings : Settings.ServerSettings F}
    (histories : ∀ place, ∃ lives, History lives (disk place))
    (resolved : Settings.resolve cellSizeM launch.surroundings launch.args = .ok settings)
    (located : launch.located settings.dbPath = some place) (grown : TableWrites.Extends (disk place).rows file.rows)
    (history : History lives file) : Leaves cellSizeM launch disk (Function.update disk place file) := by
  constructor
  · intro other
    by_cases own : other = place
    · subst own
      rw [Function.update_self]
      exact grown
    · rw [Function.update_of_ne own]
      exact .refl _
  · intro other
    by_cases own : other = place
    · subst own
      rw [Function.update_self]
      exact ⟨lives, history⟩
    · rw [Function.update_of_ne own]
      exact histories other
  · intro other apart
    apply Function.update_of_ne
    rintro rfl
    exact apart settings resolved located

end Processes
end SailwindOnline.MainLoop
