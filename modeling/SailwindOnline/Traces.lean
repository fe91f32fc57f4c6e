import SailwindOnline.SessionRuns

/-!
Runs of the server kept with their history. A stage is one poll, one handled
event or one piece of tick work, with the server before and after it; what a
run has shown so far is folded from its stages, so every history named by a
result is read off the run and never stored in the server.
-/

namespace SailwindOnline.Traces
open Server SessionRuns

section Histories
variable {F : Type} [Platform F]

inductive Action where
  | poll (now : Instant) (script : List SocketTurn)
  | handle (moment : Moment) (event : Event)
  | tick (tick : Tick)

structure Stage (F : Type) [Platform F] where
  before : Server F
  action : Action
  after : Server F

/-- What the stages of a trace add up to, oldest first. -/
def observe {Seen : Type} (note : Seen → Stage F → Seen) (start : Seen) (trace : List (Stage F)) : Seen :=
  trace.foldl note start

@[simp] theorem observe_nil {Seen : Type} (note : Seen → Stage F → Seen) (start : Seen) :
    observe note start [] = start := rfl

@[simp] theorem observe_snoc {Seen : Type} (note : Seen → Stage F → Seen) (start : Seen)
    (trace : List (Stage F)) (stage : Stage F) :
    observe note start (trace ++ [stage]) = note (observe note start trace) stage := by
  simp [observe]

/-- The datagrams one stage handed to the transport. -/
def Stage.posted (stage : Stage F) : List (PeerId × Envelope F) :=
  stage.after.sent.drop stage.before.sent.length

theorem Stage.posted_eq {stage : Stage F} {posts : List (PeerId × Envelope F)}
    (grown : stage.after.sent = stage.before.sent ++ posts) : stage.posted = posts := by
  simp [posted, grown]

variable [Codec F]

/-- `Reachable`, with the stages that led there. -/
inductive Run (db : Persistence.Db F) : List (Stage F) → Server F → List Event → Prop
  | start {cfg : ValidConfig F} {epochMs : Int64} {weatherSeed : UInt64} {server : Server F}
      (opened : Server.new cfg db epochMs weatherSeed = .ok server) : Run db [] server []
  | poll {trace : List (Stage F)} {server : Server F} {state : PollState} (now : Instant)
      (script : List SocketTurn) (run : Run db trace server [])
      (polled : server.host.pollWithWork now script = .ok state) :
      Run db (trace ++ [⟨server, .poll now script, { server with host := state.host }⟩])
        { server with host := state.host } (state.events.map Prod.fst)
  | handle {trace : List (Stage F)} {server : Server F} {event : Event} {pending : List Event}
      (moment : Moment) (run : Run db trace server (event :: pending)) :
      Run db (trace ++ [⟨server, .handle moment event, (server.handleEvent moment event).1⟩])
        (server.handleEvent moment event).1 pending
  | tick {trace : List (Stage F)} {server : Server F} {pending : List Event} (tick : Tick)
      (run : Run db trace server pending) :
      Run db (trace ++ [⟨server, .tick tick, tick.run server⟩]) (tick.run server) pending

variable {db : Persistence.Db F} {trace : List (Stage F)} {server : Server F} {pending : List Event}

theorem Run.reachable (run : Run db trace server pending) : Reachable db server pending := by
  induction run with
  | start opened => exact .start opened
  | poll now script _ polled ih => exact .poll now script ih polled
  | handle moment _ ih => exact .handle moment ih
  | tick tick _ ih => exact .tick tick ih

theorem exists_run (reached : Reachable db server pending) : ∃ trace, Run db trace server pending := by
  induction reached with
  | start opened => exact ⟨[], .start opened⟩
  | poll now script _ polled ih =>
      obtain ⟨trace, run⟩ := ih
      exact ⟨_, .poll now script run polled⟩
  | handle moment _ ih =>
      obtain ⟨trace, run⟩ := ih
      exact ⟨_, .handle moment run⟩
  | tick tick _ ih =>
      obtain ⟨trace, run⟩ := ih
      exact ⟨_, .tick tick run⟩

theorem Run.inv (run : Run db trace server pending) : Inv pending server := run.reachable.inv

/-- A stage the server can take by itself. -/
def Stage.Lawful (stage : Stage F) : Prop :=
  match stage.action with
  | .poll now script => ∃ state, stage.before.host.pollWithWork now script = .ok state ∧
      stage.after = { stage.before with host := state.host }
  | .handle moment event => stage.after = (stage.before.handleEvent moment event).1
  | .tick tick => stage.after = tick.run stage.before

/-- The last stage of a run, and the run before it with the events that waited then. -/
theorem Run.unsnoc_pending {stage : Stage F} (run : Run db (trace ++ [stage]) server pending) :
    ∃ earlier, Run db trace stage.before earlier ∧ stage.Lawful ∧ server = stage.after ∧
      (∀ now script, stage.action = .poll now script → earlier = []) ∧
      ∀ moment event, stage.action = .handle moment event → earlier = event :: pending := by
  generalize whole : trace ++ [stage] = long at run
  cases run with
  | start opened => simp at whole
  | poll now script run polled =>
      obtain ⟨rfl, last⟩ := List.append_inj' whole rfl
      cases last
      exact ⟨_, run, ⟨_, polled, rfl⟩, rfl, fun _ _ _ => rfl, by rintro _ _ ⟨⟩⟩
  | handle moment run =>
      obtain ⟨rfl, last⟩ := List.append_inj' whole rfl
      cases last
      exact ⟨_, run, rfl, rfl, by rintro _ _ ⟨⟩, by rintro _ _ ⟨⟩; rfl⟩
  | tick tick run =>
      obtain ⟨rfl, last⟩ := List.append_inj' whole rfl
      cases last
      exact ⟨_, run, rfl, rfl, by rintro _ _ ⟨⟩, by rintro _ _ ⟨⟩⟩

theorem Run.unsnoc {stage : Stage F} (run : Run db (trace ++ [stage]) server pending) :
    (∃ earlier, Run db trace stage.before earlier) ∧ stage.Lawful ∧ server = stage.after := by
  obtain ⟨earlier, before, lawful, same, -, -⟩ := run.unsnoc_pending
  exact ⟨⟨earlier, before⟩, lawful, same⟩

/-- A run, up to one of its stages. -/
theorem Run.upto {early later : List (Stage F)} {stage : Stage F}
    (run : Run db (early ++ stage :: later) server pending) : ∃ rest, Run db (early ++ [stage]) stage.after rest := by
  induction later using List.reverseRecOn generalizing server pending with
  | nil =>
      obtain ⟨-, -, rfl⟩ := Run.unsnoc run
      exact ⟨pending, run⟩
  | append_singleton later last ih =>
      rw [← List.cons_append, ← List.append_assoc] at run
      obtain ⟨⟨waiting, shorter⟩, -⟩ := run.unsnoc
      exact ih shorter

end Histories

/-! Runs on a script of datagrams. -/

def polledBy (server : Server Int) (script : List SocketTurn) : Server Int :=
  match server.host.pollWithWork 0 script with
  | .error _ => server
  | .ok state => { server with host := state.host }

theorem polledBy_run [Codec Int] {db : Persistence.Db Int} {trace : List (Stage Int)} {server : Server Int}
    (run : Run db trace server []) (script : List SocketTurn) {events : List Event}
    (seen : (server.host.pollWithWork 0 script).toOption.map (fun after => after.events.map Prod.fst) =
      some events) :
    Run db (trace ++ [⟨server, .poll 0 script, polledBy server script⟩]) (polledBy server script) events := by
  obtain ⟨state, polled, -⟩ := HostPoll.pollWithWork_advances run.inv.hosted.indexed 0 script
  have waiting := Run.poll 0 script run polled
  have connected : polledBy server script = { server with host := state.host } := by
    unfold polledBy
    rw [polled]
  rw [polled] at seen
  rw [show state.events.map Prod.fst = events from Option.some.inj seen, ← connected] at waiting
  exact waiting

def scriptedServer (script : List SocketTurn) : Server Int :=
  match freshServer.host.pollWithWork 0 script with
  | .error _ => freshServer
  | .ok state => { freshServer with host := state.host }

theorem scripted_run [Codec Int] (script : List SocketTurn) {events : List Event}
    (seen : (freshServer.host.pollWithWork 0 script).toOption.map (fun after => after.events.map Prod.fst) =
      some events) :
    Run emptyDb [⟨freshServer, .poll 0 script, scriptedServer script⟩] (scriptedServer script) events := by
  have opened : Server.new (ValidConfig.default 1024 rfl rfl) emptyDb 0 0 = .ok freshServer := rfl
  have begun : Run emptyDb [] freshServer [] := .start opened
  have polled : polledBy freshServer script = scriptedServer script := rfl
  have waiting := polledBy_run begun script seen
  rw [polled] at waiting
  exact waiting

/-- The stages that handle the events one second apart. -/
def handling [Codec Int] (server : Server Int) (now : Int64) : List Event → List (Stage Int)
  | [] => []
  | event :: rest =>
      let after := (server.handleEvent (calmAt now) event).1
      ⟨server, .handle (calmAt now) event, after⟩ :: handling after (now + 1000) rest

def handleAll [Codec Int] (server : Server Int) (now : Int64) : List Event → Server Int
  | [] => server
  | event :: rest => handleAll (server.handleEvent (calmAt now) event).1 (now + 1000) rest

theorem handleAll_run [Codec Int] {db : Persistence.Db Int} (events : List Event) {trace : List (Stage Int)}
    {server : Server Int} {pending : List Event} (now : Int64) (run : Run db trace server (events ++ pending)) :
    Run db (trace ++ handling server now events) (handleAll server now events) pending := by
  induction events generalizing trace server now with
  | nil => simpa [handling, handleAll] using run
  | cons event rest ih =>
      rw [List.cons_append] at run
      have handled := Run.handle (calmAt now) run
      rw [handleAll, handling, ← List.singleton_append, ← List.append_assoc]
      exact ih _ handled

/-! The two clients of `joinedServer`, stage by stage. -/

def boardedServer : Server Int :=
  match freshServer.host.pollWithWork 0 joinScript with
  | .error _ => freshServer
  | .ok state => { freshServer with host := state.host }

def greetedServer : Server Int := (boardedServer.handleEvent (calmAt 1000) (.data 1 [1])).1

def joinStages : List (Stage Int) :=
  [⟨freshServer, .poll 0 joinScript, boardedServer⟩,
    ⟨boardedServer, .handle (calmAt 0) (.connected 1), boardedServer⟩,
    ⟨boardedServer, .handle (calmAt 0) (.connected 2), boardedServer⟩,
    ⟨boardedServer, .handle (calmAt 1000) (.data 1 [1]), greetedServer⟩,
    ⟨greetedServer, .handle (calmAt 2000) (.data 2 [2]), joinedServer⟩]

theorem joinStages_run : Run emptyDb joinStages joinedServer [] := by
  have seen : (freshServer.host.pollWithWork 0 joinScript).toOption.map
      (fun after => after.events.map Prod.fst) = some joinEvents := by decide +kernel
  have waiting : Run emptyDb _ boardedServer joinEvents := scripted_run joinScript seen
  have joined : joinedServer = (greetedServer.handleEvent (calmAt 2000) (.data 2 [2])).1 := by
    unfold joinedServer greetedServer boardedServer
    cases polled : freshServer.host.pollWithWork 0 joinScript with
    | error failure =>
        rw [polled] at seen
        cases seen
    | ok state => rfl
  have ready : Run emptyDb _ boardedServer [.data 1 [1], .data 2 [2]] :=
    .handle (calmAt 0) (.handle (calmAt 0) waiting)
  have greeted : Run emptyDb _ greetedServer [.data 2 [2]] := .handle (calmAt 1000) ready
  have last := Run.handle (calmAt 2000) greeted
  rw [← joined] at last
  exact last

/-! Ten clients who join in one cell, on a server with room for them alone. -/
section Fleet

@[reducible] def fleetCodec : Codec Int where
  encode envelope := List.replicate (encodedBytes envelope.payload) 0
  decode
    | [200] => some (.chat ⟨some "ahoy", 0⟩)
    | [201] => some (.state ⟨some (1024, 0, 1024), some (0, 0, 0, 1), none, 0, 0⟩)
    | [client] => some (.hello (helloOf (String.singleton (Char.ofNat (96 + client.toNat)))))
    | _ => none

local instance : Codec Int := fleetCodec

def fleetConfig : ValidConfig Int :=
  { Config.default 1024 with maxTransportPeers := 10, maxTransportPeersPerIp := 1, valid := rfl }

def fleetOpened : Server Int := Server.opened fleetConfig emptyDb FiniteMap.empty 0 0

def fleetClients : List Nat := (List.range 10).map (· + 1)

def fleetScript : List SocketTurn :=
  let request := WireProtocol.buildConnectRequest 0 7 0 16 (WireProtocol.writeLitenetString "sailwind-online")
  (fleetClients.map fun client => datagramFrom (UInt32.ofNat client) request) ++
    fleetClients.map fun client => datagramFrom (UInt32.ofNat client) [0, UInt8.ofNat client]

def fleetEvents : List Event :=
  fleetClients.map Event.connected ++ fleetClients.map fun client => .data client [UInt8.ofNat client]

def fleetBoarded : Server Int := polledBy fleetOpened fleetScript

def fleetJoined : Server Int := handleAll fleetBoarded 1000 fleetEvents

theorem fleet_run : ∃ trace, Run emptyDb trace fleetJoined [] := by
  have opened : Server.new fleetConfig emptyDb 0 0 = .ok fleetOpened := rfl
  have waiting : Run emptyDb _ fleetBoarded (fleetEvents ++ []) :=
    polledBy_run (.start opened) fleetScript (by decide +kernel)
  exact ⟨_, handleAll_run fleetEvents 1000 waiting⟩

end Fleet

end SailwindOnline.Traces
