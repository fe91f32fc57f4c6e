import SailwindOnline.ClientSession

/-!
The retries of the client. Every attempt to connect that fails puts off the
next one by a delay that doubles up to a cap, until a hello is accepted or the
plugin connects anew. What fails, and when, is read off the calls and events
alone; the deadline the client keeps has to follow.
-/

namespace SailwindOnline.RetryBackoff
open Net ClientSession
open WireProtocol (Bytes)

/-- The delay after an attempt that fails as number `k + 1`. -/
def retryDelayMs (k : Nat) : Int := min (1000 * 2 ^ k) 8000

theorem retryDelayMs_succ (k : Nat) : retryDelayMs (k + 1) = min (retryDelayMs k * 2) maxReconnectMs := by
  unfold retryDelayMs maxReconnectMs
  have doubled : (2 : Int) ^ (k + 1) = 2 ^ k * 2 := Int.pow_succ 2 k
  omega

section Attempts
variable {F N : Type} [Library N]

/-- When no peer is created: the transport is not running or the library hands out none. -/
def peerFailure (manager : N) (options : ConnectOptions) : Option Int :=
  if !Library.isRunning manager then some (Library.nowMs manager)
  else
    match Library.connect manager options.host options.port Net.connectKey with
    | (none, manager) => some (Library.nowMs manager)
    | (some _, _) => none

/-- When the transport does not start or no peer is created. -/
def openFailure (transport : LiteNetLibTransport N) (options : ConnectOptions) : Option Int :=
  if transport.isRunning then peerFailure transport.manager options
  else
    match Library.start transport.manager with
    | (false, manager) => some (Library.nowMs manager)
    | (true, manager) => peerFailure manager options

def refuses (hello : Net.ServerHello F) : Bool :=
  !hello.accepted || match hello.capabilities with
    | none => true
    | some capabilities => capabilities.protocolVersion != Net.protocolVersion

/-- A repeated call while the same options are connecting is no call to connect. -/
def begins (client : NetClient F N) : Entry F → Bool
  | .connect options => !(client.status == .connecting && client.options.map (·.object) == some options.object)
  | _ => false

/-- A call to connect, or timers serviced once the deadline is due. -/
def reattempts (client : NetClient F N) (entry : Entry F) : Bool :=
  begins client entry || match entry with
    | .serviceTimers => decide (client.nextReconnectMs ≤ client.nowMs)
    | _ => false

section Events
variable [EnvelopeCodec F]

/-- When the hello cannot be sent. -/
def helloFailure (client : NetClient F N) : Option Int :=
  match client.options with
  | none => none
  | some options =>
    if (client.nextSeq.sendRaw (.hello (NetClient.helloOf options))).1 then none else some client.nowMs

/-- The hello the handshake is answered with. -/
def answer (client : NetClient F N) : Entry F → Option (Net.ServerHello F)
  | .raise (.networkReceive peer data) =>
    if client.transport.peer.value = peer ∧ client.status = .handshaking then
      match EnvelopeCodec.tryDispatch data with
      | some (.serverHello hello) => some hello
      | _ => none
    else none
  | _ => none

/-- When the attempt under way, or the one the step makes, fails in the step. -/
def failure (client : NetClient F N) (entry : Entry F) : Option Int :=
  match entry with
  | .connect options =>
    if begins client entry then
      openFailure (if client.status = .disconnected then client.transport else client.transport.dropPeer) options
    else none
  | .raise (.peerConnected peer) =>
    if client.transport.peer.value = peer ∧ client.status = .connecting then
      helloFailure { client with status := .handshaking }
    else none
  | .raise (.peerDisconnected (some peer)) =>
    if client.transport.peer.value = some peer then some client.nowMs else none
  | .raise (.networkReceive _ _) => if (answer client entry).any refuses then some client.nowMs else none
  | .serviceTimers =>
    if client.status = .handshaking ∧ helloRetryMs ≤ client.nowMs - client.lastHelloMs then helloFailure client
    else if client.status = .disconnected ∧ client.nextReconnectMs ≤ client.nowMs then
      client.options.bind (openFailure client.transport)
    else none
  | _ => none

/-- The count starts over with a call to connect and with an accepted hello. -/
def restarts (client : NetClient F N) (entry : Entry F) : Bool :=
  begins client entry || (answer client entry).any fun hello => !refuses hello

/-- The failed attempts before the step's own, since the count last started over. -/
def failuresBefore (count : Nat) (step : Step F N) : Nat := if restarts step.before step.entry then 0 else count

def failures (steps : List (Step F N)) : Nat :=
  steps.foldl (fun count step =>
    failuresBefore count step + if (failure step.before step.entry).isSome then 1 else 0) 0

/-- A disconnect event that names no peer, where no peer is current. -/
def stray (step : Step F N) : Bool :=
  match step.entry with
  | .raise (.peerDisconnected none) => step.before.transport.peer.value.isNone
  | _ => false

/-- A failed attempt sets the deadline by the number of failures before it. Until the deadline is due or the
plugin connects anew nothing moves it and nothing more fails; timers serviced from then on try again. -/
def BackoffKept (steps : List (Step F N)) : Prop :=
  ∀ earlier step waited later atMs, steps = earlier ++ step :: (waited ++ later) →
    failure step.before step.entry = some atMs →
    (∀ waiting ∈ waited, reattempts waiting.before waiting.entry = false) →
    (∀ waiting ∈ step :: waited, waiting.after.status = .disconnected ∧
      waiting.after.nextReconnectMs = atMs + retryDelayMs (failuresBefore (failures earlier) step)) ∧
    (∀ waiting ∈ waited, failure waiting.before waiting.entry = none) ∧
    ∀ next ∈ later.head?, next.entry = .serviceTimers → next.before.nextReconnectMs ≤ next.before.nowMs →
      (failure next.before next.entry).isSome ∨ next.after.status = .connecting

/-! What one piece of the client's work does to the retry. -/

/-- A failure leaves the client disconnected and schedules once; anything else schedules nothing. -/
structure Outcome (failure : Option Int) (before after : NetClient F N) : Prop where
  failed : ∀ atMs, failure = some atMs → after.status = .disconnected ∧
    after.nextReconnectMs = atMs + before.reconnectBackoffMs ∧
    after.reconnectBackoffMs = min (before.reconnectBackoffMs * 2) maxReconnectMs
  quiet : failure = none → after.nextReconnectMs = before.nextReconnectMs ∧
    after.reconnectBackoffMs = before.reconnectBackoffMs
  options : after.options = before.options

omit [Library N] [EnvelopeCodec F] in
theorem Outcome.of_same {before after : NetClient F N} (deadline : after.nextReconnectMs = before.nextReconnectMs)
    (backoff : after.reconnectBackoffMs = before.reconnectBackoffMs) (options : after.options = before.options) :
    Outcome none before after where
  failed := by rintro _ ⟨⟩
  quiet := fun _ => ⟨deadline, backoff⟩
  options := options

omit [EnvelopeCodec F] in
theorem scheduleReconnect_outcome {client : NetClient F N} {nowMs : Int}
    (disconnected : client.status = .disconnected) (now : client.nowMs = nowMs) :
    Outcome (some nowMs) client client.scheduleReconnect where
  failed := by
    intro atMs same
    cases same
    subst now
    exact ⟨disconnected, rfl, rfl⟩
  quiet := by rintro ⟨⟩
  options := rfl

omit [Library N] [EnvelopeCodec F] in
theorem Outcome.of_timers {failure : Option Int} {before started after : NetClient F N}
    (outcome : Outcome failure started after) (deadline : started.nextReconnectMs = before.nextReconnectMs)
    (backoff : started.reconnectBackoffMs = before.reconnectBackoffMs) (options : started.options = before.options) :
    Outcome failure before after where
  failed := by
    rw [← backoff]
    exact outcome.failed
  quiet := by
    rw [← deadline, ← backoff]
    exact outcome.quiet
  options := outcome.options.trans options

omit [EnvelopeCodec F] in
theorem endHandshakeAttempt_outcome (client : NetClient F N) :
    Outcome (some client.nowMs) client client.endHandshakeAttempt where
  failed := by
    intro atMs now
    cases now
    exact ⟨rfl, rfl, rfl⟩
  quiet := by rintro ⟨⟩
  options := rfl

theorem sendHello_outcome (client : NetClient F N) :
    Outcome (helloFailure client) client client.sendHello.2 ∧
      (helloFailure client = none → client.sendHello.2.status = client.status) := by
  unfold helloFailure NetClient.sendHello
  cases client.options with
  | none => exact ⟨.of_same rfl rfl rfl, fun _ => rfl⟩
  | some options =>
      rcases sendRaw_cases client.nextSeq (.hello (NetClient.helloOf options)) with
        failed | ⟨bytes, transport, -, sent⟩
      · simp only [failed, Bool.false_eq_true, if_false]
        exact ⟨(endHandshakeAttempt_outcome client.nextSeq).of_timers rfl rfl rfl, by rintro ⟨⟩⟩
      · simp only [sent, if_true]
        exact ⟨.of_same rfl rfl rfl, fun _ => rfl⟩

end Events

theorem openPeer_outcome {client : NetClient F N} {options : ConnectOptions}
    (chosen : client.options = some options) (empty : client.transport.peer.value = none) :
    Outcome (peerFailure client.transport.manager options) client client.openPeer ∧
      (peerFailure client.transport.manager options = none → client.openPeer.status = .connecting) := by
  unfold peerFailure NetClient.openPeer
  simp only [chosen, LiteNetLibTransport.isRunning]
  cases Library.isRunning client.transport.manager with
  | false => exact ⟨.of_timers (scheduleReconnect_outcome rfl rfl) rfl rfl chosen.symm, by rintro ⟨⟩⟩
  | true =>
      simp only [Bool.not_true, Bool.false_eq_true, if_false, LiteNetLibTransport.connect,
        CurrentPeerSlot.setIfPresent]
      rcases Library.connect client.transport.manager options.host options.port Net.connectKey with ⟨peer, manager⟩
      cases peer with
      | none =>
          simp only [empty, Option.isSome_none, Bool.false_eq_true, if_false]
          exact ⟨.of_timers (scheduleReconnect_outcome rfl rfl) rfl rfl chosen.symm, by rintro ⟨⟩⟩
      | some peer => exact ⟨.of_same rfl rfl chosen.symm, fun _ => rfl⟩

theorem startTransportAndOpenPeer_outcome {client : NetClient F N} {options : ConnectOptions}
    (chosen : client.options = some options) (empty : client.transport.peer.value = none) :
    Outcome (openFailure client.transport options) client client.startTransportAndOpenPeer ∧
      (openFailure client.transport options = none → client.startTransportAndOpenPeer.status = .connecting) := by
  unfold openFailure NetClient.startTransportAndOpenPeer
  cases client.transport.isRunning with
  | true => exact openPeer_outcome chosen empty
  | false =>
      simp only [Bool.false_eq_true, if_false, LiteNetLibTransport.start]
      rcases Library.start client.transport.manager with ⟨started, manager⟩
      cases started with
      | false => exact ⟨.of_timers (scheduleReconnect_outcome rfl rfl) rfl rfl rfl, by rintro ⟨⟩⟩
      | true =>
          let running : NetClient F N := client.meets manager
          have brought := openPeer_outcome (show running.options = some options from chosen) empty
          exact ⟨brought.1.of_timers rfl rfl rfl, brought.2⟩

/-! What each entry does to the retry. -/
section Entries
variable [Platform F] [EnvelopeCodec F]

/-- The delay a step starts from. -/
def delayOf (client : NetClient F N) (entry : Entry F) : Int :=
  if restarts client entry then defaultReconnectMs else client.reconnectBackoffMs

structure Answered (client : NetClient F N) (entry : Entry F) : Prop where
  failed : ∀ atMs, failure client entry = some atMs → (enter client entry).status = .disconnected ∧
    (enter client entry).nextReconnectMs = atMs + delayOf client entry ∧
    (enter client entry).reconnectBackoffMs = min (delayOf client entry * 2) maxReconnectMs
  quiet : failure client entry = none → (enter client entry).reconnectBackoffMs = delayOf client entry ∧
    (begins client entry = false → (enter client entry).nextReconnectMs = client.nextReconnectMs)
  waits : client.status = .disconnected →
    reattempts client entry = false ∨ begins client entry = false ∧ client.options = none →
    failure client entry = none ∧ (enter client entry).status = .disconnected
  tries : client.status = .disconnected → client.options.isSome → entry = .serviceTimers →
    client.nextReconnectMs ≤ client.nowMs →
    (failure client entry).isSome ∨ (enter client entry).status = .connecting
  options : (begins client entry = false ∧ (enter client entry).options = client.options) ∨
    (enter client entry).options.isSome

theorem Answered.of_outcome {client : NetClient F N} {entry : Entry F} (other : reattempts client entry = false)
    (untimed : entry ≠ .serviceTimers)
    (outcome : Outcome (failure client entry) { client with reconnectBackoffMs := delayOf client entry }
      (enter client entry))
    (waits : client.status = .disconnected →
      failure client entry = none ∧ (enter client entry).status = .disconnected) : Answered client entry where
  failed := outcome.failed
  quiet := fun none => ⟨(outcome.quiet none).2, fun _ => (outcome.quiet none).1⟩
  waits := fun disconnected _ => waits disconnected
  tries := fun _ _ timed => absurd timed untimed
  options := .inl ⟨(Bool.or_eq_false_iff.mp other).1, outcome.options⟩

theorem Answered.of_same {client : NetClient F N} {entry : Entry F} (other : reattempts client entry = false)
    (untimed : entry ≠ .serviceTimers) (none : failure client entry = none) (steady : restarts client entry = false)
    (deadline : (enter client entry).nextReconnectMs = client.nextReconnectMs)
    (backoff : (enter client entry).reconnectBackoffMs = client.reconnectBackoffMs)
    (options : (enter client entry).options = client.options)
    (waits : client.status = .disconnected → (enter client entry).status = .disconnected) :
    Answered client entry := by
  have delay : delayOf client entry = client.reconnectBackoffMs := by simp [delayOf, steady]
  refine .of_outcome other untimed ?_ fun disconnected => ⟨none, waits disconnected⟩
  rw [none, delay]
  exact .of_same deadline backoff options

theorem connect_answered {client : NetClient F N} (coherent : Coherent client) (options : ConnectOptions) :
    Answered client (.connect options) := by
  by_cases under : client.status = .connecting ∧ client.options.map (·.object) = some options.object
  · have ignored : begins client (.connect options) = false := by simp [begins, under]
    have same : enter client (.connect options) = client := if_pos under
    exact .of_same (by simp [reattempts, ignored]) (by rintro ⟨⟩) (by simp [failure, ignored])
      (by simp [restarts, ignored, answer]) (by rw [same]) (by rw [same]) (by rw [same])
      fun disconnected => by rw [same]; exact disconnected
  · have begun : begins client (.connect options) = true := by
      simp only [begins, Bool.not_eq_true', Bool.eq_false_iff, ne_eq, Bool.and_eq_true, beq_iff_eq]
      exact under
    have delay : delayOf client (.connect options) = defaultReconnectMs := by simp [delayOf, restarts, begun]
    obtain ⟨-, disconnected, empty⟩ := abandoned_idle coherent
    have entered : enter client (.connect options) = NetClient.startTransportAndOpenPeer (NetClient.resetSession
        { (if client.status = .disconnected then client
            else { client with status := .disconnected, transport := client.transport.dropPeer }) with
          options := some options, reconnectBackoffMs := defaultReconnectMs }) := if_neg under
    have transports : (if client.status = .disconnected then client
        else { client with status := .disconnected, transport := client.transport.dropPeer }).transport =
        if client.status = .disconnected then client.transport else client.transport.dropPeer := by
      by_cases ended : client.status = .disconnected <;> simp [ended]
    have fails : failure client (.connect options) = openFailure
        (if client.status = .disconnected then client.transport else client.transport.dropPeer) options := by
      simp [failure, begun]
    rw [← transports] at fails
    generalize (if client.status = .disconnected then client
      else { client with status := .disconnected, transport := client.transport.dropPeer }) = dropped
      at empty entered fails
    let fresh : NetClient F N := NetClient.resetSession
      { dropped with options := some options, reconnectBackoffMs := defaultReconnectMs }
    obtain ⟨outcome, opened⟩ := startTransportAndOpenPeer_outcome (show fresh.options = some options from rfl) empty
    replace outcome : Outcome (failure client (.connect options)) fresh (enter client (.connect options)) := by
      rw [fails, entered]
      exact outcome
    exact {
      failed := by rw [delay]; exact outcome.failed
      quiet := fun none => ⟨by rw [delay]; exact (outcome.quiet none).2, by simp [begun]⟩
      waits := by simp [reattempts, begun]
      tries := by rintro _ _ ⟨⟩
      options := .inr (by rw [outcome.options]; rfl) }

omit [Platform F] [EnvelopeCodec F] in
theorem onServerHello_refused {client : NetClient F N} {hello : Net.ServerHello F}
    (handshaking : client.status = .handshaking) (refused : refuses hello = true) :
    client.onServerHello hello = client.endHandshakeAttempt := by
  rw [NetClient.onServerHello, if_neg (not_not.mpr handshaking)]
  obtain ⟨accepted, playerId, capabilities, clock⟩ := hello
  cases accepted with
  | false => rfl
  | true =>
      cases capabilities with
      | none => rfl
      | some capabilities =>
          have foreign : capabilities.protocolVersion ≠ Net.protocolVersion := by simpa [refuses] using refused
          simp [foreign]

omit [Platform F] [EnvelopeCodec F] in
theorem onServerHello_accepted {client : NetClient F N} {hello : Net.ServerHello F}
    (handshaking : client.status = .handshaking) (taken : refuses hello = false) :
    Outcome none { client with reconnectBackoffMs := defaultReconnectMs } (client.onServerHello hello) := by
  rw [NetClient.onServerHello, if_neg (not_not.mpr handshaking)]
  obtain ⟨accepted, playerId, _ | capabilities, clock⟩ := hello
  · simp [refuses] at taken
  · obtain ⟨rfl, protocol⟩ : accepted = true ∧ capabilities.protocolVersion = Net.protocolVersion := by
      simpa [refuses] using taken
    simp only [protocol]
    cases clock with
    | none => exact .of_same rfl rfl rfl
    | some clock => exact .of_same rfl rfl rfl

/-- Only an answer to the handshake reaches the retry. -/
theorem onNetworkReceive_answered (client : NetClient F N) (peer : Option NetPeer) (data : Bytes) :
    Answered client (.raise (.networkReceive peer data)) := by
  by_cases current : client.transport.peer.value = peer
  -- A callback of a peer that is no longer current is dropped before it is decoded.
  swap
  · have same : enter client (.raise (.networkReceive peer data)) = client := by
      simp [enter, NetClient.raise, CurrentPeerSlot.isCurrent, current]
    have unanswered : answer client (.raise (.networkReceive peer data)) = none := by simp [answer, current]
    exact .of_same rfl (by rintro ⟨⟩) (by simp [failure, unanswered]) (by simp [restarts, begins, unanswered])
      (by rw [same]) (by rw [same]) (by rw [same]) fun disconnected => by rw [same]; exact disconnected
  have entered : enter client (.raise (.networkReceive peer data)) = client.onNetworkReceive data := by
    simp [enter, NetClient.raise, CurrentPeerSlot.isCurrent, current]
  have only (unanswered : answer client (.raise (.networkReceive peer data)) = none)
      (world : ∃ cache day timeOfDay, client.onNetworkReceive data =
        { client with cache, serverDay := day, serverTimeOfDay := timeOfDay }) :
      Answered client (.raise (.networkReceive peer data)) := by
    obtain ⟨cache, day, timeOfDay, same⟩ := world
    exact .of_same rfl (by rintro ⟨⟩) (by simp [failure, unanswered]) (by simp [restarts, begins, unanswered])
      (by rw [entered, same]) (by rw [entered, same]) (by rw [entered, same])
      fun disconnected => by rw [entered, same]; exact disconnected
  -- Only a hello can answer the attempt: every other packet feeds the cache or the clock at most.
  rcases dispatched : EnvelopeCodec.tryDispatch (F := F) data with
    _ | hello | ⟨serverTick, players, boats⟩ | _ | ⟨players, boats⟩ | clock | _
  all_goals simp only [answer, dispatched, NetClient.onNetworkReceive] at only entered
  · exact only (ite_self _) ⟨_, _, _, rfl⟩
  · by_cases handshaking : client.status = .handshaking
    · have answered : answer client (.raise (.networkReceive peer data)) = some hello := by
        simp [answer, current, handshaking, dispatched]
      have ready (disconnected : client.status = .disconnected) : False := by
        rw [handshaking] at disconnected
        cases disconnected
      refine .of_outcome rfl (by rintro ⟨⟩) ?_ fun disconnected => (ready disconnected).elim
      rw [entered]
      cases verdict : refuses hello with
      | true =>
          simp only [failure, delayOf, restarts, begins, answered, Option.any_some, verdict, if_true]
          rw [onServerHello_refused handshaking verdict]
          exact endHandshakeAttempt_outcome client
      | false =>
          simp only [failure, delayOf, restarts, begins, answered, Option.any_some, verdict]
          exact onServerHello_accepted handshaking verdict
    · have ignored : client.onServerHello hello = client := if_pos handshaking
      rw [ignored] at only
      exact only (by simp [handshaking]) ⟨_, _, _, rfl⟩
  · obtain ⟨cache, same⟩ := ingest_cache
      { client with cache := client.cache.observeServerTick serverTick } players boats
    simp only [NetClient.onSnapshotDelta, same] at only
    exact only (ite_self _) ⟨_, _, _, rfl⟩
  · exact only (ite_self _) ⟨_, _, _, rfl⟩
  · obtain ⟨cache, same⟩ := ingest_cache client players boats
    simp only [same] at only
    exact only (ite_self _) ⟨_, _, _, rfl⟩
  · exact only (ite_self _) ⟨_, _, _, rfl⟩
  · exact only (ite_self _) ⟨_, _, _, rfl⟩

theorem onPeerConnected_answered {client : NetClient F N} (peer : Option NetPeer) :
    Answered client (.raise (.peerConnected peer)) := by
  by_cases awaited : client.transport.peer.value = peer ∧ client.status = .connecting
  · obtain ⟨current, connecting⟩ := awaited
    have entered : enter client (.raise (.peerConnected peer)) =
        ({ client with status := .handshaking } : NetClient F N).sendHello.2 := by
      simp [enter, NetClient.raise, NetClient.onPeerConnected, CurrentPeerSlot.isCurrent, current, connecting]
    refine .of_outcome rfl (by rintro ⟨⟩) ?_ fun disconnected => by rw [connecting] at disconnected; cases disconnected
    rw [entered]
    simp only [failure, delayOf, restarts, begins, answer, current, connecting]
    exact (sendHello_outcome { client with status := .handshaking }).1.of_timers rfl rfl rfl
  · have same : enter client (.raise (.peerConnected peer)) = client := by
      by_cases current : client.transport.peer.value = peer
      · have elsewhere : client.status ≠ .connecting := fun connecting => awaited ⟨current, connecting⟩
        simp [enter, NetClient.raise, NetClient.onPeerConnected, CurrentPeerSlot.isCurrent, current, elsewhere]
      · simp [enter, NetClient.raise, CurrentPeerSlot.isCurrent, current]
    exact .of_same rfl (by rintro ⟨⟩) (if_neg awaited) rfl (by rw [same]) (by rw [same]) (by rw [same])
      fun disconnected => by rw [same]; exact disconnected

/-- A disconnect event that names a peer ends the attempt of that peer alone. -/
theorem onPeerDisconnected_answered {client : NetClient F N} (coherent : Coherent client) (peer : Option NetPeer)
    (regular : peer = none → client.transport.peer.value ≠ none) :
    Answered client (.raise (.peerDisconnected peer)) := by
  by_cases current : client.transport.peer.value = peer
  · have entered : enter client (.raise (.peerDisconnected peer)) =
        NetClient.onPeerDisconnected { client with transport := { client.transport with peer := ⟨none⟩ } } := by
      simp [enter, NetClient.raise, CurrentPeerSlot.tryClear, CurrentPeerSlot.isCurrent, current]
    cases peer with
    | none => exact absurd current (regular rfl)
    | some peer =>
        refine .of_outcome rfl (by rintro ⟨⟩) ?_ fun disconnected => ?_
        · rw [entered]
          simp only [failure, delayOf, restarts, begins, answer, current]
          exact .of_timers (scheduleReconnect_outcome rfl rfl) rfl rfl rfl
        · rw [coherent.ended.mp disconnected] at current
          cases current
  · have same : enter client (.raise (.peerDisconnected peer)) = client := by
      simp [enter, NetClient.raise, CurrentPeerSlot.tryClear, CurrentPeerSlot.isCurrent, current]
    have unfailed : failure client (.raise (.peerDisconnected peer)) = none := by
      cases peer with
      | none => rfl
      | some peer => exact if_neg current
    exact .of_same rfl (by rintro ⟨⟩) unfailed rfl (by rw [same]) (by rw [same]) (by rw [same])
      fun disconnected => by rw [same]; exact disconnected

/-- A poll tries again exactly when the client is disconnected and the deadline is due. -/
theorem serviceTimers_answered {client : NetClient F N} (coherent : Coherent client) :
    Answered client .serviceTimers := by
  have delay : delayOf client .serviceTimers = client.reconnectBackoffMs := rfl
  by_cases retry : client.status = .handshaking ∧ helloRetryMs ≤ client.nowMs - client.lastHelloMs
  · have entered : enter client .serviceTimers =
        { client.sendHello.2 with cache := client.sendHello.2.cache.pruneStale client.nowMs Sync.defaultStaleMs } := by
      simp only [enter, NetClient.serviceTimers, if_pos retry]
    have fails : failure client .serviceTimers = helloFailure client := if_pos retry
    obtain ⟨outcome, -⟩ := sendHello_outcome client
    have elsewhere : client.status ≠ .disconnected := by
      rw [retry.1]
      rintro ⟨⟩
    exact {
      failed := by rw [fails, entered, delay]; exact outcome.failed
      quiet := by
        rw [fails, entered, delay]
        exact fun none => ⟨(outcome.quiet none).2, fun _ => (outcome.quiet none).1⟩
      waits := fun disconnected => absurd disconnected elsewhere
      tries := fun disconnected => absurd disconnected elsewhere
      options := .inl ⟨rfl, by rw [entered]; exact outcome.options⟩ }
  by_cases due : client.status = .disconnected ∧ client.options.isSome ∧ client.nextReconnectMs ≤ client.nowMs
  · obtain ⟨options, chosen⟩ := Option.isSome_iff_exists.mp due.2.1
    have entered : enter client .serviceTimers =
        { client.startTransportAndOpenPeer with
          cache := client.startTransportAndOpenPeer.cache.pruneStale client.nowMs Sync.defaultStaleMs } := by
      simp only [enter, NetClient.serviceTimers, if_neg retry, if_pos due]
    have fails : failure client .serviceTimers = openFailure client.transport options := by
      rw [failure, if_neg retry, if_pos ⟨due.1, due.2.2⟩, chosen, Option.bind_some]
    obtain ⟨outcome, opened⟩ := startTransportAndOpenPeer_outcome chosen (coherent.ended.mp due.1)
    exact {
      failed := by rw [fails, entered, delay]; exact outcome.failed
      quiet := by
        rw [fails, entered, delay]
        exact fun none => ⟨(outcome.quiet none).2, fun _ => (outcome.quiet none).1⟩
      waits := by simp [reattempts, due.2.2, chosen]
      tries := by
        rw [fails, entered]
        intro _ _ _ _
        cases missed : openFailure client.transport options with
        | none => exact .inr (opened missed)
        | some atMs => exact .inl rfl
      options := .inl ⟨rfl, by rw [entered]; exact outcome.options⟩ }
  · have entered : enter client .serviceTimers =
        { client with cache := client.cache.pruneStale client.nowMs Sync.defaultStaleMs } := by
      simp only [enter, NetClient.serviceTimers, if_neg retry, if_neg due]
    have fails : failure client .serviceTimers = none := by
      rw [failure, if_neg retry]
      by_cases late : client.status = .disconnected ∧ client.nextReconnectMs ≤ client.nowMs
      · rw [if_pos late]
        cases chosen : client.options with
        | none => rfl
        | some options => exact absurd ⟨late.1, by simp [chosen], late.2⟩ due
      · exact if_neg late
    exact {
      failed := by rw [fails]; rintro _ ⟨⟩
      quiet := by rw [entered]; exact fun _ => ⟨rfl, fun _ => rfl⟩
      waits := by rw [entered]; exact fun disconnected _ => ⟨fails, disconnected⟩
      tries := fun disconnected chosen _ late => absurd ⟨disconnected, chosen, late⟩ due
      options := .inl ⟨rfl, by rw [entered]⟩ }

theorem sendClientState_answered (client : NetClient F N) (pose : BoatPose F) :
    Answered client (.sendClientState pose) := by
  have same : ∃ transport seq sent, client.sendClientState pose = { client with transport, seq, sent } := by
    unfold NetClient.sendClientState
    cases client.handshakeComplete with
    | false => exact ⟨_, _, _, rfl⟩
    | true =>
        rcases sendRaw_cases client.nextSeq (.state (NetClient.stateOf pose (UInt32.ofInt client.nowMs))) with
          failed | ⟨bytes, transport, -, sent⟩
        · simp only [failed]
          exact ⟨_, _, _, rfl⟩
        · simp only [sent]
          exact ⟨_, _, _, rfl⟩
  obtain ⟨transport, seq, sent, same⟩ := same
  replace same : enter client (.sendClientState pose) = { client with transport, seq, sent } := same
  exact .of_same rfl (by rintro ⟨⟩) rfl rfl (by rw [same]) (by rw [same]) (by rw [same]) fun disconnected => by
    rw [same]; exact disconnected

theorem enter_answered {client : NetClient F N} (coherent : Coherent client) (entry : Entry F)
    (regular : stray ⟨client, entry, enter client entry⟩ = false) : Answered client entry := by
  cases entry with
  | connect options => exact connect_answered coherent options
  | serviceTimers => exact serviceTimers_answered coherent
  | sendClientState pose => exact sendClientState_answered client pose
  | dispose => exact .of_same rfl (by rintro ⟨⟩) rfl rfl rfl rfl rfl fun _ => rfl
  | raise event =>
      cases event with
      | peerConnected peer => exact onPeerConnected_answered peer
      | networkReceive peer data => exact onNetworkReceive_answered client peer data
      | networkError => exact .of_same rfl (by rintro ⟨⟩) rfl rfl rfl rfl rfl id
      | peerDisconnected peer =>
          apply onPeerDisconnected_answered coherent
          intro unnamed empty
          subst unnamed
          simp [stray, empty] at regular

/-! The retries of a run. -/

/-- The client after steps that failed `count` times since the count last started over. -/
structure Prepared (client : NetClient F N) (count : Nat) : Prop where
  coherent : Coherent client
  armed : client.status ≠ .disconnected → client.options.isSome
  backoff : client.reconnectBackoffMs = retryDelayMs count

theorem delayOf_count {client : NetClient F N} {count : Nat} (prepared : Prepared client count) (entry : Entry F) :
    delayOf client entry = retryDelayMs (failuresBefore count ⟨client, entry, enter client entry⟩) := by
  unfold delayOf failuresBefore
  cases restarts client entry with
  | true => rfl
  | false => exact prepared.backoff

/-- A client that has no options, and so no attempt to lose, stays as it is. -/
theorem Answered.unarmed {client : NetClient F N} {entry : Entry F} {count : Nat} (answered : Answered client entry)
    (prepared : Prepared client count) (bare : (enter client entry).options = none) :
    failure client entry = none ∧ (enter client entry).status = .disconnected := by
  rcases answered.options with ⟨steady, same⟩ | present
  · rw [same] at bare
    have disconnected : client.status = .disconnected := by
      by_contra elsewhere
      have armed := prepared.armed elsewhere
      rw [bare] at armed
      cases armed
    exact answered.waits disconnected (.inr ⟨steady, bare⟩)
  · rw [bare] at present
    cases present

theorem enter_prepared {client : NetClient F N} {entry : Entry F} {count : Nat} (prepared : Prepared client count)
    (answered : Answered client entry) :
    Prepared (enter client entry) (failuresBefore count ⟨client, entry, enter client entry⟩ +
      if (failure client entry).isSome then 1 else 0) where
  coherent := (enter_cases prepared.coherent entry).1.coherent prepared.coherent
  armed := by
    intro elsewhere
    by_contra bare
    exact elsewhere (answered.unarmed prepared (Option.not_isSome_iff_eq_none.mp bare)).2
  backoff := by
    have delay := delayOf_count prepared entry
    cases missed : failure client entry with
    | none =>
        rw [(answered.quiet missed).1, delay]
        rfl
    | some atMs =>
        rw [(answered.failed atMs missed).2.2, delay]
        exact (retryDelayMs_succ _).symm

theorem stepsOf_prepared {client : NetClient F N} (moments : List (ClientSession.Moment F N)) {count : Nat}
    (prepared : Prepared client count) (calm : ∀ step ∈ stepsOf client moments, stray step = false) :
    Prepared (play client moments) ((stepsOf client moments).foldl (fun count step =>
      failuresBefore count step + if (failure step.before step.entry).isSome then 1 else 0) count) := by
  induction moments generalizing client count with
  | nil => exact prepared
  | cons moment rest ih =>
      have met : Prepared (client.meets moment.library) count :=
        ⟨coherent_meets prepared.coherent moment.library, prepared.armed, prepared.backoff⟩
      have answered := enter_answered met.coherent moment.entry (calm _ List.mem_cons_self)
      exact ih (enter_prepared met answered) fun step member => calm step (List.mem_cons_of_mem _ member)

/-- Between two attempts: the deadline stands and the client has options to try with. -/
structure Waiting (deadline : Int) (client : NetClient F N) : Prop where
  disconnected : client.status = .disconnected
  options : client.options.isSome
  deadline : client.nextReconnectMs = deadline

theorem failed_waiting {client : NetClient F N} {entry : Entry F} {count : Nat} (prepared : Prepared client count)
    (answered : Answered client entry) {atMs : Int} (failed : failure client entry = some atMs) :
    Waiting (atMs + retryDelayMs (failuresBefore count ⟨client, entry, enter client entry⟩)) (enter client entry) where
  disconnected := (answered.failed atMs failed).1
  options := by
    by_contra bare
    have unfailed := (answered.unarmed prepared (Option.not_isSome_iff_eq_none.mp bare)).1
    rw [failed] at unfailed
    cases unfailed
  deadline := by rw [(answered.failed atMs failed).2.1, delayOf_count prepared]

theorem enter_waiting {client : NetClient F N} {entry : Entry F} {deadline : Int} (waiting : Waiting deadline client)
    (answered : Answered client entry) (early : reattempts client entry = false) :
    failure client entry = none ∧ Waiting deadline (enter client entry) := by
  have steady : begins client entry = false := (Bool.or_eq_false_iff.mp early).1
  obtain ⟨unfailed, disconnected⟩ := answered.waits waiting.disconnected (.inl early)
  refine ⟨unfailed, disconnected, ?_, ((answered.quiet unfailed).2 steady).trans waiting.deadline⟩
  rcases answered.options with ⟨-, same⟩ | present
  · rw [same]
    exact waiting.options
  · exact present

theorem stepsOf_split {client : NetClient F N} {moments : List (ClientSession.Moment F N)}
    {front back : List (Step F N)}
    (split : stepsOf client moments = front ++ back) :
    ∃ early late, moments = early ++ late ∧ stepsOf client early = front ∧
      stepsOf (play client early) late = back := by
  induction front generalizing client moments with
  | nil => exact ⟨[], moments, rfl, rfl, split⟩
  | cons step front ih =>
      cases moments with
      | nil => cases split
      | cons moment rest =>
          obtain ⟨same, tail⟩ := List.cons_eq_cons.mp split
          obtain ⟨early, late, whole, first, last⟩ := ih tail
          exact ⟨moment :: early, late, by rw [whole, List.cons_append],
            by rw [← first, ← same]; rfl, last⟩

/-- While the client waits nothing fails and the deadline stands, step by step. -/
theorem stepsOf_waiting {client : NetClient F N} {deadline : Int} (coherent : Coherent client)
    (waiting : Waiting deadline client) (moments : List (ClientSession.Moment F N))
    (calm : ∀ step ∈ stepsOf client moments, stray step = false)
    (early : ∀ step ∈ stepsOf client moments, reattempts step.before step.entry = false) :
    (∀ step ∈ stepsOf client moments, failure step.before step.entry = none ∧ Waiting deadline step.after) ∧
      Waiting deadline (play client moments) ∧ Coherent (play client moments) := by
  induction moments generalizing client with
  | nil => exact ⟨by simp [stepsOf], waiting, coherent⟩
  | cons moment rest ih =>
      have met := coherent_meets coherent moment.library
      have found : Waiting deadline (client.meets moment.library) :=
        ⟨waiting.disconnected, waiting.options, waiting.deadline⟩
      have answered := enter_answered met moment.entry (calm _ List.mem_cons_self)
      obtain ⟨unfailed, entered⟩ := enter_waiting found answered (early _ List.mem_cons_self)
      obtain ⟨steps, last⟩ := ih ((enter_cases met moment.entry).1.coherent met) entered
        (fun step member => calm step (List.mem_cons_of_mem _ member))
        (fun step member => early step (List.mem_cons_of_mem _ member))
      refine ⟨fun step member => ?_, last⟩
      rcases List.mem_cons.mp member with rfl | later
      · exact ⟨unfailed, entered⟩
      · exact steps step later

/-- Where every disconnect event names its peer or finds one current, each failed attempt schedules exactly
one retry, after the delay its number calls for. -/
theorem retries_back_off (manager : N) (turns : List (Turn F N))
    (calm : ∀ step ∈ steps (NetClient.new manager) turns, stray step = false) :
    BackoffKept (steps (NetClient.new manager : NetClient F N) turns) := by
  intro earlier step waited later atMs split failed early
  have fresh : Prepared (NetClient.new manager : NetClient F N) 0 :=
    ⟨coherent_new manager, fun elsewhere => absurd rfl elsewhere, rfl⟩
  unfold steps at split calm
  rw [split] at calm
  obtain ⟨before, from_step, -, ran, rest⟩ := stepsOf_split split
  cases from_step with
  | nil => cases rest
  | cons moment after =>
      obtain ⟨rfl, tail⟩ := List.cons_eq_cons.mp rest
      obtain ⟨during, beyond, -, waited_ran, later_ran⟩ := stepsOf_split tail
      -- The client the failing step finds has counted the failures before it.
      have prepared := stepsOf_prepared before fresh fun step member => calm step (by rw [ran] at member; simp [member])
      rw [ran] at prepared
      generalize play (NetClient.new manager) before = client at prepared tail waited_ran later_ran failed calm ⊢
      have met : Prepared (client.meets moment.library) (failures earlier) :=
        ⟨coherent_meets prepared.coherent moment.library, prepared.armed, prepared.backoff⟩
      have answered := enter_answered met.coherent moment.entry (calm _ (by simp))
      -- The failure leaves the client waiting, and waiting carries itself through the steps in between.
      have waiting := failed_waiting met answered failed
      have coherent := (enter_cases met.coherent moment.entry).1.coherent met.coherent
      obtain ⟨quiet, waited_on, in_step⟩ := stepsOf_waiting coherent waiting during
        (fun step member => calm step (by rw [waited_ran] at member; simp [member]))
        (fun step member => early step (by rw [waited_ran] at member; exact member))
      rw [waited_ran] at quiet
      refine ⟨fun step member => ?_, fun step member => (quiet step member).1, fun next first timed late => ?_⟩
      · rcases List.mem_cons.mp member with rfl | between
        · exact ⟨waiting.disconnected, waiting.deadline⟩
        · exact ⟨(quiet step between).2.disconnected, (quiet step between).2.deadline⟩
      · cases beyond with
        | nil =>
            rw [← later_ran] at first
            cases first
        | cons following rest =>
            rw [← later_ran] at first
            cases first
            have found := coherent_meets in_step following.library
            exact (enter_answered found following.entry (calm _ (by rw [← later_ran]; simp [stepsOf]))).tries
              waited_on.disconnected waited_on.options timed late

end Entries

end Attempts

/-! A run with a rejected hello, polled before and after the retry is due; and a run whose library resolves no
host and then reports a disconnect of no peer. -/
section Runs

local instance benchCodec : EnvelopeCodec Int where
  encode _ _ := [0]
  tryDispatch _ := some (.serverHello (helloFrom false 0))

def rejectedTurns : List (Turn Int Bench) :=
  [⟨⟨0, false, 0⟩, .connect benchOptions⟩,
    benchTurn 10 1 [.peerConnected (some 1), .networkReceive (some 1) []],
    benchTurn 1009 1 [],
    benchTurn 1010 1 [],
    benchTurn 1020 2 [.peerDisconnected (some 2)]]

theorem retries_back_off_rejected : BackoffKept (steps (NetClient.new ⟨0, false, 0⟩) rejectedTurns) ∧
    (steps (NetClient.new ⟨0, false, 0⟩) rejectedTurns).map (fun step => failure step.before step.entry) =
      [none, none, some 10, none, none, none, some 1020, none] ∧
    (steps (NetClient.new ⟨0, false, 0⟩) rejectedTurns).map (fun step => step.after.nextReconnectMs) =
      [0, 0, 1010, 1010, 1010, 1010, 3020, 3020] :=
  ⟨retries_back_off (F := Int) ⟨0, false, 0⟩ rejectedTurns (by decide), by decide, by decide⟩

structure Unresolved where
  nowMs : Int
  running : Bool

instance unresolvedLibrary : Library Unresolved where
  nowMs library := library.nowMs
  isRunning library := library.running
  start library := (true, { library with running := true })
  connect library _ _ _ := (none, library)
  disconnectPeerForce library _ := library
  isConnected _ _ := false
  maxSinglePacketSize _ _ := 0
  send library _ _ := some library
  stop library := { library with running := false }

def unresolvedTurns : List (Turn Int Unresolved) :=
  [⟨⟨0, false⟩, .connect benchOptions⟩,
    ⟨⟨10, true⟩, .poll [⟨⟨10, true⟩, .peerDisconnected none⟩] ⟨10, true⟩⟩]

/-- The one failed attempt is counted twice: its retry moves from 1000 ms to 2010 ms. -/
theorem retry_moved : ¬ BackoffKept (steps (NetClient.new ⟨0, false⟩) unresolvedTurns) := by
  intro kept
  have stands := (kept [] _ [_] [_] 0 rfl (by decide) (by decide)).1 _ (List.mem_cons_of_mem _ List.mem_cons_self)
  exact absurd stands.2 (by decide)

end Runs

end SailwindOnline.RetryBackoff
