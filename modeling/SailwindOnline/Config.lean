import SailwindOnline.Host
import SailwindOnline.World

/-!
The server's runtime configuration and its validation. The bind address and the
database path, which a booted server no longer reads, come with `Settings`.
Every accessor clamps its setting again, as the source does for callers that
bypass validation.
-/

namespace SailwindOnline

def maxAoiRadiusCells : Nat := 16
def maxTradeMinIntervalMs : Nat := 3600000
def maxHelloMinIntervalMs : Nat := 250
def minHelloMinIntervalMs : Nat := 1
def maxNewSessionMinIntervalMs : Nat := 1000
def maxTransportPeersCeiling : Nat := 1024
def snapshotPacketsPerTick : Nat := 32
def snapshotEntitiesPerPacket : Nat := 5
def snapshotVisibilityCeiling : Nat := 15
def snapshotClientExpirySecs : Nat := 5
def maxPlayerRowsCeiling : Nat := 1000000
def maxWireStringLenCeiling : Nat := 4096
def maxU8 : Nat := 255

def clampNat (value low high : Nat) : Nat := max low (min value high)

/-- Unsigned 64-bit arithmetic that refuses to overflow. -/
def checkedU64 (value : Nat) : Option Nat := if value < 2 ^ 64 then some value else none

def checkedDivCeil (value divisor : Nat) : Option Nat :=
  if divisor = 0 then none else (checkedU64 (value + (divisor - 1))).map (· / divisor)

def snapshotRecurrenceTicks (peers : UInt32) (nominalCadenceTicks : Nat) : Option Nat :=
  if peers.toNat ≤ 1 then some 0
  else if nominalCadenceTicks = 0 then none
  else do
    let recipientRound ← checkedDivCeil peers.toNat snapshotPacketsPerTick
    let visiblePlayers := min (peers.toNat - 1) snapshotVisibilityCeiling
    let stableChunks ← checkedDivCeil visiblePlayers snapshotEntitiesPerPacket
    let rounds ← checkedDivCeil nominalCadenceTicks recipientRound
    let alignedDueInterval ← checkedU64 (rounds * recipientRound)
    checkedU64 (alignedDueInterval * stableChunks)

structure Config (F : Type) where
  tickHz : UInt32
  snapshotHz : UInt32
  clockBroadcastSecs : UInt32
  aoiRadiusCells : UInt32
  cellSizeM : F
  helloMinIntervalMs : UInt32
  newSessionMinIntervalMs : UInt32
  maxTransportPeers : UInt32
  maxTransportPeersPerIp : UInt32
  maxPlayerRows : UInt32
  tradeMinIntervalMs : UInt32
  clientStateMinIntervalMs : UInt32
  chatMinIntervalMs : UInt32
  econMinIntervalMs : UInt32
  moorMinIntervalMs : UInt32
  maxWireStringLen : UInt32
  serverName : String

/-- The first check that fails names its reason. -/
def requireAll : List (Bool × String) → Except String Unit
  | [] => .ok ()
  | (holds, reason) :: rest => if holds then requireAll rest else .error reason

theorem requireAll_ok_iff (checks : List (Bool × String)) :
    requireAll checks = .ok () ↔ ∀ check ∈ checks, check.1 = true := by
  induction checks with
  | nil => simp [requireAll]
  | cons check rest ih =>
      rcases check with ⟨holds, reason⟩
      cases holds <;> simp [requireAll, ih]

namespace Config
variable {F : Type}

-- `as i64` on a millisecond setting, which is far below the signed limit.
def millis (value : Nat) : Int64 := Int64.ofNat value

def ticksPerSnapshot (cfg : Config F) : Nat := max (cfg.tickHz.toNat / cfg.snapshotHz.toNat) 1

-- `tick_hz * clock_broadcast_secs` saturates at the 32-bit limit.
def ticksPerClockBroadcast (cfg : Config F) : Nat :=
  max (min (cfg.tickHz.toNat * cfg.clockBroadcastSecs.toNat) (2 ^ 32 - 1)) 1

def aoiRadiusI32 (cfg : Config F) : Nat := min cfg.aoiRadiusCells.toNat maxAoiRadiusCells

def tradeMinIntervalMsI64 (cfg : Config F) : Int64 :=
  millis (min cfg.tradeMinIntervalMs.toNat maxTradeMinIntervalMs)

def helloMinIntervalMsNat (cfg : Config F) : Nat :=
  clampNat cfg.helloMinIntervalMs.toNat minHelloMinIntervalMs maxHelloMinIntervalMs

def helloMinIntervalMsI64 (cfg : Config F) : Int64 := millis cfg.helloMinIntervalMsNat

def newSessionMinIntervalMsNat (cfg : Config F) : Nat :=
  clampNat cfg.newSessionMinIntervalMs.toNat minHelloMinIntervalMs maxNewSessionMinIntervalMs

def newSessionMinIntervalMsI64 (cfg : Config F) : Int64 := millis cfg.newSessionMinIntervalMsNat

def sourceSessionMinIntervalMsI64 (cfg : Config F) : Int64 :=
  millis (max cfg.helloMinIntervalMsNat (cfg.newSessionMinIntervalMsNat * 2 + 1))

def maxTransportPeersUsize (cfg : Config F) : Nat :=
  clampNat cfg.maxTransportPeers.toNat 1 maxTransportPeersCeiling

def maxTransportPeersPerIpUsize (cfg : Config F) : Nat :=
  clampNat cfg.maxTransportPeersPerIp.toNat 1 cfg.maxTransportPeersUsize

def maxPlayerRowsU32 (cfg : Config F) : UInt32 :=
  UInt32.ofNat (clampNat cfg.maxPlayerRows.toNat 1 maxPlayerRowsCeiling)

def clientStateMinIntervalMsI64 (cfg : Config F) : Int64 :=
  millis (min cfg.clientStateMinIntervalMs.toNat maxTradeMinIntervalMs)

def chatMinIntervalMsI64 (cfg : Config F) : Int64 :=
  millis (min cfg.chatMinIntervalMs.toNat maxTradeMinIntervalMs)

def econMinIntervalMsI64 (cfg : Config F) : Int64 :=
  millis (min cfg.econMinIntervalMs.toNat maxTradeMinIntervalMs)

def moorMinIntervalMsI64 (cfg : Config F) : Int64 :=
  millis (min cfg.moorMinIntervalMs.toNat maxTradeMinIntervalMs)

def maxWireStringLenUsize (cfg : Config F) : Nat := min cfg.maxWireStringLen.toNat maxWireStringLenCeiling

-- `1 / tick_hz` seconds round to no nanosecond at all beyond two billion ticks a second.
def zeroTickDuration (cfg : Config F) : Bool := decide (2000000000 < cfg.tickHz.toNat)

def recurrenceTicks (cfg : Config F) : Option Nat :=
  snapshotRecurrenceTicks cfg.maxTransportPeers cfg.ticksPerSnapshot

def expiryTicks (cfg : Config F) : Nat := cfg.tickHz.toNat * snapshotClientExpirySecs

def within (low value high : Nat) : Bool := decide (low ≤ value ∧ value ≤ high)

def intervalCheck (name : String) (value : UInt32) : Bool × String :=
  (decide (value.toNat ≤ maxTradeMinIntervalMs), s!"{name} must be in 0..={maxTradeMinIntervalMs}")

def checks [Platform F] (cfg : Config F) : List (Bool × String) :=
  let recurrence := cfg.recurrenceTicks.getD 0
  let expiry := cfg.expiryTicks
  [ (decide (cfg.tickHz ≠ 0), s!"tick_hz must be in 1..={maxU8}"),
    (!cfg.zeroTickDuration, "tick_hz produces a zero fixed-tick duration"),
    (decide (cfg.tickHz.toNat ≤ maxU8),
      s!"tick_hz must be faithfully representable on the wire in 1..={maxU8}"),
    (within 1 cfg.snapshotHz.toNat maxU8,
      s!"snapshot_hz must be faithfully representable on the wire in 1..={maxU8}"),
    (decide (cfg.snapshotHz.toNat ≤ cfg.tickHz.toNat), "snapshot_hz must be in 1..=tick_hz"),
    (within 1 cfg.aoiRadiusCells.toNat maxAoiRadiusCells,
      s!"aoi_radius_cells must be in 1..={maxAoiRadiusCells}"),
    (Platform.isFinite cfg.cellSizeM && Platform.cellSizeInRange cfg.cellSizeM,
      "cell_size_m must be a finite value in [1, 1000000]"),
    (within minHelloMinIntervalMs cfg.helloMinIntervalMs.toNat maxHelloMinIntervalMs,
      s!"hello_min_interval_ms must be in {minHelloMinIntervalMs}..={maxHelloMinIntervalMs}"),
    (within minHelloMinIntervalMs cfg.newSessionMinIntervalMs.toNat maxNewSessionMinIntervalMs,
      s!"new_session_min_interval_ms must be in {minHelloMinIntervalMs}..={maxNewSessionMinIntervalMs}"),
    (within 1 cfg.maxTransportPeers.toNat maxTransportPeersCeiling,
      s!"max_transport_peers must be in 1..={maxTransportPeersCeiling}"),
    (cfg.recurrenceTicks.isSome, "snapshot recurrence calculation overflowed"),
    (decide (recurrence < expiry),
      s!"snapshot recurrence ({recurrence} ticks) must be strictly less than the " ++
        s!"{snapshotClientExpirySecs}-second client expiry ({expiry} ticks)"),
    (within 1 cfg.maxTransportPeersPerIp.toNat cfg.maxTransportPeers.toNat,
      "max_transport_peers_per_ip must be in 1..=max_transport_peers"),
    (within 1 cfg.maxPlayerRows.toNat maxPlayerRowsCeiling,
      s!"max_player_rows must be in 1..={maxPlayerRowsCeiling}"),
    intervalCheck "trade_min_interval_ms" cfg.tradeMinIntervalMs,
    intervalCheck "client_state_min_interval_ms" cfg.clientStateMinIntervalMs,
    intervalCheck "chat_min_interval_ms" cfg.chatMinIntervalMs,
    intervalCheck "econ_min_interval_ms" cfg.econMinIntervalMs,
    intervalCheck "moor_min_interval_ms" cfg.moorMinIntervalMs,
    (within 1 cfg.maxWireStringLen.toNat maxWireStringLenCeiling,
      s!"max_wire_string_len must be in 1..={maxWireStringLenCeiling}") ]

def validate [Platform F] (cfg : Config F) : Except String Unit := requireAll cfg.checks

/-- The built-in settings; the cell size is a float of the platform. -/
def default (cellSizeM : F) : Config F :=
  { tickHz := 30
    snapshotHz := 4
    clockBroadcastSecs := 10
    aoiRadiusCells := 2
    cellSizeM
    helloMinIntervalMs := 250
    newSessionMinIntervalMs := 30
    maxTransportPeers := 1024
    maxTransportPeersPerIp := 16
    maxPlayerRows := 10000
    tradeMinIntervalMs := 250
    clientStateMinIntervalMs := 20
    chatMinIntervalMs := 500
    econMinIntervalMs := 100
    moorMinIntervalMs := 250
    maxWireStringLen := 512
    serverName := "Sailwind Online (dev)" }

theorem default_valid [Platform F] {cellSizeM : F} (finite : Platform.isFinite cellSizeM = true)
    (sized : Platform.cellSizeInRange cellSizeM = true) : (default cellSizeM).validate = .ok () := by
  have recurrence : (default cellSizeM).recurrenceTicks = some 96 := by
    have cadence : (default cellSizeM).ticksPerSnapshot = 7 := by
      show max ((30 : UInt32).toNat / (4 : UInt32).toNat) 1 = 7
      decide
    rw [recurrenceTicks, cadence]
    show snapshotRecurrenceTicks 1024 7 = some 96
    decide
  rw [validate, requireAll_ok_iff]
  intro check member
  simp only [checks, List.mem_cons, List.not_mem_nil, or_false] at member
  rcases member with rfl | rfl | rfl | rfl | rfl | rfl | rfl | rfl | rfl | rfl | rfl | rfl | rfl | rfl |
    rfl | rfl | rfl | rfl | rfl | rfl
  all_goals first | rfl | skip
  · simp [default, finite, sized]
  · rw [recurrence]
    rfl
  · rw [recurrence]
    rfl

end Config

/-- A configuration that has passed validation. -/
structure ValidConfig (F : Type) [Platform F] extends Config F where
  valid : toConfig.validate = .ok ()

namespace ValidConfig
variable {F : Type} [Platform F]

def default (cellSizeM : F) (finite : Platform.isFinite cellSizeM = true)
    (sized : Platform.cellSizeInRange cellSizeM = true) : ValidConfig F :=
  { Config.default cellSizeM with valid := Config.default_valid finite sized }

/-- The facts of a validated configuration that the scheduler and the transport rest on. -/
structure Sound (cfg : Config F) : Prop where
  tickPositive : 0 < cfg.tickHz.toNat
  tickWire : cfg.tickHz.toNat ≤ maxU8
  snapshotPositive : 0 < cfg.snapshotHz.toNat
  snapshotWire : cfg.snapshotHz.toNat ≤ maxU8
  peersPositive : 0 < cfg.maxTransportPeers.toNat
  peersBounded : cfg.maxTransportPeers.toNat ≤ maxTransportPeersCeiling
  recurrence : ∃ ticks, cfg.recurrenceTicks = some ticks ∧ ticks < cfg.expiryTicks

theorem sound (cfg : ValidConfig F) : Sound cfg.toConfig := by
  have passed := (requireAll_ok_iff cfg.checks).mp cfg.valid
  simp only [Config.checks, List.forall_mem_cons, Config.within, decide_eq_true_eq] at passed
  obtain ⟨tick, -, tickWire, snapshot, -, -, -, -, -, peers, computed, recurrence, -⟩ := passed
  obtain ⟨ticks, ticks_eq⟩ := Option.isSome_iff_exists.mp computed
  rw [ticks_eq] at recurrence
  have positive : 0 < cfg.tickHz.toNat := by
    apply Nat.pos_of_ne_zero
    intro zero
    exact tick (UInt32.toNat_inj.mp zero)
  exact ⟨positive, tickWire, snapshot.1, snapshot.2, peers.1, peers.2, ticks, ticks_eq, recurrence⟩

/-- The ceilings handed to `Host::bind_with_limits` always pass its checks. -/
def hostLimits (cfg : Config F) : PeerLimits where
  maxPeers := cfg.maxTransportPeersUsize
  maxPeersPerIp := cfg.maxTransportPeersPerIpUsize
  globalPositive := by
    simp only [Config.maxTransportPeersUsize, clampNat]
    omega
  globalNarrow := by
    simp only [Config.maxTransportPeersUsize, clampNat, maxTransportPeersCeiling]
    omega
  perIpPositive := by
    simp only [Config.maxTransportPeersPerIpUsize, clampNat]
    omega
  perIpWithin := by
    simp only [Config.maxTransportPeersPerIpUsize, Config.maxTransportPeersUsize, clampNat]
    omega

end ValidConfig
end SailwindOnline
