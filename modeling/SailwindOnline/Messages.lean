import SailwindOnline.Config
import SailwindOnline.Ledger
import SailwindOnline.Market

/-!
The messages of the wire contract, as the server reads and writes them. The
FlatBuffers encoding is a pair of functions supplied from outside: `encode`
builds the bytes of an envelope, `decode` returns the message of a verified
datagram the server handles and nothing for every other datagram.
-/

namespace SailwindOnline
open World (Cell)

abbrev Vec3 (F : Type) := F × F × F
abbrev Quat (F : Type) := F × F × F × F

def protocolVersion : UInt16 := 1

structure PlayerSnap (F : Type) where
  playerId : UInt64
  pos : Vec3 F
  rot : Quat F
  aboardBoat : UInt64
  tMs : UInt32

structure BoatSnap (F : Type) where
  boatId : UInt64
  owner : UInt64
  pos : Vec3 F
  rot : Quat F
  vel : Vec3 F
  tMs : UInt32

structure MooringSnap (F : Type) where
  boatId : UInt64
  owner : UInt64
  cell : Int × Int
  pos : Vec3 F
  rot : Quat F
  name : String
  createdAt : UInt64

structure Caps (F : Type) where
  tickHz : UInt8
  snapshotHz : UInt8
  aoiRadiusCells : UInt8
  cellSizeM : F
  features : List String

structure ServerHello (F : Type) where
  accepted : Bool
  reason : String
  playerId : UInt64
  serverName : String
  balanceGold : Int64
  capabilities : Caps F
  clock : WorldClock F
  weatherSeed : UInt64
  weatherEpochDay : UInt32

inductive ServerMessage (F : Type) where
  | serverHello (hello : ServerHello F)
  | worldClock (clock : WorldClock F)
  | snapshotDelta (serverTick : UInt32) (players : List (PlayerSnap F)) (boats : List (BoatSnap F))
  | aoiUpdate (added removed : List Cell)
  | cellSnapshot (cell : Cell) (players : List (PlayerSnap F)) (boats : List (BoatSnap F))
      (moorings : List (MooringSnap F))
  | moorAck (accepted : Bool) (record : Option (MooringSnap F)) (reason : String)
  | ledgerAck (ack : Ledger.LedgerAck)
  | marketStateAck (ack : Market.MarketAck)
  | chatBroadcast (playerId : UInt64) (displayName text : String) (channel : UInt8) (tMs : UInt32)

structure Envelope (F : Type) where
  seq : UInt32
  payload : ServerMessage F

structure ClientHello where
  protocolVersion : UInt16
  token : Option String
  displayName : Option String
  apiSurfaceHash : Option String
  gameBuild : Option String
  modVersion : Option String

structure ClientState (F : Type) where
  pos : Option (Vec3 F)
  rot : Option (Quat F)
  vel : Option (Vec3 F)
  aboardBoat : UInt64
  tMs : UInt32

structure EconTxn where
  txnId : UInt64
  amountGold : Int64
  kind : UInt8
  note : Option String
deriving DecidableEq

structure MarketTradeRequest where
  txnId : UInt64
  portId : UInt32
  itemId : UInt32
  qty : Int64
  unitPrice : Int64
deriving DecidableEq

structure MoorRequest (F : Type) where
  pos : Option (Vec3 F)
  rot : Option (Quat F)
  name : Option String

structure ChatSend where
  text : Option String
  channel : UInt8

inductive ClientMessage (F : Type) where
  | hello (hello : ClientHello)
  | state (state : ClientState F)
  | econ (txn : EconTxn)
  | trade (request : MarketTradeRequest)
  | moor (request : MoorRequest F)
  | chat (chat : ChatSend)

class Codec (F : Type) where
  encode : Envelope F → WireProtocol.Bytes
  decode : WireProtocol.Bytes → Option (ClientMessage F)

/-! Value checks beyond the verifier. -/

def stringWithinLimit (text : String) (maxLen : Nat) : Bool := decide (text.utf8ByteSize ≤ maxLen)

structure Motion (F : Type) where
  pos : Vec3 F
  rot : Quat F
  vel : Vec3 F

section Motion
variable {F : Type} [Platform F]

def finiteClamped (value limit : F) : Option F :=
  if Platform.isFinite value then some (Platform.clamp value limit) else none

def clampedVec3 (value : Vec3 F) (limit : F) : Option (Vec3 F) := do
  let x ← finiteClamped value.1 limit
  let y ← finiteClamped value.2.1 limit
  let z ← finiteClamped value.2.2 limit
  return (x, y, z)

def clampedQuat (value : Quat F) (limit : F) : Option (Quat F) := do
  let x ← finiteClamped value.1 limit
  let y ← finiteClamped value.2.1 limit
  let z ← finiteClamped value.2.2.1 limit
  let w ← finiteClamped value.2.2.2 limit
  return (x, y, z, w)

def sanitizeMotion (pos : Vec3 F) (rot : Quat F) (vel : Vec3 F) : Option (Motion F) := do
  let pos ← clampedVec3 pos Platform.maxWorldCoordM
  let rot ← clampedQuat rot Platform.one
  let vel ← clampedVec3 vel Platform.maxVelocityMps
  return { pos, rot, vel }

def vec3Of (value : Option (Vec3 F)) : Vec3 F :=
  value.getD (Platform.zero, Platform.zero, Platform.zero)

def quatOf (value : Option (Quat F)) : Quat F :=
  value.getD (Platform.zero, Platform.zero, Platform.zero, Platform.one)

end Motion

/-- A required string must be present and nonempty; any string must fit the limit. -/
def validateHelloString (value : Option String) (field : String) (required : Bool) (maxLen : Nat) :
    Except String (Option String) :=
  if required && (value.getD "").isEmpty then .error s!"missing {field}"
  else
    match value with
    | some text =>
      if stringWithinLimit text maxLen then .ok value
      else .error s!"{field} exceeds maximum length ({maxLen} bytes)"
    | none => .ok none

/-! The identity key of a token: its FNV-1a hash in sixteen hexadecimal digits. -/

def hexDigits (digits value : Nat) : List Char :=
  match digits with
  | 0 => []
  | digits + 1 => hexDigits digits (value / 16) ++ [Nat.digitChar (value % 16)]

def fnv1a (bytes : List UInt8) : UInt64 :=
  bytes.foldl (fun hash byte => (hash ^^^ byte.toUInt64) * 0x00000100000001b3) 0xcbf29ce484222325

def tokenHash (token : String) : String :=
  String.ofList (hexDigits 16 (fnv1a token.toUTF8.toList).toNat)

end SailwindOnline
