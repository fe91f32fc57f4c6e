import Mathlib.Data.List.Basic

/-!
The LiteNetLib wire format of the transport. A packet is a list of bytes; the
low five bits of its first byte name the packet property, the next two the
connection number, the top bit a fragment. Only the subset the transport
speaks is here: connect request and accept, unreliable data, ping, pong,
disconnect and single-byte control packets.
-/

namespace SailwindOnline.WireProtocol

abbrev Bytes := List UInt8

def protocolId : Int32 := 13
def maxConnectionNumber : UInt8 := 4
def mtu : Nat := 1024
def headerSize : Nat := 1
def connectRequestHeaderSize : Nat := 18
def disconnectSize : Nat := headerSize + 8

namespace Property

def unreliable : UInt8 := 0
def ping : UInt8 := 3
def pong : UInt8 := 4
def connectRequest : UInt8 := 5
def connectAccept : UInt8 := 6
def disconnect : UInt8 := 7
def shutdownOk : UInt8 := 13
def invalidProtocol : UInt8 := 15

end Property

def propertyMask : UInt8 := 0x1F
def connectionNumberMask : UInt8 := 0x60
def connectionNumberShift : UInt8 := 5
def fragmentedFlag : UInt8 := 0x80

structure Header where
  property : UInt8
  connectionNumber : UInt8
  fragmented : Bool
deriving DecidableEq, Repr

namespace Header

def fromByte (byte : UInt8) : Header :=
  { property := byte &&& propertyMask
    connectionNumber := (byte &&& connectionNumberMask) >>> connectionNumberShift
    fragmented := byte &&& fragmentedFlag != 0 }

def toByte (header : Header) : UInt8 :=
  (header.property &&& propertyMask)
    ||| ((header.connectionNumber <<< connectionNumberShift) &&& connectionNumberMask)
    ||| (if header.fragmented then fragmentedFlag else 0)

def plain (property : UInt8) : Header :=
  { property, connectionNumber := 0, fragmented := false }

def connected (property connectionNumber : UInt8) : Header :=
  { property, connectionNumber, fragmented := false }

end Header

/-- Little-endian words: the value of a byte list and the first `width` bytes of a value. -/
def fromLe : Bytes → Nat
  | [] => 0
  | byte :: rest => byte.toNat + 256 * fromLe rest

def toLe : Nat → Nat → Bytes
  | 0, _ => []
  | width + 1, value => UInt8.ofNat (value % 256) :: toLe width (value / 256)

def slice (buf : Bytes) (start stop : Nat) : Bytes := (buf.take stop).drop start

def readI32 (buf : Bytes) (start : Nat) : Int32 := Int32.ofNat (fromLe (slice buf start (start + 4)))

def readI64 (buf : Bytes) (start : Nat) : Int64 := Int64.ofNat (fromLe (slice buf start (start + 8)))

def i32Bytes (value : Int32) : Bytes := toLe 4 value.toUInt32.toNat

def i64Bytes (value : Int64) : Bytes := toLe 8 value.toUInt64.toNat

def u16Bytes (value : UInt16) : Bytes := toLe 2 value.toNat

structure ConnectRequest where
  connectionNumber : UInt8
  protocolId : Int32
  connectTime : Int64
  peerId : Int32
  connectData : Bytes
deriving DecidableEq, Repr

/-- Byte 17 is the length of the serialized socket address that follows it. -/
def parseConnectRequest (buf : Bytes) : Option ConnectRequest :=
  if buf.length < connectRequestHeaderSize then none
  else
    let header := Header.fromByte (buf.getD 0 0)
    if header.property ≠ Property.connectRequest then none
    else if header.connectionNumber ≥ maxConnectionNumber then none
    else
      let addrSize := (buf.getD (connectRequestHeaderSize - 1) 0).toNat
      if addrSize ≠ 16 ∧ addrSize ≠ 28 then none
      else
        let dataStart := connectRequestHeaderSize + addrSize
        if buf.length < dataStart then none
        else
          some
            { connectionNumber := header.connectionNumber
              protocolId := readI32 buf 1
              connectTime := readI64 buf 5
              peerId := readI32 buf 13
              connectData := buf.drop dataStart }

/-- A length word of zero is the empty string; otherwise it counts one more than the bytes. -/
def readLitenetString (data : Bytes) : Option String :=
  if data.length < 2 then none
  else
    let raw := fromLe (slice data 0 2)
    if raw = 0 then some ""
    else
      let n := raw - 1
      if data.length < 2 + n then none
      else String.fromUTF8? ⟨(slice data 2 (2 + n)).toArray⟩

def writeLitenetString (text : String) : Bytes :=
  let bytes := text.toUTF8.toList
  if bytes.isEmpty then u16Bytes 0
  else u16Bytes (UInt16.ofNat (bytes.length + 1)) ++ bytes

def buildConnectAccept (connectTime : Int64) (connectionNumber : UInt8) (localPeerId : Int32)
    (reused : Bool) : Bytes :=
  (Header.plain Property.connectAccept).toByte :: i64Bytes connectTime ++
    [connectionNumber, if reused then 1 else 0] ++ i32Bytes localPeerId

def buildUnreliable (connectionNumber : UInt8) (data : Bytes) : Bytes :=
  (Header.connected Property.unreliable connectionNumber).toByte :: data

def buildPing (connectionNumber : UInt8) (sequence : UInt16) : Bytes :=
  (Header.connected Property.ping connectionNumber).toByte :: u16Bytes sequence

def buildPong (connectionNumber : UInt8) (sequence : UInt16) (timeTicks : Int64) : Bytes :=
  (Header.connected Property.pong connectionNumber).toByte :: u16Bytes sequence ++ i64Bytes timeTicks

def readSequence (buf : Bytes) : Option UInt16 :=
  if buf.length < 3 then none else some (UInt16.ofNat (fromLe (slice buf 1 3)))

def buildDisconnect (connectionNumber : UInt8) (connectTime : Int64) : Bytes :=
  (Header.connected Property.disconnect connectionNumber).toByte :: i64Bytes connectTime

def readDisconnectTime (buf : Bytes) : Option Int64 :=
  if buf.length < disconnectSize then none else some (readI64 buf 1)

def buildControl (property : UInt8) : Bytes := [(Header.plain property).toByte]

def buildConnectRequest (connectionNumber : UInt8) (connectTime : Int64) (peerId : Int32)
    (addrSize : UInt8) (connectData : Bytes) : Bytes :=
  ({ property := Property.connectRequest, connectionNumber, fragmented := false } : Header).toByte ::
    i32Bytes protocolId ++ i64Bytes connectTime ++ i32Bytes peerId ++ [addrSize] ++
    List.replicate addrSize.toNat 0 ++ connectData

-- The client's own request for the default key parses back to its fields.
example :
    (parseConnectRequest (buildConnectRequest 2 7 0 16 (writeLitenetString "key"))).bind
      (fun request => (readLitenetString request.connectData).map
        fun key => (request.connectionNumber, request.protocolId, request.connectTime, key)) =
      some (2, 13, 7, "key") := by
  decide +kernel

end SailwindOnline.WireProtocol
