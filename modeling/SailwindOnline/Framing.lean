import Mathlib.Algebra.Ring.Nat
import SailwindOnline.WireProtocol

/-!
Framing of the transport's packets: what the readers make of the builders'
bytes, and what the builders make of what was read.
-/

namespace SailwindOnline.Framing
open WireProtocol

/-! Little-endian words. -/
section Words

theorem fromLe_lt (bytes : Bytes) : fromLe bytes < 256 ^ bytes.length := by
  induction bytes with
  | nil => decide
  | cons byte rest ih =>
      have low := byte.toNat_lt
      rw [fromLe, List.length_cons, Nat.pow_succ]
      omega

@[simp] theorem toLe_length (width value : Nat) : (toLe width value).length = width := by
  induction width generalizing value with
  | zero => rfl
  | succ width ih => rw [toLe, List.length_cons, ih]

theorem fromLe_toLe {width value : Nat} (fits : value < 256 ^ width) : fromLe (toLe width value) = value := by
  induction width generalizing value with
  | zero =>
      rw [Nat.pow_zero, Nat.lt_one_iff] at fits
      rw [fits]
      rfl
  | succ width ih =>
      rw [Nat.pow_succ] at fits
      have low : value % 256 < 256 := Nat.mod_lt _ (by decide)
      rw [toLe, fromLe, ih (by omega), UInt8.toNat_ofNat_of_lt' low]
      omega

theorem toLe_fromLe (bytes : Bytes) : toLe bytes.length (fromLe bytes) = bytes := by
  induction bytes with
  | nil => rfl
  | cons byte rest ih =>
      have low := byte.toNat_lt
      have first : (byte.toNat + 256 * fromLe rest) % 256 = byte.toNat := by omega
      have others : (byte.toNat + 256 * fromLe rest) / 256 = fromLe rest := by omega
      rw [List.length_cons, fromLe, toLe, first, others, ih, UInt8.ofNat_toNat]

@[simp] theorem i32Bytes_length (value : Int32) : (i32Bytes value).length = 4 := toLe_length 4 _

@[simp] theorem i64Bytes_length (value : Int64) : (i64Bytes value).length = 8 := toLe_length 8 _

@[simp] theorem u16Bytes_length (value : UInt16) : (u16Bytes value).length = 2 := toLe_length 2 _

@[simp] theorem fromLe_i32Bytes (value : Int32) : Int32.ofNat (fromLe (i32Bytes value)) = value := by
  have small : value.toUInt32.toNat < 256 ^ 4 := value.toUInt32.toNat_lt
  rw [i32Bytes, fromLe_toLe small, ← UInt32.toInt32_ofNat', UInt32.ofNat_toNat, Int32.toInt32_toUInt32]

@[simp] theorem fromLe_i64Bytes (value : Int64) : Int64.ofNat (fromLe (i64Bytes value)) = value := by
  have small : value.toUInt64.toNat < 256 ^ 8 := value.toUInt64.toNat_lt
  rw [i64Bytes, fromLe_toLe small, ← UInt64.toInt64_ofNat', UInt64.ofNat_toNat, Int64.toInt64_toUInt64]

@[simp] theorem fromLe_u16Bytes (value : UInt16) : fromLe (u16Bytes value) = value.toNat := by
  have small : value.toNat < 256 ^ 2 := value.toNat_lt
  exact fromLe_toLe small

theorem i32Bytes_fromLe {bytes : Bytes} (word : bytes.length = 4) : i32Bytes (Int32.ofNat (fromLe bytes)) = bytes := by
  have small := fromLe_lt bytes
  rw [word] at small
  have whole : (Int32.ofNat (fromLe bytes)).toUInt32.toNat = fromLe bytes := by
    rw [Int32.toUInt32_ofNat', UInt32.toNat_ofNat_of_lt' small]
  rw [i32Bytes, whole, ← word, toLe_fromLe]

theorem i64Bytes_fromLe {bytes : Bytes} (word : bytes.length = 8) : i64Bytes (Int64.ofNat (fromLe bytes)) = bytes := by
  have small := fromLe_lt bytes
  rw [word] at small
  have whole : (Int64.ofNat (fromLe bytes)).toUInt64.toNat = fromLe bytes := by
    rw [Int64.toUInt64_ofNat', UInt64.toNat_ofNat_of_lt' small]
  rw [i64Bytes, whole, ← word, toLe_fromLe]

end Words

/-! Slices. -/
section Slices
variable {buf : Bytes} {start middle stop : Nat}

theorem slice_length (inside : stop ≤ buf.length) : (slice buf start stop).length = stop - start := by
  rw [slice, List.length_drop, List.length_take, Nat.min_eq_left inside]

theorem slice_drop (buf : Bytes) (order : start ≤ stop) : slice buf start stop ++ buf.drop stop = buf.drop start := by
  obtain ⟨width, rfl⟩ := Nat.exists_eq_add_of_le order
  have cut : slice buf start (start + width) = (buf.drop start).take width := by
    rw [slice, List.drop_take, Nat.add_sub_cancel_left]
  rw [cut, ← List.drop_drop, List.take_append_drop]

theorem slice_join (buf : Bytes) (early : start ≤ middle) (late : middle ≤ stop) :
    slice buf start middle ++ slice buf middle stop = slice buf start stop := by
  have inner := slice_drop (buf.take stop) early
  rw [slice, List.take_take, Nat.min_eq_left late] at inner
  exact inner

end Slices

/-! The first byte. -/

theorem fromByte_toByte {header : Header} (property : header.property < 32)
    (number : header.connectionNumber < maxConnectionNumber) : Header.fromByte header.toByte = header := by
  obtain ⟨kind, connectionNumber, fragmented⟩ := header
  have all : ∀ (kind : Fin 32) (number : Fin 4) (fragmented : Bool),
      Header.fromByte (Header.toByte ⟨UInt8.ofNat kind, UInt8.ofNat number, fragmented⟩) =
        ⟨UInt8.ofNat kind, UInt8.ofNat number, fragmented⟩ := by decide +kernel
  have known := all ⟨kind.toNat, UInt8.lt_iff_toNat_lt.mp property⟩
    ⟨connectionNumber.toNat, UInt8.lt_iff_toNat_lt.mp number⟩ fragmented
  simpa using known

/-- Every byte is a header, and writing it back loses the fragmented bit alone. -/
theorem fromByte_fields (byte : UInt8) :
    (Header.fromByte byte).property = byte &&& 0x1F ∧ (Header.fromByte byte).connectionNumber < maxConnectionNumber ∧
      Header.toByte ⟨(Header.fromByte byte).property, (Header.fromByte byte).connectionNumber, false⟩ =
        byte &&& 0x7F := by
  have all : ∀ value : Fin 256,
      (Header.fromByte (UInt8.ofNat value)).connectionNumber < maxConnectionNumber ∧
      Header.toByte ⟨(Header.fromByte (UInt8.ofNat value)).property,
        (Header.fromByte (UInt8.ofNat value)).connectionNumber, false⟩ = UInt8.ofNat value &&& 0x7F := by
    decide +kernel
  have known := all ⟨byte.toNat, byte.toNat_lt⟩
  rw [UInt8.ofNat_toNat] at known
  exact ⟨rfl, known⟩

/-! Connect requests. -/
section Requests
variable {buf : Bytes}

/-- What a datagram has to be to be read as a connect request. -/
structure WellFormed (buf : Bytes) : Prop where
  header : connectRequestHeaderSize ≤ buf.length
  property : buf.getD 0 0 &&& 0x1F = 5
  size : buf.getD 17 0 = 16 ∨ buf.getD 17 0 = 28
  address : connectRequestHeaderSize + (buf.getD 17 0).toNat ≤ buf.length

def requestOf (buf : Bytes) : ConnectRequest where
  connectionNumber := (Header.fromByte (buf.getD 0 0)).connectionNumber
  protocolId := readI32 buf 1
  connectTime := readI64 buf 5
  peerId := readI32 buf 13
  connectData := buf.drop (connectRequestHeaderSize + (buf.getD 17 0).toNat)

theorem parse_wellFormed (wellFormed : WellFormed buf) : parseConnectRequest buf = some (requestOf buf) := by
  obtain ⟨property, number, -⟩ := fromByte_fields (buf.getD 0 0)
  have size : (buf.getD 17 0).toNat = 16 ∨ (buf.getD 17 0).toNat = 28 :=
    wellFormed.size.imp (congrArg UInt8.toNat) (congrArg UInt8.toNat)
  have known : (Header.fromByte (buf.getD 0 0)).property = Property.connectRequest := property.trans wellFormed.property
  have listed : ¬ ((buf.getD (connectRequestHeaderSize - 1) 0).toNat ≠ 16 ∧
      (buf.getD (connectRequestHeaderSize - 1) 0).toNat ≠ 28) := by
    show ¬ ((buf.getD 17 0).toNat ≠ 16 ∧ (buf.getD 17 0).toNat ≠ 28)
    omega
  unfold parseConnectRequest
  simp only
  rw [if_neg (Nat.not_lt.mpr wellFormed.header), if_neg (Decidable.not_not.mpr known),
    if_neg (UInt8.not_le.mpr number), if_neg listed]
  exact if_neg (Nat.not_lt.mpr wellFormed.address)

theorem wellFormed_of_parse (parsed : (parseConnectRequest buf).isSome = true) : WellFormed buf := by
  unfold parseConnectRequest at parsed
  simp only at parsed
  split at parsed <;> rename_i header
  · cases parsed
  split at parsed <;> rename_i property
  · cases parsed
  split at parsed
  · cases parsed
  split at parsed <;> rename_i size
  · cases parsed
  split at parsed <;> rename_i address
  · cases parsed
  refine ⟨Nat.not_lt.mp header, Decidable.not_not.mp property, ?_, Nat.not_lt.mp address⟩
  rw [← UInt8.toNat_inj, ← UInt8.toNat_inj]
  show (buf.getD (connectRequestHeaderSize - 1) 0).toNat = 16 ∨ (buf.getD (connectRequestHeaderSize - 1) 0).toNat = 28
  omega

theorem build_length (connectionNumber addrSize : UInt8) (connectTime : Int64) (peerId : Int32) (connectData : Bytes) :
    (buildConnectRequest connectionNumber connectTime peerId addrSize connectData).length =
      connectRequestHeaderSize + addrSize.toNat + connectData.length := by
  simp [buildConnectRequest, connectRequestHeaderSize]
  omega

theorem parse_build {connectionNumber addrSize : UInt8} (number : connectionNumber < maxConnectionNumber)
    (size : addrSize = 16 ∨ addrSize = 28) (connectTime : Int64) (peerId : Int32) (connectData : Bytes) :
    parseConnectRequest (buildConnectRequest connectionNumber connectTime peerId addrSize connectData) =
      some { connectionNumber, protocolId, connectTime, peerId, connectData } := by
  have known : Property.connectRequest < 32 := by decide
  have header : Header.fromByte (Header.toByte ⟨Property.connectRequest, connectionNumber, false⟩) =
      ⟨Property.connectRequest, connectionNumber, false⟩ := fromByte_toByte known number
  have length := build_length connectionNumber addrSize connectTime peerId connectData
  have first : (buildConnectRequest connectionNumber connectTime peerId addrSize connectData).getD 0 0 =
      Header.toByte ⟨Property.connectRequest, connectionNumber, false⟩ := rfl
  have address : (buildConnectRequest connectionNumber connectTime peerId addrSize connectData).getD 17 0 =
      addrSize := by
    simp [buildConnectRequest, List.getElem?_append]
  have protocol : slice (buildConnectRequest connectionNumber connectTime peerId addrSize connectData) 1 5 =
      i32Bytes protocolId := by
    simp [buildConnectRequest, slice]
  have time : slice (buildConnectRequest connectionNumber connectTime peerId addrSize connectData) 5 13 =
      i64Bytes connectTime := by
    simp [buildConnectRequest, slice, List.take_append]
  have peer : slice (buildConnectRequest connectionNumber connectTime peerId addrSize connectData) 13 17 =
      i32Bytes peerId := by
    simp [buildConnectRequest, slice, List.take_append, List.drop_append]
  have data : (buildConnectRequest connectionNumber connectTime peerId addrSize connectData).drop
      (connectRequestHeaderSize + addrSize.toNat) = connectData := by
    refine List.drop_left' ?_
    simp [connectRequestHeaderSize]
    omega
  have wellFormed : WellFormed (buildConnectRequest connectionNumber connectTime peerId addrSize connectData) := by
    refine ⟨by rw [length]; omega, ?_, address ▸ size, by rw [length, address]; omega⟩
    rw [first]
    exact congrArg Header.property header
  rw [parse_wellFormed wellFormed, requestOf, first, header, address, data, readI32, readI64, readI32, protocol, time,
    peer, fromLe_i32Bytes, fromLe_i64Bytes, fromLe_i32Bytes]

/-- The builder restores a datagram from its fields, less the fragmented bit, the protocol id and the address. -/
theorem build_parse {request : ConnectRequest} (parsed : parseConnectRequest buf = some request) :
    buildConnectRequest request.connectionNumber request.connectTime request.peerId (buf.getD 17 0)
        request.connectData =
      (buf.getD 0 0 &&& 0x7F) :: i32Bytes protocolId ++ slice buf 5 connectRequestHeaderSize ++
        List.replicate (buf.getD 17 0).toNat 0 ++
        buf.drop (connectRequestHeaderSize + (buf.getD 17 0).toNat) := by
  have wellFormed := wellFormed_of_parse (Option.isSome_of_eq_some parsed)
  rw [parse_wellFormed wellFormed, Option.some.injEq] at parsed
  subst parsed
  have header : 18 ≤ buf.length := wellFormed.header
  obtain ⟨property, -, rewritten⟩ := fromByte_fields (buf.getD 0 0)
  rw [property, wellFormed.property] at rewritten
  have time : i64Bytes (readI64 buf 5) = slice buf 5 13 := by
    refine i64Bytes_fromLe (slice_length ?_)
    omega
  have peer : i32Bytes (readI32 buf 13) = slice buf 13 17 := by
    refine i32Bytes_fromLe (slice_length ?_)
    omega
  have size : [buf.getD 17 0] = slice buf 17 18 := by
    have inside : 17 < buf.length := header
    rw [slice, List.drop_take, List.drop_eq_getElem_cons inside, List.getD_eq_getElem?_getD,
      List.getElem?_eq_getElem inside]
    rfl
  have middle : slice buf 5 13 ++ slice buf 13 17 ++ slice buf 17 18 = slice buf 5 18 := by
    rw [slice_join buf (by decide) (by decide), slice_join buf (by decide) (by decide)]
  unfold buildConnectRequest requestOf
  simp only [time, peer, size, Property.connectRequest, rewritten, connectRequestHeaderSize, ← middle,
    List.append_assoc, List.cons_append]

end Requests

/-! Strings. -/

theorem toList_loop (bytes : ByteArray) (index : Nat) (read : Bytes) :
    ByteArray.toList.loop bytes index read = read.reverse ++ bytes.data.toList.drop index := by
  fun_induction ByteArray.toList.loop bytes index read with
  | case1 index read inside ih =>
      have small : index < bytes.data.size := inside
      have present : index < bytes.data.toList.length := by simpa using inside
      have head : bytes.get! index = bytes.data.toList[index] := by
        rw [ByteArray.get!, getElem!_pos bytes.data index small, Array.getElem_toList]
      rw [ih, List.reverse_cons, List.append_assoc, head, List.singleton_append, List.getElem_cons_drop]
  | case2 index read outside =>
      have past : bytes.data.toList.length ≤ index := by simpa using outside
      rw [List.drop_eq_nil_of_le past, List.append_nil]

theorem toList_eq_data (bytes : ByteArray) : bytes.toList = bytes.data.toList := toList_loop bytes 0 []

theorem fromUTF8_toUTF8 (text : String) : String.fromUTF8? ⟨text.toUTF8.toList.toArray⟩ = some text := by
  have whole : (⟨text.toUTF8.toList.toArray⟩ : ByteArray) = text.toByteArray := by
    rw [toList_eq_data]
    rfl
  rw [whole, String.fromUTF8?, dif_pos text.isValidUTF8]
  rfl

theorem read_write {text : String} (short : text.utf8ByteSize ≤ 65534) (rest : Bytes) :
    readLitenetString (writeLitenetString text ++ rest) = some text := by
  have bytes : text.toUTF8.toList.length = text.utf8ByteSize := by
    rw [toList_eq_data]
    rfl
  unfold writeLitenetString
  simp only
  split <;> rename_i empty
  · have none : text = "" := by
      rw [List.isEmpty_iff_length_eq_zero, bytes] at empty
      exact String.utf8ByteSize_eq_zero_iff.mp empty
    subst none
    have long : ¬ (u16Bytes 0 ++ rest).length < 2 := by
      rw [List.length_append, u16Bytes_length]
      omega
    have word : slice (u16Bytes 0 ++ rest) 0 2 = u16Bytes 0 := by simp [slice]
    rw [readLitenetString, if_neg long]
    simp only
    rw [word, if_pos (by rfl)]
  · have count : (UInt16.ofNat (text.toUTF8.toList.length + 1)).toNat = text.toUTF8.toList.length + 1 :=
      UInt16.toNat_ofNat_of_lt' (by rw [bytes]; show _ < 65536; omega)
    have word : slice (u16Bytes (UInt16.ofNat (text.toUTF8.toList.length + 1)) ++ text.toUTF8.toList ++ rest) 0 2 =
        u16Bytes (UInt16.ofNat (text.toUTF8.toList.length + 1)) := by
      simp [slice]
    have body : slice (u16Bytes (UInt16.ofNat (text.toUTF8.toList.length + 1)) ++ text.toUTF8.toList ++ rest) 2
        (2 + text.toUTF8.toList.length) = text.toUTF8.toList := by
      simp [slice, List.take_append]
    have enough : ¬ (u16Bytes (UInt16.ofNat (text.toUTF8.toList.length + 1)) ++ text.toUTF8.toList ++ rest).length <
        2 + text.toUTF8.toList.length := by
      simp
    unfold readLitenetString
    simp only
    rw [word, fromLe_u16Bytes, count, if_neg (by omega), if_neg (Nat.succ_ne_zero _), Nat.add_sub_cancel,
      if_neg enough, body, fromUTF8_toUTF8]

/-! The packets of a connected peer. -/
section Connected
variable {connectionNumber : UInt8}

theorem header_connected {property : UInt8} (known : property < 32) (number : connectionNumber < maxConnectionNumber) :
    Header.fromByte (Header.connected property connectionNumber).toByte =
      { property, connectionNumber, fragmented := false } :=
  fromByte_toByte known number

theorem read_sequence (byte : UInt8) (sequence : UInt16) (rest : Bytes) :
    readSequence (byte :: u16Bytes sequence ++ rest) = some sequence := by
  have word : slice (byte :: u16Bytes sequence ++ rest) 1 3 = u16Bytes sequence := by simp [slice]
  have enough : ¬ (byte :: u16Bytes sequence ++ rest).length < 3 := by simp
  rw [readSequence, if_neg enough, word, fromLe_u16Bytes, UInt16.ofNat_toNat]

theorem read_disconnectTime (byte : UInt8) (connectTime : Int64) :
    readDisconnectTime (byte :: i64Bytes connectTime) = some connectTime := by
  have word : slice (byte :: i64Bytes connectTime) 1 9 = i64Bytes connectTime := by
    simp [slice, List.take_of_length_le]
  have enough : ¬ (byte :: i64Bytes connectTime).length < disconnectSize := by simp [disconnectSize, headerSize]
  rw [readDisconnectTime, if_neg enough, readI64, word, fromLe_i64Bytes]

end Connected

/-- The readers recover what the builders wrote, and a connect request is read exactly when it is well formed. -/
theorem framing_round_trips :
    (∀ (connectionNumber addrSize : UInt8) (connectTime : Int64) (peerId : Int32) (connectData : Bytes),
      connectionNumber < maxConnectionNumber → addrSize = 16 ∨ addrSize = 28 →
        parseConnectRequest (buildConnectRequest connectionNumber connectTime peerId addrSize connectData) =
          some { connectionNumber, protocolId, connectTime, peerId, connectData }) ∧
    (∀ buf : Bytes, (parseConnectRequest buf).isSome = true ↔ 18 ≤ buf.length ∧ buf.getD 0 0 &&& 0x1F = 5 ∧
      (buf.getD 17 0 = 16 ∨ buf.getD 17 0 = 28) ∧ 18 + (buf.getD 17 0).toNat ≤ buf.length) ∧
    (∀ (buf : Bytes) (request : ConnectRequest), parseConnectRequest buf = some request →
      buildConnectRequest request.connectionNumber request.connectTime request.peerId (buf.getD 17 0)
          request.connectData =
        (buf.getD 0 0 &&& 0x7F) :: i32Bytes protocolId ++ slice buf 5 18 ++
          List.replicate (buf.getD 17 0).toNat 0 ++ buf.drop (18 + (buf.getD 17 0).toNat)) ∧
    (∀ (text : String) (rest : Bytes), text.utf8ByteSize ≤ 65534 →
      readLitenetString (writeLitenetString text ++ rest) = some text) ∧
    ∀ (connectionNumber : UInt8) (sequence : UInt16) (connectTime timeTicks : Int64) (data : Bytes),
      connectionNumber < maxConnectionNumber →
        (Header.fromByte ((buildPing connectionNumber sequence).getD 0 0) =
            ⟨Property.ping, connectionNumber, false⟩ ∧
          readSequence (buildPing connectionNumber sequence) = some sequence) ∧
        (Header.fromByte ((buildPong connectionNumber sequence timeTicks).getD 0 0) =
            ⟨Property.pong, connectionNumber, false⟩ ∧
          readSequence (buildPong connectionNumber sequence timeTicks) = some sequence) ∧
        (Header.fromByte ((buildDisconnect connectionNumber connectTime).getD 0 0) =
            ⟨Property.disconnect, connectionNumber, false⟩ ∧
          readDisconnectTime (buildDisconnect connectionNumber connectTime) = some connectTime) ∧
        (Header.fromByte ((buildUnreliable connectionNumber data).getD 0 0) =
            ⟨Property.unreliable, connectionNumber, false⟩ ∧
          (buildUnreliable connectionNumber data).drop headerSize = data) := by
  refine ⟨?_, ?_, ?_, ?_, ?_⟩
  · intro connectionNumber addrSize connectTime peerId connectData number size
    exact parse_build number size connectTime peerId connectData
  · intro buf
    constructor
    · intro parsed
      obtain ⟨header, property, size, address⟩ := wellFormed_of_parse parsed
      exact ⟨header, property, size, address⟩
    · rintro ⟨header, property, size, address⟩
      rw [parse_wellFormed ⟨header, property, size, address⟩]
      rfl
  · intro buf request parsed
    exact build_parse parsed
  · intro text rest short
    exact read_write short rest
  · intro connectionNumber sequence connectTime timeTicks data number
    refine ⟨⟨header_connected (by decide) number, ?_⟩, ⟨header_connected (by decide) number, ?_⟩,
      ⟨header_connected (by decide) number, ?_⟩, ⟨header_connected (by decide) number, rfl⟩⟩
    · have read := read_sequence (Header.connected Property.ping connectionNumber).toByte sequence []
      rw [List.append_nil] at read
      exact read
    · exact read_sequence _ sequence (i64Bytes timeTicks)
    · exact read_disconnectTime _ connectTime

end SailwindOnline.Framing
