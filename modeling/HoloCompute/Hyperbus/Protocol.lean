import HoloCompute.Go.Bytes

/-!
# The hyperbus frame format

`EncodeMessage` and `DecodeHeader` of `internal/hyperbus/protocol.go`. A frame is a 6-byte
big-endian header, `Type` (a `uint16`) then `Size` (a `uint32`, the payload length converted
with `uint32(len(data))`), followed by the payload. `proto.Marshal` is outside the model: the
payload is the bytes it returned.

`DecodeHeader` reads the first six bytes of its argument with `binary.Read` and fails on fewer;
on a frame's header it recovers the type and the payload length (`decodeHeader_headerBytes_frame`).
-/

namespace HoloCompute.Hyperbus
set_option autoImplicit false
open HoloCompute.Go

/-- `NodeID`, a node's name. -/
abbrev NodeID := String

/-- `MsgControlHello`, the first `MessageType`. -/
def msgControlHello : Nat := 0

/-- `MessageHeader`: the values of its `uint16` and `uint32` fields. -/
structure MessageHeader where
  type : Nat
  size : Nat
  deriving DecidableEq, Repr

/-- `DecodeHeader`'s error: `"failed to read header: %w"` around `binary.Read`'s end of input. -/
inductive HeaderError where
  | failedToReadHeader
  deriving DecidableEq, Repr

/-- The six header bytes of a frame. -/
def headerBytes (msgType : Nat) (size : Nat) : List (BitVec 8) := beBytes 2 msgType ++ beBytes 4 size

/-- `EncodeMessage(msgType, pb)` for the bytes `data` that `proto.Marshal(pb)` returned. -/
def encodeMessage (msgType : Nat) (data : List (BitVec 8)) : List (BitVec 8) :=
  headerBytes msgType (data.length % 4294967296) ++ data

/-- `DecodeHeader(data)`. -/
def decodeHeader (data : List (BitVec 8)) : Except HeaderError MessageHeader :=
  if data.length < 6 then .error .failedToReadHeader
  else .ok ⟨beValue (data.take 2), beValue ((data.drop 2).take 4)⟩

@[simp] theorem length_headerBytes (msgType size : Nat) : (headerBytes msgType size).length = 6 := by
  simp [headerBytes]

@[simp] theorem length_encodeMessage (msgType : Nat) (data : List (BitVec 8)) :
    (encodeMessage msgType data).length = data.length + 6 := by
  simp [encodeMessage, Nat.add_comm]

@[simp] theorem encodeMessage_ne_nil (msgType : Nat) (data : List (BitVec 8)) :
    encodeMessage msgType data ≠ [] :=
  List.ne_nil_of_length_pos (by simp)

theorem decodeHeader_headerBytes (msgType size : Nat) (rest : List (BitVec 8)) :
    decodeHeader (headerBytes msgType size ++ rest) = .ok ⟨msgType % 65536, size % 4294967296⟩ := by
  have h₂ : (beBytes 2 msgType).length = 2 := length_beBytes 2 msgType
  have h₄ : (beBytes 4 size).length = 4 := length_beBytes 4 size
  simp only [decodeHeader, headerBytes, List.length_append, h₂, h₄, List.append_assoc]
  rw [if_neg (by omega), List.take_left' h₂, List.drop_left' h₂, List.take_left' h₄]
  exact congrArg Except.ok (congrArg₂ MessageHeader.mk (beValue_beBytes 2 msgType) (beValue_beBytes 4 size))

/-- `DecodeHeader` recovers a frame's type and payload length from its header, when the length
fits a `uint32`. -/
theorem decodeHeader_headerBytes_frame {msgType : Nat} (ht : msgType < 65536) {data : List (BitVec 8)}
    (hd : data.length < 4294967296) :
    decodeHeader (headerBytes msgType (data.length % 4294967296)) = .ok ⟨msgType, data.length⟩ := by
  have h := decodeHeader_headerBytes msgType (data.length % 4294967296) []
  rw [List.append_nil] at h
  rw [h, Nat.mod_eq_of_lt ht, Nat.mod_mod, Nat.mod_eq_of_lt hd]

end HoloCompute.Hyperbus
