import LabelTunnel.Checksum
import LabelTunnel.Fault

/-! User datagrams. Their checksum covers the addresses of the internet datagram around them, so the
printer and the verifier take these addresses. A checksum field of zero says that none was computed;
a checksum that comes out as zero is therefore sent as the other zero, all ones. -/

namespace LabelTunnel

/-- A user datagram. The checksum is the one last read; the printer computes its own. -/
structure UserDatagram where
  sourcePort : UInt16
  destinationPort : UInt16
  checksum : UInt16 := 0
  payload : Octets
  deriving DecidableEq

namespace UserDatagram

def headerSize : Nat := 8

def size (d : UserDatagram) : Nat := headerSize + d.payload.length

/-- The length field, which has 16 bits. -/
def lengthField (d : UserDatagram) : Except Fault UInt16 :=
  if d.size ≤ 65535 then .ok d.size.toUInt16
  else .error (.construction (.userTooLong d.payload.length))

def layout (d : UserDatagram) (length checksum : UInt16) : Octets :=
  Octets.ofWord d.sourcePort ++ Octets.ofWord d.destinationPort ++ Octets.ofWord length ++
    Octets.ofWord checksum ++ d.payload

/-- The checksum of a datagram whose checksum field is zero, never zero itself. -/
def sentChecksum (source destination : Address) (data : Octets) : UInt16 :=
  let checksum := Checksum.computeTransport source destination Protocol.udp.number data
  if checksum = 0 then 0xFFFF else checksum

def encode (d : UserDatagram) (source destination : Address) : Except Fault Octets :=
  d.lengthField.map fun length =>
    d.layout length (sentChecksum source destination (d.layout length 0))

/-- The payload ends where the length field says; what follows is padding. -/
def decode (data : Octets) : Except Fault UserDatagram :=
  let length := (data.wordAt 4).toNat
  if data.length < headerSize then .error (.parsing (.userShort data.length))
  else if length < headerSize ∨ data.length < length then
    .error (.parsing (.userLength length data.length))
  else .ok {
    sourcePort := data.wordAt 0
    destinationPort := data.wordAt 2
    checksum := data.wordAt 6
    payload := data.slice headerSize length }

/-- Whether a printed datagram is intact between the given addresses. All the octets given count,
also those behind the length field's end. -/
def verify (data : Octets) (source destination : Address) : Bool :=
  decide (headerSize ≤ data.length) &&
    (data.wordAt 6 == 0 ||
      Checksum.isZero (Checksum.computeTransport source destination Protocol.udp.number data))

@[simp] theorem length_layout (d : UserDatagram) (length checksum : UInt16) :
    (d.layout length checksum).length = d.size := by
  simp [layout, size, headerSize]
  omega

end UserDatagram

end LabelTunnel
