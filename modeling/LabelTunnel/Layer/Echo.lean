import LabelTunnel.Checksum
import LabelTunnel.Fault

/-! Control messages with an echo header: a kind, a code, an identifier, a sequence number and a
payload that runs to the end of the data. -/

namespace LabelTunnel

/-- An echo message. The checksum is the one last read; the printer computes its own. -/
structure EchoMessage where
  kind : EchoKind := .request
  code : UInt8 := 0
  identifier : UInt16 := 0
  sequence : UInt16 := 0
  checksum : UInt16 := 0
  payload : Octets
  deriving DecidableEq

namespace EchoMessage

def headerSize : Nat := 8

def size (m : EchoMessage) : Nat := headerSize + m.payload.length

def layout (m : EchoMessage) (checksum : UInt16) : Octets :=
  [m.kind.number, m.code] ++ Octets.ofWord checksum ++ Octets.ofWord m.identifier ++
    Octets.ofWord m.sequence ++ m.payload

def encode (m : EchoMessage) : Octets := m.layout (Checksum.compute (m.layout 0))

def decode (data : Octets) : Except Fault EchoMessage :=
  if data.length < headerSize then .error (.parsing (.echoShort data.length))
  else .ok {
    kind := .ofNumber (data.byteAt 0)
    code := data.byteAt 1
    checksum := data.wordAt 2
    identifier := data.wordAt 4
    sequence := data.wordAt 6
    payload := data.drop headerSize }

def verify (data : Octets) : Bool := decide (headerSize ≤ data.length) && Checksum.verify data

@[simp] theorem length_layout (m : EchoMessage) (checksum : UInt16) :
    (m.layout checksum).length = m.size := by
  simp [layout, size, headerSize]
  omega

end EchoMessage

end LabelTunnel
