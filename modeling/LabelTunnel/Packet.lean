import LabelTunnel.Layer.Internet
import LabelTunnel.Layer.User
import LabelTunnel.Layer.Echo
import LabelTunnel.Layer.Label

/-! The packets of the tunnel: an echo message inside an inner internet datagram, behind one label,
inside a user datagram, inside an outer internet datagram. A packet is kept as the fields that its
layers are free to choose; printing derives lengths and checksums, innermost layer first. A packet also
has a text of one line, outermost layer first. -/

namespace LabelTunnel

/-- The free fields of an internet datagram of the tunnel. -/
structure Envelope where
  source : Address
  destination : Address
  ttl : UInt8 := 64
  identification : UInt16 := 1
  deriving DecidableEq

namespace Envelope

def wrap (e : Envelope) (protocol : Protocol) (payload : Octets) : InternetDatagram :=
  { source := e.source, destination := e.destination, ttl := e.ttl
    identification := e.identification, protocol, payload }

def ofDatagram (d : InternetDatagram) : Envelope := ⟨d.source, d.destination, d.ttl, d.identification⟩

end Envelope

structure Ports where
  source : UInt16
  destination : UInt16
  deriving DecidableEq

structure EchoHeader where
  kind : EchoKind := .request
  code : UInt8 := 0
  identifier : UInt16 := 0
  sequence : UInt16 := 0
  deriving DecidableEq

structure Packet where
  outer : Envelope
  ports : Ports
  label : LabelEntry
  inner : Envelope
  echo : EchoHeader
  payload : Octets
  deriving DecidableEq

namespace Packet

/-- The octets that the five headers put around a payload. -/
def overhead : Nat :=
  InternetDatagram.headerSize + UserDatagram.headerSize + LabelEntry.size +
    InternetDatagram.headerSize + EchoMessage.headerSize

def size (p : Packet) : Nat := overhead + p.payload.length

def message (p : Packet) : EchoMessage :=
  { kind := p.echo.kind, code := p.echo.code, identifier := p.echo.identifier
    sequence := p.echo.sequence, payload := p.payload }

/-- What the tunnel carries behind the label. -/
def innerDatagram (p : Packet) : InternetDatagram := p.inner.wrap .icmp p.message.encode

/-- The user datagram around a printed inner datagram. -/
def tunnelDatagram (p : Packet) (inner : Octets) : UserDatagram :=
  { sourcePort := p.ports.source, destinationPort := p.ports.destination
    payload := p.label.encode ++ inner }

/-- The innermost layer that is too long for its length field decides the fault. -/
def encode (p : Packet) : Except Fault Octets := do
  let inner ← p.innerDatagram.encode
  let tunnel ← (p.tunnelDatagram inner).encode p.outer.source p.outer.destination
  (p.outer.wrap .udp tunnel).encode

/-- Reads the layers from the outside in. The tunnel carries exactly one label. -/
def decode (data : Octets) : Except Fault Packet := do
  let outer ← InternetDatagram.decode data
  if outer.protocol ≠ .udp then throw (.parsing (.outerProtocol outer.protocol))
  let tunnel ← UserDatagram.decode outer.payload
  let stack ← LabelStack.decode tunnel.payload
  let [label] := stack | throw (.parsing (.labelCount stack.length))
  let inner ← InternetDatagram.decode (tunnel.payload.drop (LabelStack.size stack))
  if inner.protocol ≠ .icmp then throw (.parsing (.innerProtocol inner.protocol))
  let message ← EchoMessage.decode inner.payload
  return {
    outer := .ofDatagram outer
    ports := ⟨tunnel.sourcePort, tunnel.destinationPort⟩
    label
    inner := .ofDatagram inner
    echo := ⟨message.kind, message.code, message.identifier, message.sequence⟩
    payload := message.payload }

/-! ### The line of a packet

Fields stand between fixed words, and a payload octet that is not printable, or could be taken for the
quotes around the payload, is escaped; so the line has printable ASCII characters only and shows every
field but the two identifications. -/

/-- How a payload octet is shown: two characters for tab, line feed, carriage return, the quotes and
the backslash, the character itself if it is printable, and two hexadecimal digits otherwise. -/
def escape (octet : UInt8) : List Char :=
  if octet = 9 then ['\\', 't']
  else if octet = 10 then ['\\', 'n']
  else if octet = 13 then ['\\', 'r']
  else if octet = 34 ∨ octet = 39 ∨ octet = 92 then ['\\', Char.ofNat octet.toNat]
  else if 32 ≤ octet ∧ octet ≤ 126 then [Char.ofNat octet.toNat]
  else ['\\', 'x', Nat.digitChar (octet / 16).toNat, Nat.digitChar (octet % 16).toNat]

def payloadText (p : Packet) : String := String.ofList (p.payload.flatMap escape)

/-- The packet on one line, without a line break. -/
def summary (p : Packet) : String :=
  "<IP src=" ++ p.outer.source.text ++ " dst=" ++ p.outer.destination.text ++
    " proto=udp ttl=" ++ Numeral.text p.outer.ttl.toNat ++
  " |<UDP sport=" ++ Numeral.text p.ports.source.toNat ++
    " dport=" ++ Numeral.text p.ports.destination.toNat ++
  " |<" ++ p.label.text ++
  " |<IP src=" ++ p.inner.source.text ++ " dst=" ++ p.inner.destination.text ++
    " proto=icmp ttl=" ++ Numeral.text p.inner.ttl.toNat ++
  " |<ICMP type=" ++ p.echo.kind.text ++ " code=" ++ Numeral.text p.echo.code.toNat ++
    " id=" ++ Numeral.text p.echo.identifier.toNat ++
    " seq=" ++ Numeral.text p.echo.sequence.toNat ++
  " |<Raw load='" ++ p.payloadText ++ "' (" ++ Numeral.text p.payload.length ++ " bytes) |>>>>>>"

end Packet

end LabelTunnel
