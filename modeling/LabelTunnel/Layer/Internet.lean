import LabelTunnel.Checksum
import LabelTunnel.Fault

/-! Internet datagrams of version 4 with a header of 20 octets. The printer fills in the lengths and
the header checksum; the reader steps over header options and past padding behind the total length,
and takes the checksum as it finds it. -/

namespace LabelTunnel

structure FragmentFlags where
  dontFragment : Bool := false
  moreFragments : Bool := false
  deriving DecidableEq

namespace FragmentFlags

/-- The three-bit field; its reserved top bit is clear. -/
def bits (f : FragmentFlags) : UInt8 := 2 * f.dontFragment.toUInt8 + f.moreFragments.toUInt8

def ofBits (bits : UInt8) : FragmentFlags := ⟨bits / 2 % 2 == 1, bits % 2 == 1⟩

end FragmentFlags

/-- An internet datagram. The checksum is the one last read; the printer computes its own. -/
structure InternetDatagram where
  serviceType : UInt8 := 0
  identification : UInt16 := 1
  flags : FragmentFlags := {}
  ttl : UInt8 := 64
  protocol : Protocol
  checksum : UInt16 := 0
  source : Address
  destination : Address
  payload : Octets
  deriving DecidableEq

namespace InternetDatagram

/-- The length of a header without options. -/
def headerSize : Nat := 20

def size (d : InternetDatagram) : Nat := headerSize + d.payload.length

/-- The total length field, which has 16 bits. -/
def totalLength (d : InternetDatagram) : Except Fault UInt16 :=
  if d.size ≤ 65535 then .ok d.size.toUInt16
  else .error (.construction (.internetTooLong d.payload.length))

/-- The header with the given length and checksum fields; the fragment offset is zero. -/
def header (d : InternetDatagram) (totalLength checksum : UInt16) : Octets :=
  [0x45, d.serviceType] ++ Octets.ofWord totalLength ++ Octets.ofWord d.identification ++
    Octets.ofWord (d.flags.bits.toUInt16 * 8192) ++ [d.ttl, d.protocol.number] ++
    Octets.ofWord checksum ++ d.source.octets ++ d.destination.octets

def encode (d : InternetDatagram) : Except Fault Octets :=
  d.totalLength.map fun length => d.header length (Checksum.compute (d.header length 0)) ++ d.payload

/-- The checks run from the front of the header: enough octets for it, its version, its own length,
then the total length, each against the octets at hand. -/
def decode (data : Octets) : Except Fault InternetDatagram :=
  let version := data.byteAt 0 / 16
  let headerLength := 4 * (data.byteAt 0 % 16).toNat
  let totalLength := (data.wordAt 2).toNat
  if data.length < headerSize then .error (.parsing (.internetShort data.length))
  else if version ≠ 4 then .error (.parsing (.version version))
  else if headerLength < headerSize ∨ data.length < headerLength then
    .error (.parsing (.headerLength headerLength))
  else if totalLength < headerLength ∨ data.length < totalLength then
    .error (.parsing (.totalLength totalLength data.length))
  else .ok {
    serviceType := data.byteAt 1
    identification := data.wordAt 4
    flags := .ofBits (data.byteAt 6 / 32)
    ttl := data.byteAt 8
    protocol := .ofNumber (data.byteAt 9)
    checksum := data.wordAt 10
    source := .ofOctetsAt data 12
    destination := .ofOctetsAt data 16
    payload := data.slice headerLength totalLength }

@[simp] theorem length_header (d : InternetDatagram) (totalLength checksum : UInt16) :
    (d.header totalLength checksum).length = headerSize := rfl

end InternetDatagram

end LabelTunnel
