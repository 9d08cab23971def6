import LabelTunnel.Proofs.Checksum.Accumulation
import LabelTunnel.Proofs.Guarded
import LabelTunnel.Proofs.Layer.RoundTrip
import LabelTunnel.Proofs.Packet.Layers

/-! The printers of the layers, checked. Each prints what the printer of its layer prints, in the same order
and behind the same checks, but a length is only written into a word that holds it, and every addition on the
way to a checksum has to fit its 32 bits; otherwise there is nothing, neither octets nor a fault. All of them
give what the printers give, so no printer ever cuts a length or loses a carry. Only the message, which is
printed before any length is looked at, needs a bound for that. -/

namespace LabelTunnel

/-- The word that states a number, or nothing if no word does. -/
def Octets.wordOf? (n : Nat) : Option UInt16 := if n < 65536 then some n.toUInt16 else none

theorem Octets.wordOf?_eq_some_iff {n : Nat} {w : UInt16} : wordOf? n = some w ↔ w.toNat = n := by
  have hlt := w.toNat_lt
  have hword : n.toUInt16.toNat = n % 65536 := UInt16.toNat_ofNat'
  rw [wordOf?]
  split
  · rw [Option.some.injEq, ← UInt16.toNat_inj, hword]
    omega
  · simp only [reduceCtorEq, false_iff]
    omega

theorem Octets.wordOf?_of_le {n : Nat} (h : n ≤ 65535) : wordOf? n = some n.toUInt16 :=
  wordOf?_eq_some_iff.2 (Nat.mod_eq_of_lt (by omega))

namespace Checksum

variable {data : Octets}

theorem add?_carries (sum : UInt32) : add? (sum % 65536) (sum / 65536) = some (foldRound sum) := by
  simp only [add?_eq_some_iff, toNat_foldRound, UInt32.toNat_mod, UInt32.toNat_div, UInt32.reduceToNat]

/-- Adds the carries back like `fold`, each time with a checked addition. -/
def fold? (sum : UInt32) : Option UInt32 :=
  if _hcarry : sum < 65536 then some sum
  else
    match _hround : add? (sum % 65536) (sum / 65536) with
    | none => none
    | some next => fold? next
termination_by sum.toNat
decreasing_by
  have hle : 65536 ≤ sum.toNat := Nat.le_of_not_lt _hcarry
  rw [add?_carries, Option.some.injEq] at _hround
  rw [← _hround, toNat_foldRound]
  omega

theorem fold?_eq_some (sum : UInt32) : fold? sum = some (fold sum) := by
  induction sum using fold.induct with
  | case1 sum h => rw [fold?, dif_pos h, fold, if_pos h]
  | case2 sum h ih =>
      rw [fold?, dif_neg h, fold, if_neg h]
      split
      · rename_i hround
        cases hround.symm.trans (add?_carries sum)
      · rename_i next hround
        rw [add?_carries, Option.some.injEq] at hround
        rwa [← hround]

def ofSum? (sum : UInt32) : Option UInt16 := do return ~~~(← fold? sum).toUInt16

theorem ofSum?_eq_some (sum : UInt32) : ofSum? sum = some (ofSum sum) := by
  rw [ofSum?, fold?_eq_some]
  rfl

def compute? (data : Octets) : Option UInt16 := do ofSum? (← addWords? 0 data)

theorem compute?_of_le (h : data.length ≤ 131072) : compute? data = some (compute data) := by
  rw [compute?, (lossless_compute h).checked_eq, Option.bind_eq_bind, Option.bind_some, ofSum?_eq_some, compute]

def pseudoHeader? (source destination : Address) (protocol : UInt8) (length : Nat) : Option Octets := do
  return source.octets ++ destination.octets ++ [0, protocol] ++ Octets.ofWord (← Octets.wordOf? length)

def computeTransport? (source destination : Address) (protocol : UInt8) (data : Octets) : Option UInt16 := do
  let front ← pseudoHeader? source destination protocol data.length
  ofSum? (← addWords? (← addWords? 0 front) data)

/-- Here the length field of the pseudo-header is the tighter bound. -/
theorem computeTransport?_of_le (source destination : Address) (protocol : UInt8) (h : data.length ≤ 65535) :
    computeTransport? source destination protocol data =
      some (computeTransport source destination protocol data) := by
  have hfront : pseudoHeader? source destination protocol data.length =
      some (pseudoHeader source destination protocol data.length) := by
    rw [pseudoHeader?, Octets.wordOf?_of_le h]
    rfl
  have hroom : 12 + data.length ≤ 131072 := by omega
  have hchecked := (lossless_computeTransport source destination protocol hroom).checked_eq
  rw [computeTransport?, hfront]
  simp only [Option.bind_eq_bind, Option.bind_some]
  rw [← Option.bind_assoc, hchecked, Option.bind_some, ofSum?_eq_some, computeTransport]

end Checksum

/-! ### The layers -/

namespace EchoMessage

def encode? (m : EchoMessage) : Guarded Octets := do
  let checksum ← Checksum.compute? (m.layout 0)
  return m.layout checksum

theorem gives_encode {m : EchoMessage} (h : m.size ≤ 131072) : m.encode?.Gives (.ok m.encode) := by
  refine Guarded.Gives.read (Checksum.compute?_of_le ?_) ?_
  · rwa [length_layout]
  · exact Guarded.gives_pure _

end EchoMessage

namespace InternetDatagram

def encode? (d : InternetDatagram) : Guarded Octets := do
  if 65535 < d.size then throw (.construction (.internetTooLong d.payload.length))
  let total ← Octets.wordOf? d.size
  let checksum ← Checksum.compute? (d.header total 0)
  return d.header total checksum ++ d.payload

theorem encode_eq (d : InternetDatagram) : d.encode =
    if 65535 < d.size then .error (.construction (.internetTooLong d.payload.length))
    else .ok (d.header d.size.toUInt16 (Checksum.compute (d.header d.size.toUInt16 0)) ++ d.payload) := by
  split
  · rename_i hlong
    exact encode_of_lt hlong
  · rename_i hsize
    exact encode_of_le (Nat.le_of_not_lt hsize)

theorem gives_encode (d : InternetDatagram) : d.encode?.Gives d.encode := by
  rw [encode_eq]
  refine Guarded.Gives.check ?_
  intro hsize
  refine Guarded.Gives.read (Octets.wordOf?_of_le (Nat.le_of_not_lt hsize)) ?_
  refine Guarded.Gives.read (Checksum.compute?_of_le ?_) ?_
  · rw [length_header, headerSize]
    decide
  · exact Guarded.gives_pure _

end InternetDatagram

namespace UserDatagram

def sentChecksum? (source destination : Address) (data : Octets) : Option UInt16 := do
  let checksum ← Checksum.computeTransport? source destination Protocol.udp.number data
  return if checksum = 0 then 0xFFFF else checksum

def encode? (d : UserDatagram) (source destination : Address) : Guarded Octets := do
  if 65535 < d.size then throw (.construction (.userTooLong d.payload.length))
  let length ← Octets.wordOf? d.size
  let checksum ← sentChecksum? source destination (d.layout length 0)
  return d.layout length checksum

theorem sentChecksum?_of_le (source destination : Address) {data : Octets} (h : data.length ≤ 65535) :
    sentChecksum? source destination data = some (sentChecksum source destination data) := by
  rw [sentChecksum?, Checksum.computeTransport?_of_le _ _ _ h]
  rfl

theorem encode_eq (d : UserDatagram) (source destination : Address) : d.encode source destination =
    if 65535 < d.size then .error (.construction (.userTooLong d.payload.length))
    else .ok (d.layout d.size.toUInt16 (sentChecksum source destination (d.layout d.size.toUInt16 0))) := by
  split
  · rename_i hlong
    exact encode_of_lt hlong source destination
  · rename_i hsize
    exact encode_of_le (Nat.le_of_not_lt hsize) source destination

theorem gives_encode (d : UserDatagram) (source destination : Address) :
    (d.encode? source destination).Gives (d.encode source destination) := by
  rw [encode_eq]
  refine Guarded.Gives.check ?_
  intro hsize
  have hle : d.size ≤ 65535 := Nat.le_of_not_lt hsize
  refine Guarded.Gives.read (Octets.wordOf?_of_le hle) ?_
  refine Guarded.Gives.read (sentChecksum?_of_le source destination ?_) ?_
  · rwa [length_layout]
  · exact Guarded.gives_pure _

end UserDatagram

/-! ### The packet -/

namespace Packet

def encode? (p : Packet) : Guarded Octets := do
  let message ← p.message.encode?
  let inner ← (p.inner.wrap .icmp message).encode?
  let tunnel ← (p.tunnelDatagram inner).encode? p.outer.source p.outer.destination
  (p.outer.wrap .udp tunnel).encode?

/-- Within the bound the words of the message fit the accumulator, and the lengths are checked. -/
theorem gives_encode {p : Packet} (h : p.payload.length ≤ 131064) : p.encode?.Gives p.encode := by
  have hmessage : p.message.size ≤ 131072 := by
    rw [size_message]
    omega
  refine (EchoMessage.gives_encode hmessage).andThen ?_
  refine (InternetDatagram.gives_encode p.innerDatagram).bind ?_
  intro inner _
  refine (UserDatagram.gives_encode (p.tunnelDatagram inner) _ _).bind ?_
  intro tunnel _
  exact InternetDatagram.gives_encode _

end Packet

end LabelTunnel
