import LabelTunnel.Proofs.Packet.Canonical
import LabelTunnel.Proofs.Packet.Guarded
import LabelTunnel.Proofs.Packet.Places

/-! Which octets are a packet, and which packet they are. The reader accepts exactly the data whose layers
fit in each other at their places, takes every field from its place, and fails otherwise because the data
is no packet. Of the octets only those count that state a length, a protocol or a field; checksums, service
types, fragment words, header options and all paddings do not. -/

namespace LabelTunnel

open InternetDatagram (headerLengthAt totalLengthAt HeadedAt)

variable {data other : Octets} {start stop : Nat}

namespace Packet

section

variable (data : Octets)

/-- Where the tunnel begins: behind the outer header and its options. -/
def tunnelAt : Nat := headerLengthAt data 0

def tunnelLength : Nat := UserDatagram.lengthAt data (tunnelAt data)

/-- Where the inner datagram begins: behind the tunnel's header and one label. -/
def innerAt : Nat := tunnelAt data + 12

def messageAt : Nat := innerAt data + headerLengthAt data (innerAt data)

/-- Where the inner datagram ends, and its message with it. -/
def messageEnd : Nat := innerAt data + totalLengthAt data (innerAt data)

/-- The layers fit in each other. The tunnel stands between the outer header and the outer total length and
holds its own length, that length covers a label with the bottom bit and the inner datagram, and the
message stands between the inner header and the inner total length. -/
structure Accepted : Prop where
  outer : HeadedAt data 0 data.length
  outerUdp : data.byteAt 9 = 17
  tunnelRoom : tunnelAt data + 8 ≤ totalLengthAt data 0
  tunnelCovers : 12 ≤ tunnelLength data
  tunnelAvailable : tunnelAt data + tunnelLength data ≤ totalLengthAt data 0
  bottom : data.byteAt (tunnelAt data + 10) % 2 = 1
  inner : HeadedAt data (innerAt data) (tunnelAt data + tunnelLength data)
  innerIcmp : data.byteAt (innerAt data + 9) = 1
  messageRoom : messageAt data + 8 ≤ messageEnd data

def envelopeAt (start : Nat) : Envelope where
  source := .ofOctetsAt data (start + 12)
  destination := .ofOctetsAt data (start + 16)
  ttl := data.byteAt (start + 8)
  identification := data.wordAt (start + 4)

def portsAt (start : Nat) : Ports := ⟨data.wordAt start, data.wordAt (start + 2)⟩

def echoAt (start : Nat) : EchoHeader where
  kind := .ofNumber (data.byteAt start)
  code := data.byteAt (start + 1)
  identifier := data.wordAt (start + 4)
  sequence := data.wordAt (start + 6)

/-- The packet whose fields stand at their places. -/
def ofFieldsAt : Packet where
  outer := envelopeAt data 0
  ports := portsAt data (tunnelAt data)
  label := .ofFieldsAt data (tunnelAt data + 8)
  inner := envelopeAt data (innerAt data)
  echo := echoAt data (messageAt data)
  payload := data.slice (messageAt data + 8) (messageEnd data)

def layersAt : Layers where
  outer := .ofFieldsAt data 0
  tunnel := .ofFieldsAt data (tunnelAt data)
  label := .ofFieldsAt data (tunnelAt data + 8)
  inner := .ofFieldsAt data (innerAt data)
  message := .ofFieldsAt data (messageAt data) (messageEnd data)

/-! What each layer holds is again a part of the data. -/

theorem payload_outer : (InternetDatagram.ofFieldsAt data 0).payload =
    data.slice (tunnelAt data) (totalLengthAt data 0) := by
  show data.slice (0 + _) (0 + _) = _
  rw [Nat.zero_add, Nat.zero_add, tunnelAt]

theorem payload_tunnel : (UserDatagram.ofFieldsAt data (tunnelAt data)).payload =
    data.slice (tunnelAt data + 8) (tunnelAt data + tunnelLength data) := rfl

theorem drop_label : (other.slice (tunnelAt data + 8) stop).drop LabelEntry.size = other.slice (innerAt data) stop :=
  Octets.drop_slice ..

theorem payload_inner : (InternetDatagram.ofFieldsAt data (innerAt data)).payload =
    data.slice (messageAt data) (messageEnd data) := rfl

theorem decode_outer_iff {d : InternetDatagram} :
    InternetDatagram.decode data = .ok d ↔ HeadedAt data 0 data.length ∧ d = .ofFieldsAt data 0 := by
  rw [← InternetDatagram.decode_slice_eq_ok_iff (Nat.le_refl _), Octets.slice_zero_length]

end

/-- The layers are read exactly if they fit in each other, and each at its place: from the outside in, each in
the part that the one around it was found to hold. -/
theorem Layers.read_iff {l : Layers} : l.Read data ↔ Accepted data ∧ l = layersAt data := by
  constructor
  · rintro ⟨houter, hudp, htunnel, hlabel, hinner, hicmp, hmessage⟩
    obtain ⟨outer, tunnel, label, inner, message⟩ := l
    dsimp only at houter hudp htunnel hlabel hinner hicmp hmessage
    obtain ⟨hhead, rfl⟩ := (decode_outer_iff data).1 houter
    have hend := hhead.available
    rw [payload_outer] at htunnel
    obtain ⟨⟨hroom, -, hfit⟩, rfl⟩ := (UserDatagram.decode_slice_eq_ok_iff (by omega)).1 htunnel
    have hpart : tunnelAt data + tunnelLength data ≤ totalLengthAt data 0 := hfit
    rw [payload_tunnel] at hlabel hinner
    obtain ⟨⟨hcovers, hbottom⟩, rfl⟩ := (LabelStack.decode_slice_eq_ok_iff (by omega)).1 hlabel
    rw [drop_label] at hinner
    obtain ⟨hhead', rfl⟩ := (InternetDatagram.decode_slice_eq_ok_iff (by omega)).1 hinner
    have hend' : messageEnd data ≤ tunnelAt data + tunnelLength data := hhead'.available
    rw [payload_inner] at hmessage
    obtain ⟨hroom', rfl⟩ := (EchoMessage.decode_slice_eq_ok_iff (by omega)).1 hmessage
    exact ⟨⟨hhead, (Protocol.ofNumber_eq_udp_iff _).1 hudp, hroom, by omega, hpart, hbottom, hhead',
      (Protocol.ofNumber_eq_icmp_iff _).1 hicmp, hroom'⟩, rfl⟩
  · rintro ⟨⟨houter, hudp, hroom, hcovers, havailable, hbottom, hinner, hicmp, hmessage⟩, rfl⟩
    have hend := houter.available
    have hend' : messageEnd data ≤ tunnelAt data + tunnelLength data := hinner.available
    have hlength : 8 ≤ UserDatagram.lengthAt data (tunnelAt data) := Nat.le_trans (by decide) hcovers
    refine ⟨(decode_outer_iff data).2 ⟨houter, rfl⟩, (Protocol.ofNumber_eq_udp_iff _).2 hudp, ?_, ?_, ?_,
      (Protocol.ofNumber_eq_icmp_iff _).2 hicmp, ?_⟩
    · rw [layersAt, payload_outer]
      exact (UserDatagram.decode_slice_eq_ok_iff (by omega)).2 ⟨⟨hroom, hlength, havailable⟩, rfl⟩
    · rw [layersAt, payload_tunnel]
      exact (LabelStack.decode_slice_eq_ok_iff (by omega)).2 ⟨⟨by omega, hbottom⟩, rfl⟩
    · rw [layersAt, payload_tunnel, drop_label]
      exact (InternetDatagram.decode_slice_eq_ok_iff (by omega)).2 ⟨hinner, rfl⟩
    · rw [layersAt, payload_inner]
      exact (EchoMessage.decode_slice_eq_ok_iff (by omega)).2 ⟨hmessage, rfl⟩

theorem decode_eq_ok_iff_accepted {p : Packet} : decode data = .ok p ↔ Accepted data ∧ p = ofFieldsAt data := by
  rw [decode_eq_ok_iff]
  constructor
  · rintro ⟨l, hread, rfl⟩
    obtain ⟨haccepted, rfl⟩ := Layers.read_iff.1 hread
    exact ⟨haccepted, rfl⟩
  · rintro ⟨haccepted, rfl⟩
    exact ⟨layersAt data, Layers.read_iff.2 ⟨haccepted, rfl⟩, rfl⟩

end Packet

end LabelTunnel
