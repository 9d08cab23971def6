import LabelTunnel.Proofs.Checksum.Accumulation
import LabelTunnel.Proofs.Checksum.Patch
import LabelTunnel.Proofs.Packet.Canonical

/-! The checksum of the tunnel. Octets that hold their own checksum sum to a multiple of 65535. In the tunnel
the inner internet header and the echo message are such octets, both at even offsets, so they leave no trace
in the checksum over them: it comes from the addresses, the ports, the length and the label alone. -/

namespace LabelTunnel

theorem Checksum.residue_add {sum rest : Nat} (hsum : sum ≠ 0) (hrest : rest % 65535 = 0) :
    residue (sum + rest) = residue sum := by
  rw [residue, residue, if_neg hsum, if_neg (by omega)]
  omega

theorem InternetDatagram.wordSum_header_mod (d : InternetDatagram) (total : UInt16) :
    Checksum.wordSum (d.header total (Checksum.compute (d.header total 0))) % 65535 = 0 := by
  refine (Checksum.verify_iff ?_).1 (verify_header d total)
  rw [length_header, headerSize]
  decide

theorem EchoMessage.wordSum_encode_mod {m : EchoMessage} (h : m.size ≤ 131072) :
    Checksum.wordSum m.encode % 65535 = 0 := by
  have hverify := verify_encode h
  rw [verify, Bool.and_eq_true] at hverify
  exact (Checksum.verify_iff (by rwa [length_encode])).1 hverify.2

namespace UserDatagram

theorem wordSum_layout (d : UserDatagram) (length checksum : UInt16) :
    Checksum.wordSum (d.layout length checksum) = d.sourcePort.toNat + d.destinationPort.toNat +
      length.toNat + checksum.toNat + Checksum.wordSum d.payload := by
  simp only [layout, List.append_assoc, Checksum.wordSum_ofWord_append]
  omega

/-- The field holds the complement of the sum, and all ones in place of zero. -/
theorem toNat_sentChecksum (source destination : Address) {data : Octets} (h : 12 + data.length ≤ 131072)
    {sum : Nat} (hsum : Checksum.residue
      (Checksum.pseudoSum source destination 17 data.length + Checksum.wordSum data) = sum) :
    (sentChecksum source destination data).toNat = if sum = 65535 then 65535 else 65535 - sum := by
  have hcomputed := Checksum.toNat_computeTransport source destination Protocol.udp.number h
  have hlt : sum < 65536 := hsum ▸ Checksum.residue_lt _
  have hnumber : Protocol.udp.number = 17 := rfl
  rw [hnumber, hsum] at hcomputed
  simp only [sentChecksum, hnumber, ← UInt16.toNat_inj, apply_ite UInt16.toNat, UInt16.reduceToNat, hcomputed]
  split <;> split <;> omega

end UserDatagram

namespace Packet

variable {p q : Packet} {inner bytes : Octets}

/-- What is tunnelled counts for nothing modulo 65535. -/
theorem wordSum_inner_mod (h : p.innerDatagram.encode = .ok inner) :
    Checksum.wordSum inner % 65535 = 0 := by
  obtain ⟨hsize, rfl⟩ := InternetDatagram.encode_eq_ok_iff.1 h
  have hpayload : p.innerDatagram.payload = p.message.encode := rfl
  have hheader := InternetDatagram.wordSum_header_mod p.innerDatagram p.innerDatagram.size.toUInt16
  have hmessage : Checksum.wordSum p.message.encode % 65535 = 0 := by
    apply EchoMessage.wordSum_encode_mod
    rw [size_innerDatagram] at hsize
    rw [size_message]
    omega
  rw [hpayload, Checksum.wordSum_append (by rw [InternetDatagram.length_header]; rfl)]
  omega

/-- What counts under the checksum of the tunnel. Its length is there twice, in the pseudo-header and in
the header of the tunnel. -/
def tunnelSum (p : Packet) : Nat :=
  Checksum.pseudoSum p.outer.source p.outer.destination 17 (40 + p.payload.length) +
    (p.ports.source.toNat + p.ports.destination.toNat + (40 + p.payload.length) +
      Checksum.wordSum p.label.encode)

theorem tunnelSum_ne_zero (p : Packet) : p.tunnelSum ≠ 0 := by
  have hprotocol : (17 : UInt8).toNat = 17 := rfl
  rw [tunnelSum, Checksum.pseudoSum, hprotocol]
  omega

/-- The checksum field of a printed tunnel is a function of that sum. -/
theorem toNat_tunnelChecksum (h : p.encode = .ok bytes) : (bytes.wordAt 26).toNat =
    if Checksum.residue p.tunnelSum = 65535 then 65535 else 65535 - Checksum.residue p.tunnelSum := by
  obtain ⟨inner, tunnel, hinner, htunnel, -, hdrop, -, -⟩ := exists_drop_of_encode h
  obtain ⟨hsize, hlayout⟩ := UserDatagram.encode_eq_ok_iff.1 htunnel
  have hlength : (p.tunnelDatagram inner).size = 40 + p.payload.length := by
    rw [size_tunnelDatagram, InternetDatagram.length_of_encode hinner, size_innerDatagram]
    omega
  have hfield : bytes.wordAt 26 = UserDatagram.sentChecksum p.outer.source p.outer.destination
      ((p.tunnelDatagram inner).layout (p.tunnelDatagram inner).size.toUInt16 0) := by
    rw [← Octets.wordAt_drop bytes 20 6, hdrop, (UserDatagram.fields_of_encode htunnel).2, hlayout,
      UserDatagram.clearWord_layout]
  have hpayload : Checksum.wordSum (p.tunnelDatagram inner).payload =
      Checksum.wordSum p.label.encode + Checksum.wordSum inner :=
    Checksum.wordSum_append (by rw [LabelEntry.length_encode]; rfl) inner
  rw [hfield]
  apply UserDatagram.toNat_sentChecksum
  · rw [UserDatagram.length_layout]
    omega
  rw [UserDatagram.length_layout, UserDatagram.wordSum_layout, UserDatagram.toNat_toUInt16_size hsize,
    hlength, hpayload, UInt16.toNat_zero, ← Checksum.residue_add p.tunnelSum_ne_zero (wordSum_inner_mod hinner),
    tunnelSum]
  congr 1
  show _ + (p.ports.source.toNat + p.ports.destination.toNat + _ + _ + _) = _
  omega

/-- **The checksum of the tunnel does not show what is tunnelled.** Packets between the same outer addresses
and ports, under the same label and with payloads of the same length, have the same checksum there,
whatever else is in them. -/
theorem tunnelChecksum_eq_of_outside (hsource : p.outer.source = q.outer.source)
    (hdestination : p.outer.destination = q.outer.destination) (hports : p.ports = q.ports)
    (hlabel : p.label = q.label) (hlength : p.payload.length = q.payload.length)
    (h : p.payload.length ≤ 65475) : ∃ bytes bytes', p.encode = .ok bytes ∧ q.encode = .ok bytes' ∧
      bytes.slice 26 28 = bytes'.slice 26 28 := by
  obtain ⟨bytes, hencode⟩ := exists_encode h
  obtain ⟨bytes', hencode'⟩ := exists_encode (hlength ▸ h)
  have hroom := length_of_encode hencode
  have hroom' := length_of_encode hencode'
  rw [size_eq] at hroom hroom'
  have hsum : p.tunnelSum = q.tunnelSum := by
    rw [tunnelSum, tunnelSum, hsource, hdestination, hports, hlabel, hlength]
  have hword : bytes.wordAt 26 = bytes'.wordAt 26 := by
    rw [← UInt16.toNat_inj, toNat_tunnelChecksum hencode, toNat_tunnelChecksum hencode', hsum]
  refine ⟨bytes, bytes', hencode, hencode', ?_⟩
  rw [Octets.slice_word (by omega), Octets.slice_word (by omega), hword]

/-- Two packets that have nothing in common behind the label but the length of their payloads. -/
def sampleVisible : Packet :=
  { outer := ⟨⟨10, 0, 0, 1⟩, ⟨10, 0, 0, 2⟩, 64, 1⟩
    ports := ⟨5000, 6635⟩
    label := ⟨0x1FFFFF, 9, false, 63⟩
    inner := ⟨⟨192, 168, 0, 1⟩, ⟨192, 168, 0, 2⟩, 64, 1⟩
    echo := ⟨.request, 0, 1, 1⟩
    payload := [0x68, 0x69, 0x21] }

def sampleHidden : Packet :=
  { sampleVisible with
    outer := ⟨⟨10, 0, 0, 1⟩, ⟨10, 0, 0, 2⟩, 7, 0xFFFF⟩
    inner := ⟨⟨0, 0, 0, 0⟩, ⟨255, 255, 255, 255⟩, 0, 0⟩
    echo := ⟨.other 77, 3, 0xFFFF, 0⟩
    payload := [0, 0, 0xFF] }

theorem tunnelChecksum_eq_of_outside_samples : sampleVisible.payload.length ≤ 65475 ∧
    sampleVisible.payload.length = sampleHidden.payload.length ∧
    ∃ bytes bytes', sampleVisible.encode = .ok bytes ∧ sampleHidden.encode = .ok bytes' ∧
      bytes.slice 26 28 = bytes'.slice 26 28 := by
  have h : sampleVisible.payload.length ≤ 65475 := by
    have hlength : sampleVisible.payload.length = 3 := rfl
    omega
  exact ⟨h, rfl, tunnelChecksum_eq_of_outside rfl rfl rfl rfl rfl h⟩

end Packet

end LabelTunnel
