import LabelTunnel.Proofs.Packet.Checked

/-! Packets that are too long. Three layers have a length of 16 bits, and each is printed around the one inside
it. So the innermost layer that cannot state its length decides the fault, and which layer that is depends on
the payload alone: the further inside, the fewer headers its length covers, and the longer the payload can be
before it refuses. The fault reports the octets that this layer was given. What was printed inside it states
its length in full, and no sum lost a carry on the way. -/

namespace LabelTunnel

variable {fault : Fault} {bytes : Octets}

/-! ### The layers with a length -/

namespace InternetDatagram

variable {d : InternetDatagram} {k : Nat}

theorem encode_eq_error_iff (hk : d.payload.length = k) :
    d.encode = .error fault ↔ 65516 ≤ k ∧ fault = .construction (.internetTooLong k) := by
  have hsize : d.size = 20 + k := hk ▸ rfl
  rw [encode_eq, Outcome.ite_error_eq_error_iff, hk]
  refine and_congr_left ?_
  intro _
  omega

theorem exists_encode_iff (hk : d.payload.length = k) : (∃ bytes, d.encode = .ok bytes) ↔ k ≤ 65515 := by
  have hsize : d.size = 20 + k := hk ▸ rfl
  rw [encode_eq, Outcome.exists_ite_error_eq_ok_iff]
  omega

theorem wordAt_encode (h : d.encode = .ok bytes) : (bytes.wordAt 2).toNat = bytes.length := by
  have hlength := length_of_encode h
  obtain ⟨hsize, rfl⟩ := encode_eq_ok_iff.1 h
  rw [wordAt_header_total, toNat_toUInt16_size hsize, hlength]

end InternetDatagram

namespace UserDatagram

variable {d : UserDatagram} {source destination : Address} {k : Nat}

theorem encode_eq_error_iff (hk : d.payload.length = k) :
    d.encode source destination = .error fault ↔ 65528 ≤ k ∧ fault = .construction (.userTooLong k) := by
  have hsize : d.size = 8 + k := hk ▸ rfl
  rw [encode_eq, Outcome.ite_error_eq_error_iff, hk]
  refine and_congr_left ?_
  intro _
  omega

theorem exists_encode_iff (hk : d.payload.length = k) :
    (∃ bytes, d.encode source destination = .ok bytes) ↔ k ≤ 65527 := by
  have hsize : d.size = 8 + k := hk ▸ rfl
  rw [encode_eq, Outcome.exists_ite_error_eq_ok_iff]
  omega

end UserDatagram

theorem Checksum.toNat_wordAt_pseudoHeader (source destination : Address) (protocol : UInt8) (length : Nat) :
    (Octets.wordAt (pseudoHeader source destination protocol length) 10).toNat = length % 65536 := by
  have hword : Octets.wordAt (pseudoHeader source destination protocol length) 10 = length.toUInt16 :=
    Octets.word_ofWord length.toUInt16
  rw [hword]
  exact UInt16.toNat_ofNat'

namespace Packet

variable {p : Packet} {outcome : Except Fault Octets} {inner tunnel : Octets} {n : Nat}

/-- Printing a packet comes to this layer, all the layers inside it being printed, and its printer ends in
this way. -/
inductive Yields (p : Packet) : Layer → Except Fault Octets → Prop
  | inner {outcome : Except Fault Octets} (ends : p.innerDatagram.encode = outcome) : Yields p .inner outcome
  | tunnel {inner : Octets} {outcome : Except Fault Octets} (inside : Yields p .inner (.ok inner))
      (ends : (p.tunnelDatagram inner).encode p.outer.source p.outer.destination = outcome) :
      Yields p .udp outcome
  | outer {tunnel : Octets} {outcome : Except Fault Octets} (inside : Yields p .udp (.ok tunnel))
      (ends : (p.outer.wrap .udp tunnel).encode = outcome) : Yields p .outer outcome

theorem yields_inner_iff : p.Yields .inner outcome ↔ p.innerDatagram.encode = outcome :=
  ⟨fun | .inner ends => ends, .inner⟩

theorem yields_tunnel_iff : p.Yields .udp outcome ↔ ∃ inner, p.Yields .inner (.ok inner) ∧
    (p.tunnelDatagram inner).encode p.outer.source p.outer.destination = outcome :=
  ⟨fun | .tunnel inside ends => ⟨_, inside, ends⟩, fun ⟨_, inside, ends⟩ => .tunnel inside ends⟩

theorem yields_outer_iff : p.Yields .outer outcome ↔ ∃ tunnel, p.Yields .udp (.ok tunnel) ∧
    (p.outer.wrap .udp tunnel).encode = outcome :=
  ⟨fun | .outer inside ends => ⟨_, inside, ends⟩, fun ⟨_, inside, ends⟩ => .outer inside ends⟩

/-- A packet is refused with the fault of one of its layers. -/
theorem encode_eq_error_iff_yields : p.encode = .error fault ↔ ∃ layer, p.Yields layer (.error fault) := by
  simp only [encode, Outcome.bind_eq_error_iff]
  constructor
  · rintro (hinner | ⟨inner, hinner, htunnel | ⟨tunnel, htunnel, houter⟩⟩)
    · exact ⟨.inner, .inner hinner⟩
    · exact ⟨.udp, .tunnel (.inner hinner) htunnel⟩
    · exact ⟨.outer, .outer (.tunnel (.inner hinner) htunnel) houter⟩
  · rintro ⟨layer, hyields⟩
    cases hyields with
    | inner hinner => exact .inl hinner
    | tunnel inside htunnel => exact .inr ⟨_, yields_inner_iff.1 inside, .inl htunnel⟩
    | outer inside houter =>
        obtain ⟨inner, hinner, htunnel⟩ := yields_tunnel_iff.1 inside
        exact .inr ⟨inner, yields_inner_iff.1 hinner, .inr ⟨_, htunnel, houter⟩⟩

/-! ### Where each layer draws its line -/

theorem length_payload_innerDatagram (hn : p.payload.length = n) : p.innerDatagram.payload.length = n + 8 := by
  rw [innerDatagram, Envelope.wrap, EchoMessage.length_encode, size_message, hn, Nat.add_comm]

theorem length_of_yields_inner (hn : p.payload.length = n) (h : p.Yields .inner (.ok inner)) :
    inner.length = n + 28 := by
  rw [InternetDatagram.length_of_encode (yields_inner_iff.1 h), size_innerDatagram, hn, Nat.add_comm]

theorem length_of_yields_tunnel (hn : p.payload.length = n) (h : p.Yields .udp (.ok tunnel)) :
    tunnel.length = n + 40 := by
  obtain ⟨inner, hinner, htunnel⟩ := yields_tunnel_iff.1 h
  rw [UserDatagram.length_of_encode htunnel, size_tunnelDatagram, length_of_yields_inner hn hinner]
  omega

theorem length_payload_tunnelDatagram (hn : p.payload.length = n) (h : p.Yields .inner (.ok inner)) :
    (p.tunnelDatagram inner).payload.length = n + 32 := by
  rw [tunnelDatagram, List.length_append, LabelEntry.length_encode, LabelEntry.size, length_of_yields_inner hn h]
  omega

theorem exists_yields_inner_iff (hn : p.payload.length = n) :
    (∃ inner, p.Yields .inner (.ok inner)) ↔ n ≤ 65507 := by
  simp only [yields_inner_iff]
  rw [InternetDatagram.exists_encode_iff (length_payload_innerDatagram hn)]
  omega

theorem yields_inner_error_iff (hn : p.payload.length = n) : p.Yields .inner (.error fault) ↔
    65508 ≤ n ∧ fault = .construction (.internetTooLong (n + 8)) := by
  rw [yields_inner_iff, InternetDatagram.encode_eq_error_iff (length_payload_innerDatagram hn)]
  refine and_congr_left ?_
  intro _
  omega

/-- The tunnel is printed if the inner datagram is, and if its own length holds the label as well. Inner
datagrams that are printed all have one length, so the condition does not speak of them. -/
theorem exists_yields_tunnel_iff (hn : p.payload.length = n) :
    (∃ tunnel, p.Yields .udp (.ok tunnel)) ↔ n ≤ 65495 := by
  have htunnel (inner : Octets) (h : p.Yields .inner (.ok inner)) :
      (∃ tunnel, (p.tunnelDatagram inner).encode p.outer.source p.outer.destination = .ok tunnel) ↔
        n + 32 ≤ 65527 :=
    UserDatagram.exists_encode_iff (length_payload_tunnelDatagram hn h)
  simp only [yields_tunnel_iff]
  rw [exists_comm]
  simp only [exists_and_left]
  rw [exists_congr fun inner => and_congr_right (htunnel inner), exists_and_right, exists_yields_inner_iff hn]
  omega

theorem yields_tunnel_error_iff (hn : p.payload.length = n) : p.Yields .udp (.error fault) ↔
    (65496 ≤ n ∧ n ≤ 65507) ∧ fault = .construction (.userTooLong (n + 32)) := by
  have htunnel (inner : Octets) (h : p.Yields .inner (.ok inner)) :
      (p.tunnelDatagram inner).encode p.outer.source p.outer.destination = .error fault ↔
        65528 ≤ n + 32 ∧ fault = .construction (.userTooLong (n + 32)) :=
    UserDatagram.encode_eq_error_iff (length_payload_tunnelDatagram hn h)
  rw [yields_tunnel_iff, exists_congr fun inner => and_congr_right (htunnel inner), exists_and_right,
    exists_yields_inner_iff hn, ← and_assoc]
  refine and_congr_left ?_
  intro _
  omega

theorem yields_outer_error_iff (hn : p.payload.length = n) : p.Yields .outer (.error fault) ↔
    (65476 ≤ n ∧ n ≤ 65495) ∧ fault = .construction (.internetTooLong (n + 40)) := by
  have houter (tunnel : Octets) (h : p.Yields .udp (.ok tunnel)) :
      (p.outer.wrap .udp tunnel).encode = .error fault ↔
        65516 ≤ n + 40 ∧ fault = .construction (.internetTooLong (n + 40)) :=
    InternetDatagram.encode_eq_error_iff (length_of_yields_tunnel hn h)
  rw [yields_outer_iff, exists_congr fun tunnel => and_congr_right (houter tunnel), exists_and_right,
    exists_yields_tunnel_iff hn, ← and_assoc]
  refine and_congr_left ?_
  intro _
  omega

theorem exists_encode_iff (hn : p.payload.length = n) :
    (∃ bytes, p.encode = .ok bytes ∧ bytes.length = n + 60) ↔ n ≤ 65475 := by
  constructor
  · rintro ⟨bytes, hencode, -⟩
    exact hn ▸ length_le_of_encode hencode
  · intro hle
    obtain ⟨bytes, hencode⟩ := exists_encode (hn ▸ hle : p.payload.length ≤ 65475)
    refine ⟨bytes, hencode, ?_⟩
    rw [length_of_encode hencode, size_eq, hn, Nat.add_comm]

/-! ### What is written on the way -/

/-- Every length that is written on the way to a packet is that of all the octets it stands for, also if a
layer around them is refused. -/
structure LengthsInFull (p : Packet) : Prop where
  inner : ∀ inner, p.Yields .inner (.ok inner) → (inner.wordAt 2).toNat = inner.length
  tunnel : ∀ tunnel, p.Yields .udp (.ok tunnel) → (tunnel.wordAt 4).toNat = tunnel.length
  /-- The length that the checksum of the tunnel covers beside it. -/
  covered : ∀ tunnel, p.Yields .udp (.ok tunnel) → (Octets.wordAt (Checksum.pseudoHeader p.outer.source
    p.outer.destination Protocol.udp.number tunnel.length) 10).toNat = tunnel.length
  outer : ∀ bytes, p.encode = .ok bytes → (bytes.wordAt 2).toNat = bytes.length

theorem lengthsInFull (p : Packet) : p.LengthsInFull := by
  refine ⟨?_, ?_, ?_, ?_⟩
  · intro inner hinner
    exact InternetDatagram.wordAt_encode (yields_inner_iff.1 hinner)
  · intro tunnel htunnel
    obtain ⟨inner, -, hencode⟩ := yields_tunnel_iff.1 htunnel
    exact (UserDatagram.fields_of_encode hencode).1
  · intro tunnel htunnel
    have hroom := (exists_yields_tunnel_iff rfl).1 ⟨tunnel, htunnel⟩
    have hlength := length_of_yields_tunnel rfl htunnel
    rw [Checksum.toNat_wordAt_pseudoHeader]
    exact Nat.mod_eq_of_lt (by omega)
  · intro bytes hbytes
    obtain ⟨inner, tunnel, -, -, hencode⟩ := encode_eq_ok_iff.1 hbytes
    exact InternetDatagram.wordAt_encode hencode

/-- **Printing by the length of the payload.** Up to 65475 octets a packet is printed, in 60 more. A longer
one is refused with the fault of a layer: up to 65495 octets of the outer datagram, up to 65507 of the tunnel,
and from there on of the inner datagram, each reporting the payload that it was given itself. No length is cut
on the way, and no addition to a checksum carries out of its word. -/
theorem encode_by_length (hn : p.payload.length = n) (h : n ≤ 131064) :
    ((∃ bytes, p.encode = .ok bytes ∧ bytes.length = n + 60) ↔ n ≤ 65475) ∧
    (∀ fault, p.encode = .error fault ↔ ∃ layer, p.Yields layer (.error fault)) ∧
    (∀ fault, p.Yields .outer (.error fault) ↔
      (65476 ≤ n ∧ n ≤ 65495) ∧ fault = .construction (.internetTooLong (n + 40))) ∧
    (∀ fault, p.Yields .udp (.error fault) ↔
      (65496 ≤ n ∧ n ≤ 65507) ∧ fault = .construction (.userTooLong (n + 32))) ∧
    (∀ fault, p.Yields .inner (.error fault) ↔
      65508 ≤ n ∧ fault = .construction (.internetTooLong (n + 8))) ∧
    p.LengthsInFull ∧ p.encode?.Gives p.encode :=
  ⟨exists_encode_iff hn, fun _ => encode_eq_error_iff_yields, fun _ => yields_outer_error_iff hn,
    fun _ => yields_tunnel_error_iff hn, fun _ => yields_inner_error_iff hn, p.lengthsInFull,
    gives_encode (hn ▸ h)⟩

/-- A payload of ones, which weigh most in a checksum. -/
def ofOnes (n : Nat) : Packet where
  outer := ⟨⟨255, 255, 255, 255⟩, ⟨255, 255, 255, 254⟩, 255, 0xFFFF⟩
  ports := ⟨0xFFFF, 6635⟩
  label := ⟨0xFFFFFFFF, 255, false, 255⟩
  inner := ⟨⟨192, 168, 0, 1⟩, ⟨192, 168, 0, 2⟩, 64, 1⟩
  echo := ⟨.other 255, 255, 0xFFFF, 0xFFFF⟩
  payload := List.replicate n 0xFF

/-- At the first length that each layer refuses, the outer and the inner datagram report the same number. -/
theorem encode_by_length_ones :
    (∃ bytes, (ofOnes 65475).encode = .ok bytes ∧ bytes.length = 65535) ∧
    (ofOnes 65476).Yields .outer (.error (.construction (.internetTooLong 65516))) ∧
    (ofOnes 65496).Yields .udp (.error (.construction (.userTooLong 65528))) ∧
    (ofOnes 65508).Yields .inner (.error (.construction (.internetTooLong 65516))) ∧
    (ofOnes 131064).LengthsInFull ∧ (ofOnes 131064).encode?.Gives (ofOnes 131064).encode := by
  have hlength (n : Nat) : (ofOnes n).payload.length = n := List.length_replicate
  obtain ⟨hprinted, -⟩ := encode_by_length (hlength 65475) (by decide)
  obtain ⟨-, -, houter, -⟩ := encode_by_length (hlength 65476) (by decide)
  obtain ⟨-, -, -, htunnel, -⟩ := encode_by_length (hlength 65496) (by decide)
  obtain ⟨-, -, -, -, hinner, -⟩ := encode_by_length (hlength 65508) (by decide)
  obtain ⟨-, -, -, -, -, hlengths, hgives⟩ := encode_by_length (hlength 131064) (by decide)
  exact ⟨hprinted.2 (by decide), (houter _).2 ⟨by decide, rfl⟩, (htunnel _).2 ⟨by decide, rfl⟩,
    (hinner _).2 ⟨by decide, rfl⟩, hlengths, hgives⟩

end Packet

end LabelTunnel
