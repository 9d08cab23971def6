import LabelTunnel.Proofs.Packet.Canonical

/-! Packets on the wire. The headers of a printed packet stand at fixed offsets: 20 octets of outer
internet header, 8 of user header, 4 of label, 20 of inner internet header, 8 of echo header, then the
payload. Each length field counts from its own header to the end, and all four checksums are right at
the same time, although the outer ones cover the fields of the inner ones. -/

namespace LabelTunnel.Packet

variable {p : Packet} {bytes data : Octets}

structure Wire (p : Packet) (bytes : Octets) : Prop where
  length : bytes.length = p.payload.length + 60
  outerLength : (bytes.wordAt 2).toNat = bytes.length
  tunnelLength : (bytes.wordAt 24).toNat = bytes.length - 20
  innerLength : (bytes.wordAt 34).toNat = bytes.length - 32
  /-- Both internet headers are of version 4 and have five words. -/
  versions : bytes.byteAt 0 = 0x45 ∧ bytes.byteAt 32 = 0x45
  protocols : bytes.byteAt 9 = 17 ∧ bytes.byteAt 41 = 1
  /-- Label, class, bottom bit and lifetime share one double word. -/
  label : (Octets.doubleWord (bytes.byteAt 28) (bytes.byteAt 29) (bytes.byteAt 30) (bytes.byteAt 31)).toNat =
    p.label.label.toNat % 1048576 * 4096 + p.label.trafficClass.toNat % 8 * 512 +
      p.label.bottom.toNat * 256 + p.label.ttl.toNat
  payload : bytes.drop 60 = p.payload

/-- All four checksums of a packet between the given addresses are right. -/
structure Intact (source destination : Address) (bytes : Octets) : Prop where
  outer : Checksum.verify (bytes.slice 0 20) = true
  tunnel : UserDatagram.verify (bytes.drop 20) source destination = true
  /-- The checksum of the tunnel is there, and not left out. -/
  computed : bytes.wordAt 26 ≠ 0
  inner : Checksum.verify (bytes.slice 32 52) = true
  message : EchoMessage.verify (bytes.drop 52) = true

/-- Canonical octets with room for all the headers are intact. Only the sums need a bound on the length. -/
theorem Canonical.intact (h : Canonical data) (hroom : 60 ≤ data.length) :
    Intact (.ofOctetsAt data 12) (.ofOctetsAt data 16) data := by
  have hlimit : data.length < 65536 := by
    rw [← h.outer.total]
    exact (data.wordAt 2).toNat_lt
  refine ⟨h.outer.verify_header (by rw [InternetDatagram.headerSize]; omega), ?_, ?_, ?_, ?_⟩
  · refine UserDatagram.verify_of_wordAt_eq ?_ (by rw [List.length_drop]; omega) ?_
    · rw [List.length_drop, UserDatagram.headerSize]
      omega
    · rw [Octets.wordAt_drop, h.tunnelChecksum]
  · rw [h.tunnelChecksum]
    exact UserDatagram.sentChecksum_ne_zero _ _ _
  · have hslice : data.slice 32 52 = Octets.slice (data.drop 32) 0 InternetDatagram.headerSize := by
      rw [Octets.slice_eq_take_drop, Octets.slice_eq_take_drop]
      rfl
    rw [hslice]
    exact h.inner.verify_header (by rw [List.length_drop, InternetDatagram.headerSize]; omega)
  · refine EchoMessage.verify_of_wordAt_eq ?_ (by rw [List.length_drop]; omega) ?_
    · rw [List.length_drop, EchoMessage.headerSize]
      omega
    · rw [Octets.wordAt_drop, h.messageChecksum]

theorem intact_of_encode (h : p.encode = .ok bytes) : Intact p.outer.source p.outer.destination bytes := by
  obtain ⟨hsource, hdestination⟩ := addresses_of_encode h
  have hroom : 60 ≤ bytes.length := by
    rw [length_of_encode h, size_eq]
    omega
  rw [← hsource, ← hdestination]
  exact (canonical_of_encode h).intact hroom

theorem doubleWord_encode_append (e : LabelEntry) (rest : Octets) :
    Octets.doubleWord ((e.encode ++ rest).byteAt 0) ((e.encode ++ rest).byteAt 1)
      ((e.encode ++ rest).byteAt 2) ((e.encode ++ rest).byteAt 3) = e.toDoubleWord :=
  Octets.doubleWord_ofDoubleWord e.toDoubleWord

theorem wire_of_encode (h : p.encode = .ok bytes) : Wire p bytes := by
  have hcanonical := canonical_of_encode h
  obtain ⟨inner, tunnel, hinner, htunnel, houter, hdrop, hdrop', hdrop''⟩ := exists_drop_of_encode h
  have hbytes := (InternetDatagram.encode_eq_ok_iff.1 houter).2
  have hheader := (InternetDatagram.encode_eq_ok_iff.1 hinner).2
  have hlabel : bytes.drop 28 = p.label.encode ++ inner := by
    rw [← List.drop_drop (i := 8) (j := 20), hdrop, (UserDatagram.encode_eq_ok_iff.1 htunnel).2]
    rfl
  have hbyte (k : Nat) : bytes.byteAt (28 + k) = (p.label.encode ++ inner).byteAt k := by
    rw [← hlabel, Octets.byteAt_drop]
  have hbyte' (k : Nat) : bytes.byteAt (32 + k) = inner.byteAt k := by
    rw [← hdrop', Octets.byteAt_drop]
  have hinnerLength := hcanonical.inner.total
  rw [Octets.wordAt_drop, List.length_drop] at hinnerLength
  refine ⟨?_, hcanonical.outer.total, hcanonical.tunnelLength, hinnerLength, ⟨?_, ?_⟩, ⟨?_, ?_⟩, ?_, ?_⟩
  · rw [length_of_encode h, size_eq, Nat.add_comm]
  · rw [hbytes, InternetDatagram.byteAt_header_zero]
  · rw [hbyte' 0, hheader, InternetDatagram.byteAt_header_zero]
  · rw [hbytes]
    rfl
  · rw [hbyte' 9, hheader]
    rfl
  · rw [hbyte 0, hbyte 1, hbyte 2, hbyte 3, doubleWord_encode_append, LabelEntry.toNat_toDoubleWord]
  · rw [← List.drop_drop (i := 8) (j := 52), hdrop'']
    rfl

/-- **The octets of a printed packet.** They have the packet's size, stand in the layout of five headers
with lengths that nest, and all their checksums are right. -/
theorem wire_and_intact_of_encode (h : p.encode = .ok bytes) : bytes.length = p.size ∧ Wire p bytes ∧
    Intact p.outer.source p.outer.destination bytes :=
  ⟨length_of_encode h, wire_of_encode h, intact_of_encode h⟩

/-- A packet with three octets of payload, so that two of its checksums end with half a word. -/
def sampleOdd : Packet :=
  { outer := ⟨⟨10, 0, 0, 1⟩, ⟨10, 0, 0, 2⟩, 64, 1⟩
    ports := ⟨5000, 6635⟩
    label := ⟨0xFFFFF, 7, true, 63⟩
    inner := ⟨⟨192, 168, 0, 1⟩, ⟨192, 168, 0, 2⟩, 64, 1⟩
    echo := ⟨.request, 0, 1, 1⟩
    payload := [0x68, 0x69, 0x21] }

def sampleOddOctets : Octets :=
  [0x45, 0, 0, 63, 0, 1, 0, 0, 64, 17, 102, 171, 10, 0, 0, 1, 10, 0, 0, 2,
    19, 136, 25, 235, 0, 43, 190, 226, 255, 255, 255, 63,
    0x45, 0, 0, 31, 0, 1, 0, 0, 64, 1, 249, 137, 192, 168, 0, 1, 192, 168, 0, 2,
    8, 0, 110, 148, 0, 1, 0, 1, 0x68, 0x69, 0x21]

theorem wire_and_intact_of_encode_odd : sampleOdd.encode = .ok sampleOddOctets ∧
    sampleOddOctets.length = sampleOdd.size ∧ Wire sampleOdd sampleOddOctets ∧
    Intact sampleOdd.outer.source sampleOdd.outer.destination sampleOddOctets := by
  have hencode : sampleOdd.encode = .ok sampleOddOctets := by cbv
  exact ⟨hencode, wire_and_intact_of_encode hencode⟩

end LabelTunnel.Packet
