import LabelTunnel.Proofs.Packet.RoundTrip

/-! Octets read and printed again. Whatever the reader accepts can be printed, in no more octets, and is
read as the same packet again. What comes out is what came in exactly if that was canonical: one packet
from end to end, without options, service type or fragmentation, with the checksums that are computed
for it. -/

namespace LabelTunnel.Packet

variable {p : Packet} {data bytes : Octets}

/-- The octets are those of a packet and nothing else: the two internet datagrams are canonical and all
three lengths run to the end, and all four checksum fields hold what is computed for the cleared field. -/
structure Canonical (data : Octets) : Prop where
  outer : InternetDatagram.Canonical data
  tunnelLength : (data.wordAt 24).toNat = data.length - 20
  tunnelChecksum : data.wordAt 26 = UserDatagram.sentChecksum (.ofOctetsAt data 12) (.ofOctetsAt data 16)
    (Octets.clearWord (data.drop 20) 6)
  inner : InternetDatagram.Canonical (data.drop 32)
  messageChecksum : data.wordAt 54 = Checksum.compute (Octets.clearWord (data.drop 52) 2)

theorem exists_drop_of_encode (h : p.encode = .ok bytes) : ∃ inner tunnel,
    p.innerDatagram.encode = .ok inner ∧
    (p.tunnelDatagram inner).encode p.outer.source p.outer.destination = .ok tunnel ∧
    (p.outer.wrap .udp tunnel).encode = .ok bytes ∧
    bytes.drop 20 = tunnel ∧ bytes.drop 32 = inner ∧ bytes.drop 52 = p.message.encode := by
  obtain ⟨inner, tunnel, hinner, htunnel, houter⟩ := encode_eq_ok_iff.1 h
  have hbytes := (InternetDatagram.encode_eq_ok_iff.1 houter).2
  have hlayout := (UserDatagram.encode_eq_ok_iff.1 htunnel).2
  have hheader := (InternetDatagram.encode_eq_ok_iff.1 hinner).2
  have hdrop : bytes.drop 20 = tunnel := by
    rw [hbytes]
    rfl
  have hdrop' : bytes.drop 32 = inner := by
    rw [← List.drop_drop (i := 12) (j := 20), hdrop, hlayout]
    rfl
  have hdrop'' : bytes.drop 52 = p.message.encode := by
    rw [← List.drop_drop (i := 20) (j := 32), hdrop', hheader]
    rfl
  exact ⟨inner, tunnel, hinner, htunnel, houter, hdrop, hdrop', hdrop''⟩

theorem addresses_of_encode (h : p.encode = .ok bytes) :
    .ofOctetsAt bytes 12 = p.outer.source ∧ .ofOctetsAt bytes 16 = p.outer.destination := by
  obtain ⟨inner, tunnel, -, -, houter⟩ := encode_eq_ok_iff.1 h
  rw [(InternetDatagram.encode_eq_ok_iff.1 houter).2, InternetDatagram.source_header,
    InternetDatagram.destination_header]
  exact ⟨rfl, rfl⟩

theorem canonical_of_encode (h : p.encode = .ok bytes) : Canonical bytes := by
  obtain ⟨inner, tunnel, hinner, htunnel, houter, hdrop, hdrop', hdrop''⟩ := exists_drop_of_encode h
  obtain ⟨hlength, hchecksum⟩ := UserDatagram.fields_of_encode htunnel
  obtain ⟨hsource, hdestination⟩ := addresses_of_encode h
  refine ⟨InternetDatagram.canonical_of_encode houter rfl rfl, ?_, ?_, ?_, ?_⟩
  · rw [← Octets.wordAt_drop bytes 20 4, hdrop, hlength, ← hdrop, List.length_drop]
  · rw [← Octets.wordAt_drop bytes 20 6, hdrop, hsource, hdestination, hchecksum]
  · rw [hdrop']
    exact InternetDatagram.canonical_of_encode hinner rfl rfl
  · rw [← Octets.wordAt_drop bytes 52 2, hdrop'', EchoMessage.wordAt_encode]

/-! ### What the reader accepts -/

/-- The reader gives packets in the form in which they come back unchanged. -/
theorem exact_of_decode (h : decode data = .ok p) : p.Exact := by
  obtain ⟨l, hread, rfl⟩ := decode_eq_ok_iff.1 h
  obtain ⟨-, hlabel, hbottom⟩ := LabelStack.decode_eq_ok_singleton_iff.1 hread.label_eq
  obtain ⟨-, hmessage⟩ := EchoMessage.decode_eq_ok_iff.1 hread.message_eq
  have hmasked : l.label.masked = l.label := by
    rw [hlabel, LabelEntry.ofFields, ← LabelEntry.ofDoubleWord_toDoubleWord,
      LabelEntry.toDoubleWord_ofDoubleWord]
  have hkind : EchoKind.ofNumber l.message.kind.number = l.message.kind := by
    rw [hmessage, EchoMessage.ofFields, EchoKind.number_ofNumber]
  obtain ⟨hlabel', hclass⟩ := (LabelEntry.masked_eq_self_iff _).1 hmasked
  exact ⟨hlabel', hclass, hbottom, (EchoKind.ofNumber_number_eq_self_iff _).1 hkind⟩

/-- Five headers stand around the payload of a packet that was read, inside the stated total length. -/
theorem size_le_of_decode (h : decode data = .ok p) : p.size ≤ data.length ∧ p.size ≤ 65535 := by
  obtain ⟨l, hread, rfl⟩ := decode_eq_ok_iff.1 h
  obtain ⟨houter, houter'⟩ := InternetDatagram.size_le_of_decode hread.outer_eq
  have htunnel := UserDatagram.size_le_of_decode hread.tunnel_eq
  have hinner := (InternetDatagram.size_le_of_decode hread.inner_eq).1
  have hmessage := EchoMessage.size_of_decode hread.message_eq
  simp only [InternetDatagram.size, UserDatagram.size, EchoMessage.size, InternetDatagram.headerSize,
    UserDatagram.headerSize, EchoMessage.headerSize, LabelEntry.size, List.length_drop] at *
  show 60 + l.message.payload.length ≤ _ ∧ 60 + l.message.payload.length ≤ _
  omega

theorem encode_wrap_of_canonical {protocol : Protocol} (hfits : InternetDatagram.Fits data)
    (hcanonical : InternetDatagram.Canonical data)
    (hprotocol : (InternetDatagram.ofFields data).protocol = protocol) :
    ((Envelope.ofDatagram (.ofFields data)).wrap protocol (data.drop 20)).encode = .ok data := by
  have hservice : (InternetDatagram.ofFields data).serviceType = 0 := hcanonical.service
  have hwrap : (Envelope.ofDatagram (.ofFields data)).wrap protocol (data.drop 20) =
      { InternetDatagram.ofFields data with checksum := 0 } := by
    rw [Envelope.wrap, ← hprotocol, ← hservice, ← hcanonical.flags_eq]
    congr 1
    exact hcanonical.payload_eq.symm
  rw [hwrap, ← hcanonical.encode_ofFields hfits]
  rfl

/-- Every layer is read at the place where it stands in a printed packet. -/
structure Layers.InPlace (l : Layers) (data : Octets) : Prop where
  outer : InternetDatagram.Fits data ∧ l.outer = .ofFields data
  tunnel : UserDatagram.Fits (data.drop 20) ∧ l.tunnel = .ofFields (data.drop 20)
  label : LabelEntry.size ≤ (data.drop 28).length ∧ l.label = .ofFields (data.drop 28)
  inner : InternetDatagram.Fits (data.drop 32) ∧ l.inner = .ofFields (data.drop 32)
  message : EchoMessage.headerSize ≤ (data.drop 52).length ∧ l.message = .ofFields (data.drop 52)

namespace Canonical

variable {l : Layers}

theorem length_tunnel (h : Canonical data) :
    (Octets.wordAt (data.drop 20) 4).toNat = (data.drop 20).length := by
  rw [Octets.wordAt_drop, h.tunnelLength, List.length_drop]

theorem slice_tunnel (h : Canonical data) :
    Octets.slice (data.drop 20) 0 (Octets.wordAt (data.drop 20) 4).toNat = data.drop 20 := by
  rw [h.length_tunnel, Octets.slice, List.take_length, List.drop_zero]

theorem payload_tunnel (h : Canonical data) :
    (UserDatagram.ofFields (data.drop 20)).payload = data.drop 28 := by
  rw [UserDatagram.ofFields, h.length_tunnel, Octets.slice, List.take_length, List.drop_drop]
  rfl

theorem inPlace (h : Canonical data) (hread : l.Read data) : l.InPlace data := by
  have houter := InternetDatagram.decode_eq_ok_iff.1 hread.outer_eq
  have houterPayload : l.outer.payload = data.drop 20 := houter.2 ▸ h.outer.payload_eq
  have htunnel := UserDatagram.decode_eq_ok_iff.1 hread.tunnel_eq
  rw [houterPayload] at htunnel
  have htunnelPayload : l.tunnel.payload = data.drop 28 := htunnel.2 ▸ h.payload_tunnel
  obtain ⟨hroom, hlabel, -⟩ := LabelStack.decode_eq_ok_singleton_iff.1 hread.label_eq
  have hinner := InternetDatagram.decode_eq_ok_iff.1 hread.inner_eq
  have hdrop : (data.drop 28).drop LabelEntry.size = data.drop 32 := List.drop_drop
  rw [htunnelPayload] at hroom hlabel hinner
  rw [hdrop] at hinner
  have hinnerPayload : l.inner.payload = (data.drop 32).drop 20 := hinner.2 ▸ h.inner.payload_eq
  have hmessage := EchoMessage.decode_eq_ok_iff.1 hread.message_eq
  rw [hinnerPayload, List.drop_drop] at hmessage
  exact ⟨houter, htunnel, ⟨hroom, hlabel⟩, hinner, hmessage⟩

theorem encode_label (h : Canonical data) (hplace : l.InPlace data) :
    l.label.encode ++ data.drop 32 = l.tunnel.payload := by
  obtain ⟨hroom, hlabel⟩ := hplace.label
  have hsplit : (data.drop 28).take LabelEntry.size ++ data.drop 32 = data.drop 28 := by
    rw [← List.drop_drop (i := 4) (j := 28)]
    exact List.take_append_drop LabelEntry.size (data.drop 28)
  rw [hlabel, LabelEntry.encode_ofFields hroom, hplace.tunnel.2, h.payload_tunnel]
  exact hsplit

theorem encode_message (h : Canonical data) (hplace : l.InPlace data) :
    (ofLayers l).message.encode = data.drop 52 := by
  obtain ⟨hroom, hmessage⟩ := hplace.message
  have hencode := EchoMessage.encode_ofFields hroom (by
    rw [Octets.wordAt_drop, h.messageChecksum])
  rwa [← hmessage] at hencode

theorem encode_inner (h : Canonical data) (hplace : l.InPlace data) (hicmp : l.inner.protocol = .icmp) :
    (ofLayers l).innerDatagram.encode = .ok (data.drop 32) := by
  obtain ⟨hfits, hinner⟩ := hplace.inner
  have hencode := encode_wrap_of_canonical hfits h.inner (hinner ▸ hicmp)
  rw [← hinner] at hencode
  rw [innerDatagram, h.encode_message hplace, ← hencode, List.drop_drop]
  rfl

theorem encode_tunnel (h : Canonical data) (hplace : l.InPlace data) :
    ((ofLayers l).tunnelDatagram (data.drop 32)).encode (ofLayers l).outer.source
      (ofLayers l).outer.destination = .ok (data.drop 20) := by
  have hsource : (ofLayers l).outer.source = .ofOctetsAt data 12 := by
    show l.outer.source = _
    rw [hplace.outer.2, InternetDatagram.ofFields]
  have hdestination : (ofLayers l).outer.destination = .ofOctetsAt data 16 := by
    show l.outer.destination = _
    rw [hplace.outer.2, InternetDatagram.ofFields]
  obtain ⟨hfits, htunnel⟩ := hplace.tunnel
  have hencode := UserDatagram.encode_ofFields hfits (by
    rw [Octets.wordAt_drop, h.slice_tunnel, h.tunnelChecksum])
  have hdatagram : (ofLayers l).tunnelDatagram (data.drop 32) = { l.tunnel with checksum := 0 } :=
    congrArg (UserDatagram.mk _ _ 0) (h.encode_label hplace)
  rw [h.slice_tunnel, ← htunnel] at hencode
  rw [hdatagram, hsource, hdestination, ← hencode]
  rfl

end Canonical

/-- A canonical packet is printed from what is read from it: the layers are rebuilt from the inside out, each
from the octets at its place. -/
theorem encode_of_canonical (h : decode data = .ok p) (hcanonical : Canonical data) :
    p.encode = .ok data := by
  obtain ⟨l, hread, rfl⟩ := decode_eq_ok_iff.1 h
  have hplace := hcanonical.inPlace hread
  obtain ⟨hfits, houter⟩ := hplace.outer
  have hencode := encode_wrap_of_canonical hfits hcanonical.outer (houter ▸ hread.outer_udp)
  rw [← houter] at hencode
  exact encode_eq_ok_iff.2 ⟨data.drop 32, data.drop 20, hcanonical.encode_inner hplace hread.inner_icmp,
    hcanonical.encode_tunnel hplace, hencode⟩

/-- **Printing what was read.** It never fails, takes no more octets than were read, and gives octets
that are read as the same packet. They are the octets that were read exactly if those are canonical. -/
theorem encode_of_decode (h : decode data = .ok p) : ∃ bytes, p.encode = .ok bytes ∧
    bytes.length = p.size ∧ p.size ≤ data.length ∧ decode bytes = .ok p ∧
    (bytes = data ↔ Canonical data) := by
  obtain ⟨hsize, hlimit⟩ := size_le_of_decode h
  have hpayload : p.payload.length ≤ 65475 := by
    rw [size_eq] at hlimit
    omega
  obtain ⟨bytes, hencode⟩ := exists_encode hpayload
  have hdecode := (decode_encode_eq_ok_self_iff hencode).2 (exact_of_decode h)
  refine ⟨bytes, hencode, length_of_encode hencode, hsize, hdecode, ?_, ?_⟩
  · rintro rfl
    exact canonical_of_encode hencode
  · intro hcanonical
    exact Except.ok.inj (hencode.symm.trans (encode_of_canonical h hcanonical))

/-- A packet with options in its outer header, no checksums, and one octet behind its end. -/
def samplePadded : Octets :=
  [0x46, 0, 0, 66, 0, 1, 0x40, 0, 64, 17, 0, 0, 10, 0, 0, 1, 10, 0, 0, 2, 1, 1, 1, 0,
    0x13, 0x88, 0x19, 0xEB, 0, 42, 0, 0, 0, 0x06, 0x41, 64,
    0x45, 0, 0, 30, 0, 1, 0, 0, 64, 1, 0, 0, 192, 168, 0, 1, 192, 168, 0, 2,
    8, 0, 0, 0, 0, 1, 0, 1, 0x68, 0x69, 0]

def sampleRead : Packet :=
  { outer := ⟨⟨10, 0, 0, 1⟩, ⟨10, 0, 0, 2⟩, 64, 1⟩
    ports := ⟨5000, 6635⟩
    label := ⟨100, 0, true, 64⟩
    inner := ⟨⟨192, 168, 0, 1⟩, ⟨192, 168, 0, 2⟩, 64, 1⟩
    echo := ⟨.request, 0, 1, 1⟩
    payload := [0x68, 0x69] }

theorem encode_of_decode_padded : decode samplePadded = .ok sampleRead ∧
    ∃ bytes, sampleRead.encode = .ok bytes ∧ bytes.length = sampleRead.size ∧
      sampleRead.size ≤ samplePadded.length ∧ decode bytes = .ok sampleRead ∧
      (bytes = samplePadded ↔ Canonical samplePadded) :=
  ⟨rfl, encode_of_decode rfl⟩

end LabelTunnel.Packet
