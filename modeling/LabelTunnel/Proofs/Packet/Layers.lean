import LabelTunnel.Packet
import LabelTunnel.Proofs.Layer.Echo
import LabelTunnel.Proofs.Layer.Internet
import LabelTunnel.Proofs.Layer.Label
import LabelTunnel.Proofs.Layer.User

/-! A packet and its layers. Printing succeeds exactly if all three length fields hold their lengths,
which the payload decides, and so it does if labels are stacked above the one of the packet and octets are
put behind the inner datagram and behind the tunnel; reading succeeds exactly if every layer does, in the
payload of the layer around it, and fails only because the octets are no packet. -/

namespace LabelTunnel.Packet

variable {p : Packet} {above : List LabelEntry} {x y data bytes : Octets}

/-! ### Printing -/

theorem encode_eq_ok_iff : p.encode = .ok bytes ↔ ∃ inner tunnel, p.innerDatagram.encode = .ok inner ∧
    (p.tunnelDatagram inner).encode p.outer.source p.outer.destination = .ok tunnel ∧
      (p.outer.wrap .udp tunnel).encode = .ok bytes := by
  simp only [encode, Outcome.bind_eq_ok_iff, exists_and_left]

/-- The tunnel with more labels above the one of the packet. -/
def stackedTunnel (p : Packet) (above : List LabelEntry) (inner : Octets) : UserDatagram :=
  { p.tunnelDatagram inner with payload := LabelStack.encode (above ++ [p.label]) ++ inner }

/-- The packet as its layers print it, with these labels above its own, and with padding behind the inner
datagram and behind the tunnel. -/
def encodePadded (p : Packet) (above : List LabelEntry) (x y : Octets) : Except Fault Octets := do
  let inner ← p.innerDatagram.encode
  let tunnel ← (p.stackedTunnel above (inner ++ x)).encode p.outer.source p.outer.destination
  (p.outer.wrap .udp (tunnel ++ y)).encode

/-- Nothing above and nothing between is what the printer does. -/
theorem encodePadded_nil (p : Packet) : p.encodePadded [] [] [] = p.encode := by
  simp only [encodePadded, encode, stackedTunnel, tunnelDatagram, List.append_nil, List.nil_append,
    LabelStack.encode, List.flatMap_singleton]

theorem encodePadded_eq_ok_iff : p.encodePadded above x y = .ok bytes ↔ ∃ inner tunnel,
    p.innerDatagram.encode = .ok inner ∧
    (p.stackedTunnel above (inner ++ x)).encode p.outer.source p.outer.destination = .ok tunnel ∧
      (p.outer.wrap .udp (tunnel ++ y)).encode = .ok bytes := by
  simp only [encodePadded, Outcome.bind_eq_ok_iff, exists_and_left]

theorem size_message (p : Packet) : p.message.size = 8 + p.payload.length := rfl

theorem size_innerDatagram (p : Packet) : p.innerDatagram.size = 28 + p.payload.length := by
  rw [innerDatagram, InternetDatagram.size, Envelope.wrap, EchoMessage.length_encode, size_message,
    ← Nat.add_assoc]
  rfl

theorem size_tunnelDatagram (p : Packet) (inner : Octets) :
    (p.tunnelDatagram inner).size = 12 + inner.length := by
  rw [tunnelDatagram, UserDatagram.size, List.length_append, LabelEntry.length_encode, ← Nat.add_assoc]
  rfl

theorem size_stackedTunnel (p : Packet) (above : List LabelEntry) (inner : Octets) :
    (p.stackedTunnel above inner).size = 12 + LabelStack.size above + inner.length := by
  simp only [stackedTunnel, UserDatagram.size, UserDatagram.headerSize, List.length_append,
    LabelStack.length_encode, LabelStack.size, LabelEntry.size, List.length_singleton]
  omega

theorem size_wrap (e : Envelope) (protocol : Protocol) (payload : Octets) :
    (e.wrap protocol payload).size = 20 + payload.length := rfl

theorem size_eq (p : Packet) : p.size = 60 + p.payload.length := rfl

theorem exists_encodePadded (h : p.size + LabelStack.size above + x.length + y.length ≤ 65535) :
    ∃ bytes, p.encodePadded above x y = .ok bytes := by
  have hsize := size_eq p
  have hinner := size_innerDatagram p
  obtain ⟨inner, hencode⟩ : ∃ inner, p.innerDatagram.encode = .ok inner :=
    ⟨_, InternetDatagram.encode_of_le (by omega)⟩
  have hlength := InternetDatagram.length_of_encode hencode
  have htunnel := size_stackedTunnel p above (inner ++ x)
  rw [List.length_append] at htunnel
  obtain ⟨tunnel, hencode'⟩ : ∃ tunnel,
      (p.stackedTunnel above (inner ++ x)).encode p.outer.source p.outer.destination = .ok tunnel :=
    ⟨_, UserDatagram.encode_of_le (by omega) _ _⟩
  have hlength' := UserDatagram.length_of_encode hencode'
  have houter := size_wrap p.outer .udp (tunnel ++ y)
  rw [List.length_append] at houter
  exact ⟨_, encodePadded_eq_ok_iff.2
    ⟨inner, tunnel, hencode, hencode', InternetDatagram.encode_of_le (by omega)⟩⟩

theorem length_of_encodePadded (h : p.encodePadded above x y = .ok bytes) :
    bytes.length = p.size + LabelStack.size above + x.length + y.length := by
  obtain ⟨inner, tunnel, hinner, htunnel, houter⟩ := encodePadded_eq_ok_iff.1 h
  have hlength := InternetDatagram.length_of_encode hinner
  have hlength' := UserDatagram.length_of_encode htunnel
  have hlength'' := InternetDatagram.length_of_encode houter
  rw [size_innerDatagram] at hlength
  rw [size_stackedTunnel, List.length_append] at hlength'
  rw [size_wrap, List.length_append] at hlength''
  rw [size_eq]
  omega

theorem exists_encode (h : p.payload.length ≤ 65475) : ∃ bytes, p.encode = .ok bytes := by
  have hfit : p.size ≤ 65535 := by
    rw [size_eq]
    omega
  rw [← encodePadded_nil]
  exact exists_encodePadded hfit

/-- What is printed for a packet that fits its length fields. -/
def octets (p : Packet) : Octets := p.encode.toOption.getD []

theorem encode_eq_ok_octets (h : p.payload.length ≤ 65475) : p.encode = .ok p.octets := by
  obtain ⟨bytes, hencode⟩ := exists_encode h
  rw [octets, hencode]
  rfl

theorem length_of_encode (h : p.encode = .ok bytes) : bytes.length = p.size := by
  rw [← encodePadded_nil] at h
  exact length_of_encodePadded h

theorem length_le_of_encode (h : p.encode = .ok bytes) : p.payload.length ≤ 65475 := by
  obtain ⟨inner, tunnel, -, -, houter⟩ := encode_eq_ok_iff.1 h
  have hlength := length_of_encode h
  have hsize := (InternetDatagram.encode_eq_ok_iff.1 houter).1
  rw [InternetDatagram.length_of_encode houter, size_eq] at hlength
  omega

/-! ### Reading -/

/-- The layers of a packet, from the outside in. -/
structure Layers where
  outer : InternetDatagram
  tunnel : UserDatagram
  label : LabelEntry
  inner : InternetDatagram
  message : EchoMessage

def ofLayers (l : Layers) : Packet where
  outer := .ofDatagram l.outer
  ports := ⟨l.tunnel.sourcePort, l.tunnel.destinationPort⟩
  label := l.label
  inner := .ofDatagram l.inner
  echo := ⟨l.message.kind, l.message.code, l.message.identifier, l.message.sequence⟩
  payload := l.message.payload

/-- Octets are read as these layers, each in the payload of the one before. -/
structure Layers.Read (l : Layers) (data : Octets) : Prop where
  outer_eq : InternetDatagram.decode data = .ok l.outer
  outer_udp : l.outer.protocol = .udp
  tunnel_eq : UserDatagram.decode l.outer.payload = .ok l.tunnel
  label_eq : LabelStack.decode l.tunnel.payload = .ok [l.label]
  inner_eq : InternetDatagram.decode (l.tunnel.payload.drop LabelEntry.size) = .ok l.inner
  inner_icmp : l.inner.protocol = .icmp
  message_eq : EchoMessage.decode l.inner.payload = .ok l.message

theorem decode_of_read {l : Layers} (h : l.Read data) : decode data = .ok (ofLayers l) := by
  have hsize : LabelStack.size [l.label] = LabelEntry.size := rfl
  rw [decode, h.outer_eq, Outcome.ok_bind]
  dsimp only
  rw [if_neg (Decidable.not_not.2 h.outer_udp), h.tunnel_eq, Outcome.ok_bind, h.label_eq, Outcome.ok_bind]
  dsimp only
  rw [hsize, h.inner_eq, Outcome.ok_bind, if_neg (Decidable.not_not.2 h.inner_icmp), h.message_eq]
  rfl

theorem decode_eq_ok_iff : decode data = .ok p ↔ ∃ l : Layers, l.Read data ∧ p = ofLayers l := by
  constructor
  · intro h
    obtain ⟨outer, houter, h⟩ := Outcome.bind_eq_ok_iff.1 h
    split at h
    · cases h
    rename_i hudp
    obtain ⟨tunnel, htunnel, h⟩ := Outcome.bind_eq_ok_iff.1 h
    obtain ⟨stack, hstack, h⟩ := Outcome.bind_eq_ok_iff.1 h
    split at h
    rotate_left
    · cases h
    rename_i label
    obtain ⟨inner, hinner, h⟩ := Outcome.bind_eq_ok_iff.1 h
    split at h
    · cases h
    rename_i hicmp
    obtain ⟨message, hmessage, h⟩ := Outcome.bind_eq_ok_iff.1 h
    cases h
    exact ⟨⟨outer, tunnel, label, inner, message⟩, ⟨houter, Decidable.not_not.1 hudp, htunnel, hstack, hinner,
      Decidable.not_not.1 hicmp, hmessage⟩, rfl⟩
  · rintro ⟨l, hread, rfl⟩
    exact decode_of_read hread

theorem exists_parsing_of_decode {fault : Fault} (h : decode data = .error fault) :
    ∃ cause, fault = .parsing cause := by
  rcases Outcome.bind_eq_error_iff.1 h with h | ⟨outer, -, h⟩
  · exact InternetDatagram.exists_parsing_of_decode h
  split at h
  · cases h
    exact ⟨_, rfl⟩
  rcases Outcome.bind_eq_error_iff.1 h with h | ⟨tunnel, -, h⟩
  · exact UserDatagram.exists_parsing_of_decode h
  rcases Outcome.bind_eq_error_iff.1 h with h | ⟨stack, -, h⟩
  · exact LabelStack.exists_parsing_of_decode h
  split at h
  rotate_left
  · cases h
    exact ⟨_, rfl⟩
  rcases Outcome.bind_eq_error_iff.1 h with h | ⟨inner, -, h⟩
  · exact InternetDatagram.exists_parsing_of_decode h
  split at h
  · cases h
    exact ⟨_, rfl⟩
  rcases Outcome.bind_eq_error_iff.1 h with h | ⟨message, -, h⟩
  · exact EchoMessage.exists_parsing_of_decode h
  · cases h

end LabelTunnel.Packet
