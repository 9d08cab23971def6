import LabelTunnel.Proofs.Packet.Layers

/-! Packets printed and read back. Every packet that fits is printed, and a packet with the bottom bit
comes back with its label and class cut to their fields and its kind spelled by number; so exactly the
packets that are in this form already come back unchanged. Without the bottom bit the reader takes what
stands behind the label for more labels and finds no packet, whatever that is. -/

namespace LabelTunnel

theorem EchoKind.ofNumber_number_eq_self_iff (k : EchoKind) :
    ofNumber k.number = k ↔ k ≠ .other 0 ∧ k ≠ .other 8 := by
  cases k with
  | reply => decide
  | request => decide
  | other n =>
      by_cases hreply : n = 0
      · simp [number, ofNumber, hreply]
      · by_cases hrequest : n = 8
        · simp [number, ofNumber, hrequest]
        · simp [number, ofNumber, hreply, hrequest]

theorem LabelEntry.masked_eq_self_iff (e : LabelEntry) :
    e.masked = e ↔ e.label < 0x100000 ∧ e.trafficClass < 8 := by
  have hmax : (maxLabel + 1).toNat = 1048576 := rfl
  obtain ⟨label, trafficClass, bottom, ttl⟩ := e
  simp only [masked, mk.injEq, and_true, ← UInt32.toNat_inj, ← UInt8.toNat_inj, UInt32.lt_iff_toNat_lt,
    UInt8.lt_iff_toNat_lt, UInt32.toNat_mod, UInt8.toNat_mod, hmax, UInt32.reduceToNat, UInt8.reduceToNat]
  omega

namespace Packet

variable {p : Packet} {above : List LabelEntry} {x y data bytes : Octets}

/-- The packet with its label reduced to 20 bits, its class to 3, and its kind spelled by number. -/
def asRead (p : Packet) : Packet :=
  { p with
    label := { p.label with
      label := p.label.label % 0x100000
      trafficClass := p.label.trafficClass % 8 }
    echo := { p.echo with kind := .ofNumber p.echo.kind.number } }

/-- Nothing of the packet is lost or respelled when it is printed. -/
structure Exact (p : Packet) : Prop where
  label : p.label.label < 0x100000
  trafficClass : p.label.trafficClass < 8
  bottom : p.label.bottom = true
  kind : p.echo.kind ≠ .other 0 ∧ p.echo.kind ≠ .other 8

theorem asRead_eq_self_iff (p : Packet) : p.asRead = p ↔
    (p.label.label < 0x100000 ∧ p.label.trafficClass < 8) ∧
      p.echo.kind ≠ .other 0 ∧ p.echo.kind ≠ .other 8 := by
  rw [← LabelEntry.masked_eq_self_iff, ← EchoKind.ofNumber_number_eq_self_iff]
  obtain ⟨outer, ports, label, inner, ⟨kind, code, identifier, sequence⟩, payload⟩ := p
  simp only [asRead, mk.injEq, EchoHeader.mk.injEq, true_and, and_true]
  rfl

/-- The data is read as the outer datagram of the packet around its tunnel, and this is what the tunnel holds. -/
def Carries (p : Packet) (data content : Octets) : Prop := ∃ outer tunnel,
  InternetDatagram.decode data = .ok outer ∧ outer.protocol = .udp ∧ Envelope.ofDatagram outer = p.outer ∧
  UserDatagram.decode outer.payload = .ok tunnel ∧ tunnel.sourcePort = p.ports.source ∧
  tunnel.destinationPort = p.ports.destination ∧ tunnel.payload = content

/-- A printed tunnel is found again, with padding behind it inside the outer datagram and behind that. -/
theorem exists_carries_of_encodePadded (h : p.encodePadded above x y = .ok bytes) (rest : Octets) :
    ∃ inner, p.innerDatagram.encode = .ok inner ∧
      p.Carries (bytes ++ rest) (LabelStack.encode (above ++ [p.label]) ++ (inner ++ x)) := by
  obtain ⟨inner, tunnel, hinner, htunnel, houter⟩ := encodePadded_eq_ok_iff.1 h
  exact ⟨inner, hinner, _, _, InternetDatagram.decode_encode_append houter rest, rfl, rfl,
    UserDatagram.decode_encode_append htunnel y, rfl, rfl, rfl⟩

namespace Carries

/-- Behind the bottom label the inner datagram is found, whatever padding follows it. -/
theorem decode_of_bottom {inner padding : Octets} (h : p.Carries data (p.label.encode ++ (inner ++ padding)))
    (hinner : p.innerDatagram.encode = .ok inner) (hbottom : p.label.bottom = true) :
    decode data = .ok p.asRead := by
  obtain ⟨outer, tunnel, houter, hudp, henvelope, htunnel, hsource, hdestination, hpayload⟩ := h
  have hroom : LabelEntry.size ≤ tunnel.payload.length := by
    rw [hpayload, List.length_append, LabelEntry.length_encode]
    exact Nat.le_add_right _ _
  have hlabel : LabelStack.decode tunnel.payload = .ok [p.label.masked] := by
    refine LabelStack.decode_eq_ok_singleton_iff.2 ⟨hroom, ?_, hbottom⟩
    rw [hpayload, LabelEntry.ofFields_encode]
  have hread := InternetDatagram.decode_encode_append hinner padding
  have hdrop : tunnel.payload.drop LabelEntry.size = inner ++ padding := by
    rw [hpayload]
    rfl
  have hlayers := decode_of_read (l := ⟨outer, tunnel, p.label.masked, _, _⟩)
    ⟨houter, hudp, htunnel, hlabel, hdrop ▸ hread, rfl, p.message.decode_encode⟩
  rw [hlayers]
  simp only [ofLayers, henvelope, hsource, hdestination]
  rfl

/-- A first label that is no bottom is not the only one, and a packet is read with one label alone, which has
the bottom bit. -/
theorem decode_of_not_bottom {e : LabelEntry} {rest : Octets} (h : p.Carries data (e.encode ++ rest))
    (hbottom : e.bottom = false) : ∃ cause, decode data = .error (.parsing cause) := by
  obtain ⟨outer, tunnel, houter, -, -, htunnel, -, -, hpayload⟩ := h
  cases hdecode : decode data with
  | error fault =>
      obtain ⟨cause, hcause⟩ := exists_parsing_of_decode hdecode
      exact ⟨cause, congrArg Except.error hcause⟩
  | ok q =>
      obtain ⟨l, hread, -⟩ := decode_eq_ok_iff.1 hdecode
      have houter' : l.outer = outer := Except.ok.inj (hread.outer_eq.symm.trans houter)
      have htunnel' : l.tunnel = tunnel := by
        have := hread.tunnel_eq
        rw [houter'] at this
        exact Except.ok.inj (this.symm.trans htunnel)
      obtain ⟨-, hlabel, hset⟩ := LabelStack.decode_eq_ok_singleton_iff.1 hread.label_eq
      rw [hlabel, htunnel', hpayload, LabelEntry.ofFields_encode] at hset
      exact absurd hset (by rw [LabelEntry.masked, hbottom]; decide)

end Carries

theorem decode_encodePadded (h : p.encodePadded [] x y = .ok bytes) (hbottom : p.label.bottom = true)
    (rest : Octets) : decode (bytes ++ rest) = .ok p.asRead := by
  obtain ⟨inner, hinner, hcarries⟩ := exists_carries_of_encodePadded h rest
  rw [List.nil_append, LabelStack.encode, List.flatMap_singleton] at hcarries
  exact hcarries.decode_of_bottom hinner hbottom

theorem decode_encode_of_bottom (h : p.encode = .ok bytes) (hbottom : p.label.bottom = true) :
    decode bytes = .ok p.asRead := by
  rw [← encodePadded_nil] at h
  rw [← decode_encodePadded h hbottom [], List.append_nil]

theorem decode_encode_of_not_bottom (h : p.encode = .ok bytes) (hbottom : p.label.bottom = false) :
    ∃ cause, decode bytes = .error (.parsing cause) := by
  rw [← encodePadded_nil] at h
  obtain ⟨inner, -, hcarries⟩ := exists_carries_of_encodePadded h []
  rw [List.append_nil, List.nil_append, LabelStack.encode, List.flatMap_singleton] at hcarries
  exact hcarries.decode_of_not_bottom hbottom

theorem decode_encode_eq_ok_self_iff (h : p.encode = .ok bytes) : decode bytes = .ok p ↔ p.Exact := by
  constructor
  · intro hdecode
    have hbottom : p.label.bottom = true := by
      cases hcase : p.label.bottom with
      | true => rfl
      | false =>
          obtain ⟨cause, hcause⟩ := decode_encode_of_not_bottom h hcase
          cases hdecode.symm.trans hcause
    have hself : p.asRead = p :=
      Except.ok.inj ((decode_encode_of_bottom h hbottom).symm.trans hdecode)
    obtain ⟨⟨hlabel, hclass⟩, hkind⟩ := p.asRead_eq_self_iff.1 hself
    exact ⟨hlabel, hclass, hbottom, hkind⟩
  · rintro ⟨hlabel, hclass, hbottom, hkind⟩
    rw [decode_encode_of_bottom h hbottom, p.asRead_eq_self_iff.2 ⟨⟨hlabel, hclass⟩, hkind⟩]

/-- **Reading undoes printing.** A packet that fits is printed; with the bottom bit it is read back up to
the widths of its label fields and the spelling of its kind, and it is read back as it was exactly if it
is exact; without the bottom bit it is refused. -/
theorem exists_encode_and_decode (p : Packet) (h : p.payload.length ≤ 65475) : ∃ bytes, p.encode = .ok bytes ∧
    (p.label.bottom = true → decode bytes = .ok p.asRead) ∧ (decode bytes = .ok p ↔ p.Exact) ∧
    (p.label.bottom = false → ∃ cause, decode bytes = .error (.parsing cause)) := by
  obtain ⟨bytes, hencode⟩ := exists_encode h
  exact ⟨bytes, hencode, decode_encode_of_bottom hencode, decode_encode_eq_ok_self_iff hencode,
    decode_encode_of_not_bottom hencode⟩

/-- A packet whose label, class and kind are not as they are sent. -/
def sampleWide : Packet :=
  { outer := ⟨⟨10, 0, 0, 1⟩, ⟨10, 0, 0, 2⟩, 64, 1⟩
    ports := ⟨5000, 6635⟩
    label := ⟨0x100064, 9, true, 64⟩
    inner := ⟨⟨192, 168, 0, 1⟩, ⟨192, 168, 0, 2⟩, 64, 1⟩
    echo := ⟨.other 8, 0, 1, 1⟩
    payload := [0x68, 0x69] }

theorem exists_encode_and_decode_wide : sampleWide.payload.length ≤ 65475 ∧
    ∃ bytes, sampleWide.encode = .ok bytes ∧
    (sampleWide.label.bottom = true → decode bytes = .ok sampleWide.asRead) ∧
    (decode bytes = .ok sampleWide ↔ sampleWide.Exact) ∧
    (sampleWide.label.bottom = false → ∃ cause, decode bytes = .error (.parsing cause)) :=
  ⟨by decide, exists_encode_and_decode sampleWide (by decide)⟩

end Packet

end LabelTunnel
