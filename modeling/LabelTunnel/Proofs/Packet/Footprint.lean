import LabelTunnel.Proofs.Packet.Layers

/-! Where a packet shows its flow. Two packets that differ in their flow only, the source port and the
inner source, are equally long, and their octets differ in these fields and in the two checksums that
depend on them: the one of the tunnel and the one of the inner header. -/

namespace LabelTunnel

namespace Octets

/-- Equally long, and with the same octet at each offset that is not one of those given. -/
structure SameBut (changed : Nat → Prop) (a b : Octets) : Prop where
  length_eq : a.length = b.length
  getElem?_eq : ∀ i, ¬changed i → a[i]? = b[i]?

namespace SameBut

variable {changed : Nat → Prop} {a b c d : Octets}

theorem refl (changed : Nat → Prop) (a : Octets) : SameBut changed a a := ⟨rfl, fun _ _ => rfl⟩

/-- Nothing is said about octets that may all change. -/
theorem of_length {n : Nat} (ha : a.length = n) (hb : b.length = n) (hchanged : ∀ i, i < n → changed i) :
    SameBut changed a b := by
  refine ⟨ha.trans hb.symm, ?_⟩
  intro i hi
  have hout : n ≤ i := Nat.le_of_not_lt fun hin => hi (hchanged i hin)
  rw [List.getElem?_eq_none (ha ▸ hout), List.getElem?_eq_none (hb ▸ hout)]

/-- Behind a first part offsets are counted from its end. -/
theorem append (h : SameBut changed a b) (h' : SameBut (fun i => changed (a.length + i)) c d) :
    SameBut changed (a ++ c) (b ++ d) := by
  refine ⟨?_, ?_⟩
  · rw [List.length_append, List.length_append, h.length_eq, h'.length_eq]
  · intro i hi
    by_cases hin : i < a.length
    · rw [List.getElem?_append_left hin, List.getElem?_append_left (h.length_eq ▸ hin), h.getElem?_eq i hi]
    · have hout := Nat.le_of_not_lt hin
      rw [List.getElem?_append_right hout, List.getElem?_append_right (h.length_eq ▸ hout), ← h.length_eq]
      refine h'.getElem?_eq (i - a.length) ?_
      rwa [Nat.add_sub_cancel' hout]

theorem mono {changed' : Nat → Prop} (h : SameBut changed a b) (hle : ∀ i, changed i → changed' i) :
    SameBut changed' a b :=
  ⟨h.length_eq, fun i hi => h.getElem?_eq i fun hc => hi (hle i hc)⟩

end SameBut

end Octets

open Octets (SameBut)

namespace InternetDatagram

variable {d : InternetDatagram} {bytes bytes' : Octets}

/-- A datagram that another source sends shows it in its source field and in its checksum. -/
theorem sameBut_of_source {source : Address} (h : d.encode = .ok bytes)
    (h' : { d with source }.encode = .ok bytes') : SameBut (fun i => 10 ≤ i ∧ i < 16) bytes bytes' := by
  rw [(encode_eq_ok_iff.1 h).2, (encode_eq_ok_iff.1 h').2]
  refine .append (.append (.append (.append (.refl _ _) ?_) ?_) (.refl _ _)) (.refl _ _)
  · refine .of_length (n := 2) rfl rfl ?_
    intro i hi
    show 10 ≤ 10 + i ∧ 10 + i < 16
    omega
  · refine .of_length (n := 4) rfl rfl ?_
    intro i hi
    show 10 ≤ 12 + i ∧ 12 + i < 16
    omega

/-- The header does not depend on the payload, but for its length. -/
theorem sameBut_of_payload {changed : Nat → Prop} {payload : Octets} (h : d.encode = .ok bytes)
    (h' : { d with payload }.encode = .ok bytes') (hpayload : SameBut changed d.payload payload) :
    SameBut (fun i => 20 ≤ i ∧ changed (i - 20)) bytes bytes' := by
  have hsize : { d with payload }.size = d.size := congrArg (headerSize + ·) hpayload.length_eq.symm
  rw [(encode_eq_ok_iff.1 h).2, (encode_eq_ok_iff.1 h').2, hsize]
  refine .append (.refl _ _) (hpayload.mono ?_)
  intro i hi
  show 20 ≤ 20 + i ∧ changed (20 + i - 20)
  rw [Nat.add_sub_cancel_left]
  exact ⟨Nat.le_add_right 20 i, hi⟩

end InternetDatagram

theorem UserDatagram.sameBut_of_port {d : UserDatagram} {bytes bytes' : Octets} {source destination : Address}
    {changed : Nat → Prop} {sourcePort : UInt16} {payload : Octets} (h : d.encode source destination = .ok bytes)
    (h' : { d with sourcePort, payload }.encode source destination = .ok bytes')
    (hpayload : SameBut changed d.payload payload) :
    SameBut (fun i => i < 2 ∨ 6 ≤ i ∧ i < 8 ∨ 8 ≤ i ∧ changed (i - 8)) bytes bytes' := by
  have hsize : { d with sourcePort, payload }.size = d.size := congrArg (headerSize + ·) hpayload.length_eq.symm
  rw [(encode_eq_ok_iff.1 h).2, (encode_eq_ok_iff.1 h').2, hsize]
  refine .append (.append (.append (.append ?_ (.refl _ _)) (.refl _ _)) ?_) (hpayload.mono ?_)
  · exact .of_length (n := 2) rfl rfl fun i hi => .inl hi
  · refine .of_length (n := 2) rfl rfl ?_
    intro i hi
    show 6 + i < 2 ∨ 6 ≤ 6 + i ∧ 6 + i < 8 ∨ _
    omega
  · intro i hi
    show 8 + i < 2 ∨ 6 ≤ 8 + i ∧ 8 + i < 8 ∨ 8 ≤ 8 + i ∧ changed (8 + i - 8)
    rw [Nat.add_sub_cancel_left]
    exact .inr (.inr ⟨Nat.le_add_right 8 i, hi⟩)

namespace Packet

variable {p : Packet} {bytes bytes' : Octets}

/-- The offsets that depend on the flow of a packet: its source port, the checksum of the tunnel, and the
checksum and the source of the inner header. -/
def FlowOffset (i : Nat) : Prop := 20 ≤ i ∧ i < 22 ∨ 26 ≤ i ∧ i < 28 ∨ 42 ≤ i ∧ i < 44 ∨ 44 ≤ i ∧ i < 48

/-- The packet as another flow sends it. -/
def sentBy (p : Packet) (source : Address) (sourcePort : UInt16) : Packet :=
  { p with ports := ⟨sourcePort, p.ports.destination⟩, inner := { p.inner with source } }

theorem sameBut_of_flow {source : Address} {sourcePort : UInt16} (h : p.encode = .ok bytes)
    (h' : (p.sentBy source sourcePort).encode = .ok bytes') : SameBut FlowOffset bytes bytes' := by
  obtain ⟨inner, tunnel, hinner, htunnel, houter⟩ := encode_eq_ok_iff.1 h
  obtain ⟨inner', tunnel', hinner', htunnel', houter'⟩ := encode_eq_ok_iff.1 h'
  have hinners : SameBut (fun i => 10 ≤ i ∧ i < 16) inner inner' :=
    InternetDatagram.sameBut_of_source hinner hinner'
  have hpayloads : SameBut (fun i => 14 ≤ i ∧ i < 20) (p.label.encode ++ inner) (p.label.encode ++ inner') := by
    refine .append (.refl _ _) (hinners.mono ?_)
    intro i hi
    show 14 ≤ 4 + i ∧ 4 + i < 20
    omega
  have htunnels := UserDatagram.sameBut_of_port htunnel htunnel' hpayloads
  refine (InternetDatagram.sameBut_of_payload houter houter' htunnels).mono ?_
  intro i hi
  unfold FlowOffset
  omega

end Packet

end LabelTunnel
