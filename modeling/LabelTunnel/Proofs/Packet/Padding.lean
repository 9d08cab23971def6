import LabelTunnel.Proofs.Layer.Stack
import LabelTunnel.Proofs.Packet.RoundTrip

/-! Packets with octets between their layers. Every layer but the innermost ends where its own length field
says, so octets may follow the inner datagram inside the tunnel, the tunnel inside the outer datagram, and the
outer datagram itself: the packet that is read is the same. What must not happen is that octets are missing,
or that the label of the packet is not the only one. -/

namespace LabelTunnel.Packet

variable {p : Packet} {above : List LabelEntry} {x y bytes : Octets}

/-- A tunnel with more than one label is refused, and told their number. -/
theorem Carries.decode_of_stack {stack : List LabelEntry} {data rest : Octets}
    (h : p.Carries data (LabelStack.encode stack ++ rest)) (hstack : LabelStack.Bottomed stack)
    (hmany : 1 < stack.length) : decode data = .error (.parsing (.labelCount stack.length)) := by
  obtain ⟨outer, tunnel, houter, hudp, -, htunnel, -, -, hpayload⟩ := h
  have hread := LabelStack.decode_encode_append hstack rest
  rw [decode, houter, Outcome.ok_bind, if_neg (Decidable.not_not.2 hudp), htunnel]
  rcases stack with _ | ⟨e, _ | ⟨e', below⟩⟩
  · exact absurd hmany (by decide)
  · exact absurd hmany (Nat.lt_irrefl 1)
  · rw [Outcome.ok_bind, hpayload, hread, ← List.length_map (f := LabelEntry.masked)]
    rfl

theorem decode_encodePadded_of_stacked (h : p.encodePadded above x y = .ok bytes) (hne : above ≠ [])
    (habove : ∀ e ∈ above, e.bottom = false) (hbottom : p.label.bottom = true) (z : Octets) :
    decode (bytes ++ z) = .error (.parsing (.labelCount (above.length + 1))) := by
  obtain ⟨inner, -, hcarries⟩ := exists_carries_of_encodePadded h z
  have hlength : (above ++ [p.label]).length = above.length + 1 := List.length_append
  have hpositive := List.length_pos_iff.2 hne
  rw [← hlength]
  exact hcarries.decode_of_stack (.append_singleton habove hbottom) (by omega)

theorem decode_take_of_encodePadded (h : p.encodePadded above x y = .ok bytes) {k : Nat}
    (hk : k < bytes.length) : ∃ cause, decode (bytes.take k) = .error (.parsing cause) := by
  obtain ⟨inner, tunnel, -, -, houter⟩ := encodePadded_eq_ok_iff.1 h
  obtain ⟨cause, hcause⟩ := InternetDatagram.decode_take_of_encode houter hk
  refine ⟨cause, ?_⟩
  rw [decode, hcause]
  rfl

/-- **Padding, truncation and stacked labels.** A packet that is exact can be printed with octets behind its
inner datagram, behind its tunnel and behind the whole, as long as it fits the outer length field, and it is
read all the same; cut short anywhere before the last of these, it is refused. With further labels above its
own it is refused too, whatever octets are added. -/
theorem padded_decode (p : Packet) (h : p.Exact) (x y z : Octets) : p.encodePadded [] [] [] = p.encode ∧
    (p.size + x.length + y.length ≤ 65535 → ∃ bytes, p.encodePadded [] x y = .ok bytes ∧
      bytes.length = p.size + x.length + y.length ∧ decode (bytes ++ z) = .ok p ∧
      ∀ k < bytes.length, ∃ cause, decode (bytes.take k) = .error (.parsing cause)) ∧
    ∀ above, above ≠ [] → (∀ e ∈ above, e.bottom = false) →
      p.size + LabelStack.size above + x.length + y.length ≤ 65535 →
      ∃ bytes, p.encodePadded above x y = .ok bytes ∧
        decode (bytes ++ z) = .error (.parsing (.labelCount (above.length + 1))) := by
  obtain ⟨hlabel, hclass, hbottom, hkind⟩ := h
  refine ⟨p.encodePadded_nil, ?_, ?_⟩
  · intro hfit
    obtain ⟨bytes, hencode⟩ := @exists_encodePadded p [] x y hfit
    have hself : p.asRead = p := p.asRead_eq_self_iff.2 ⟨⟨hlabel, hclass⟩, hkind⟩
    refine ⟨bytes, hencode, length_of_encodePadded hencode, ?_, ?_⟩
    · rw [decode_encodePadded hencode hbottom, hself]
    · intro k hk
      exact decode_take_of_encodePadded hencode hk
  · intro above hne habove hfit
    obtain ⟨bytes, hencode⟩ := exists_encodePadded hfit
    exact ⟨bytes, hencode, decode_encodePadded_of_stacked hencode hne habove hbottom z⟩

def samplePlain : Packet :=
  { outer := ⟨⟨10, 0, 0, 1⟩, ⟨10, 0, 0, 2⟩, 64, 1⟩
    ports := ⟨5000, 6635⟩
    label := ⟨100, 0, true, 64⟩
    inner := ⟨⟨192, 168, 0, 1⟩, ⟨192, 168, 0, 2⟩, 64, 1⟩
    echo := ⟨.request, 0, 1, 1⟩
    payload := [0x68, 0x69] }

/-- Padding at all three places, and two labels above the one of the packet. -/
theorem padded_decode_samplePlain : samplePlain.Exact ∧
    samplePlain.encodePadded [] [] [] = samplePlain.encode ∧
    (∃ bytes, samplePlain.encodePadded [] [1] [2, 3] = .ok bytes ∧ bytes.length = samplePlain.size + 1 + 2 ∧
      decode (bytes ++ [4, 5, 6]) = .ok samplePlain ∧
      ∀ k < bytes.length, ∃ cause, decode (bytes.take k) = .error (.parsing cause)) ∧
    ∃ bytes, samplePlain.encodePadded [⟨7, 0, false, 64⟩, ⟨8, 1, false, 63⟩] [1] [2, 3] = .ok bytes ∧
      decode (bytes ++ [4, 5, 6]) = .error (.parsing (.labelCount 3)) := by
  have hexact : samplePlain.Exact := ⟨by decide, by decide, rfl, by decide⟩
  obtain ⟨hnil, hpadded, hstacked⟩ := padded_decode samplePlain hexact [1] [2, 3] [4, 5, 6]
  exact ⟨hexact, hnil, hpadded (by decide), hstacked _ (by decide) (by decide) (by decide)⟩

end LabelTunnel.Packet
