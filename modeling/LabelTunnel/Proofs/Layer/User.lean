import LabelTunnel.Layer.User
import LabelTunnel.Proofs.Outcome
import LabelTunnel.Proofs.WordSum

/-! User datagrams printed and read. The reader accepts exactly the octets that hold a header and the
length it states, and a printed datagram is read back, whatever padding follows. What was read, printed
with the length and checksum it came with, is the data up to that length; nothing else is dropped. -/

namespace LabelTunnel.UserDatagram

/-- The data holds a header, and the length it states covers the header and fits the data. -/
structure Fits (data : Octets) : Prop where
  room : headerSize ≤ data.length
  covers : headerSize ≤ (data.wordAt 4).toNat
  available : (data.wordAt 4).toNat ≤ data.length

def ofFields (data : Octets) : UserDatagram where
  sourcePort := data.wordAt 0
  destinationPort := data.wordAt 2
  checksum := data.wordAt 6
  payload := data.slice headerSize (data.wordAt 4).toNat

theorem decode_of_fits {data : Octets} (h : Fits data) : decode data = .ok (ofFields data) := by
  obtain ⟨hroom, hcovers, havailable⟩ := h
  simp only [decode]
  rw [if_neg (by omega), if_neg (by omega)]
  rfl

theorem decode_of_not_fits {data : Octets} (h : ¬Fits data) :
    ∃ cause, decode data = .error (.parsing cause) := by
  simp only [decode]
  by_cases hroom : data.length < headerSize
  · exact ⟨_, if_pos hroom⟩
  rw [if_neg hroom]
  by_cases hlength : (data.wordAt 4).toNat < headerSize ∨ data.length < (data.wordAt 4).toNat
  · exact ⟨_, if_pos hlength⟩
  exact absurd ⟨by omega, by omega, by omega⟩ h

theorem decode_eq_ok_iff {data : Octets} {d : UserDatagram} :
    decode data = .ok d ↔ Fits data ∧ d = ofFields data :=
  Outcome.eq_ok_iff_of_decided decode_of_fits decode_of_not_fits

theorem exists_parsing_of_decode {data : Octets} {fault : Fault} (h : decode data = .error fault) :
    ∃ cause, fault = .parsing cause :=
  Outcome.exists_fault_of_decided decode_of_fits decode_of_not_fits h

theorem length_payload_ofFields {data : Octets} (h : Fits data) :
    (ofFields data).payload.length = (data.wordAt 4).toNat - headerSize := by
  rw [ofFields, Octets.length_slice, Nat.min_eq_left h.available]

theorem size_le_of_decode {data : Octets} {d : UserDatagram} (h : decode data = .ok d) :
    d.size ≤ data.length := by
  obtain ⟨hfits, rfl⟩ := decode_eq_ok_iff.1 h
  rw [size, length_payload_ofFields hfits]
  obtain ⟨-, hcovers, havailable⟩ := hfits
  omega

/-! ### From fields to octets and back -/

section Layout

variable (d : UserDatagram) (length checksum : UInt16) (padding : Octets)

@[simp] theorem wordAt_layout_length : (d.layout length checksum ++ padding).wordAt 4 = length :=
  Octets.word_ofWord length

@[simp] theorem wordAt_layout_checksum : (d.layout length checksum ++ padding).wordAt 6 = checksum :=
  Octets.word_ofWord checksum

theorem clearWord_layout : (d.layout length checksum).clearWord 6 = d.layout length 0 := rfl

theorem ofFields_layout : ofFields (d.layout length checksum ++ padding) =
    { d with checksum, payload := (d.payload ++ padding).take (length.toNat - headerSize) } := by
  have hsource : (d.layout length checksum ++ padding).wordAt 0 = d.sourcePort :=
    Octets.word_ofWord d.sourcePort
  have hdestination : (d.layout length checksum ++ padding).wordAt 2 = d.destinationPort :=
    Octets.word_ofWord d.destinationPort
  have hpayload : (d.layout length checksum ++ padding).drop headerSize = d.payload ++ padding := rfl
  rw [ofFields, hsource, hdestination, wordAt_layout_checksum, wordAt_layout_length,
    Octets.slice_eq_take_drop, hpayload]

end Layout

/-- What was read, printed with the length and checksum it came with, is the data up to that length. -/
theorem layout_ofFields {data : Octets} (h : Fits data) :
    (ofFields data).layout (data.wordAt 4) (data.wordAt 6) = data.slice 0 (data.wordAt 4).toNat := by
  have hroom : 8 ≤ data.length := h.room
  have hcovers : 8 ≤ (data.wordAt 4).toNat := h.covers
  rw [layout, ofFields, headerSize, ← Octets.slice_word (by omega), ← Octets.slice_word (by omega),
    ← Octets.slice_word (by omega), ← Octets.slice_word (by omega)]
  simp (disch := omega) only [Octets.slice_append_slice]

/-! ### Printing -/

theorem encode_of_le {d : UserDatagram} (h : d.size ≤ 65535) (source destination : Address) :
    d.encode source destination = .ok (d.layout d.size.toUInt16
      (sentChecksum source destination (d.layout d.size.toUInt16 0))) := by
  rw [encode, lengthField, if_pos h]
  rfl

theorem encode_eq_ok_iff {d : UserDatagram} {source destination : Address} {bytes : Octets} :
    d.encode source destination = .ok bytes ↔ d.size ≤ 65535 ∧ bytes = d.layout d.size.toUInt16
      (sentChecksum source destination (d.layout d.size.toUInt16 0)) := by
  by_cases h : d.size ≤ 65535
  · rw [encode_of_le h, Except.ok.injEq, and_iff_right h, eq_comm]
  · rw [encode, lengthField, if_neg h]
    simp [Except.map, h]

theorem toNat_toUInt16_size {d : UserDatagram} (h : d.size ≤ 65535) :
    d.size.toUInt16.toNat = d.size := Nat.mod_eq_of_lt (by omega)

theorem length_of_encode {d : UserDatagram} {source destination : Address} {bytes : Octets}
    (h : d.encode source destination = .ok bytes) : bytes.length = d.size := by
  rw [(encode_eq_ok_iff.1 h).2, length_layout]

theorem fields_of_encode {d : UserDatagram} {source destination : Address} {bytes : Octets}
    (h : d.encode source destination = .ok bytes) : (bytes.wordAt 4).toNat = bytes.length ∧
      bytes.wordAt 6 = sentChecksum source destination (bytes.clearWord 6) := by
  obtain ⟨hsize, rfl⟩ := encode_eq_ok_iff.1 h
  have hlength := wordAt_layout_length d d.size.toUInt16
    (sentChecksum source destination (d.layout d.size.toUInt16 0)) []
  have hchecksum := wordAt_layout_checksum d d.size.toUInt16
    (sentChecksum source destination (d.layout d.size.toUInt16 0)) []
  rw [List.append_nil] at hlength hchecksum
  rw [hlength, hchecksum, length_layout, toNat_toUInt16_size hsize, clearWord_layout]
  exact ⟨rfl, rfl⟩

theorem encode_ofFields {data : Octets} {source destination : Address} (h : Fits data)
    (hchecksum : data.wordAt 6 =
      sentChecksum source destination ((data.slice 0 (data.wordAt 4).toNat).clearWord 6)) :
    (ofFields data).encode source destination = .ok (data.slice 0 (data.wordAt 4).toNat) := by
  have hcovers := h.covers
  have hlt := (data.wordAt 4).toNat_lt
  have hsize : (ofFields data).size = (data.wordAt 4).toNat := by
    rw [size, length_payload_ofFields h]
    omega
  have hword : (ofFields data).size.toUInt16 = data.wordAt 4 := by
    rw [hsize]
    exact UInt16.ofNat_toNat
  rw [← layout_ofFields h, clearWord_layout] at hchecksum
  rw [encode_of_le (by omega), hword, ← hchecksum, layout_ofFields h]

theorem decode_encode_append {d : UserDatagram} {source destination : Address} {bytes : Octets}
    (h : d.encode source destination = .ok bytes) (padding : Octets) :
    decode (bytes ++ padding) = .ok { d with checksum := bytes.wordAt 6 } := by
  obtain ⟨hsize, hbytes⟩ := encode_eq_ok_iff.1 h
  have hlength := toNat_toUInt16_size hsize
  have hchecksum := wordAt_layout_checksum d d.size.toUInt16
    (sentChecksum source destination (d.layout d.size.toUInt16 0)) []
  rw [List.append_nil] at hchecksum
  have hpayload : (d.payload ++ padding).take (d.size - headerSize) = d.payload := by
    rw [size, Nat.add_sub_cancel_left, List.take_left]
  have hheader : headerSize ≤ d.size := Nat.le_add_right _ _
  rw [hbytes, hchecksum, decode_of_fits, ofFields_layout, hlength, hpayload]
  refine ⟨?_, ?_, ?_⟩
  · rw [List.length_append, length_layout]
    omega
  · rwa [wordAt_layout_length, hlength]
  · rw [wordAt_layout_length, hlength, List.length_append, length_layout]
    omega

/-! ### The checksum -/

theorem sentChecksum_ne_zero (source destination : Address) (data : Octets) :
    sentChecksum source destination data ≠ 0 := by
  simp only [sentChecksum]
  split
  · decide
  · assumption

/-- Modulo 65535, sending the other zero makes no difference. -/
theorem toNat_sentChecksum_mod (source destination : Address) (data : Octets) :
    (sentChecksum source destination data).toNat % 65535 =
      (Checksum.computeTransport source destination Protocol.udp.number data).toNat % 65535 := by
  simp only [sentChecksum]
  split
  · rename_i hzero
    rw [hzero]
    rfl
  · rfl

/-- What the checksum of a user datagram is taken over. -/
def covered (source destination : Address) (data : Octets) : Octets :=
  Checksum.pseudoHeader source destination Protocol.udp.number data.length ++ data

theorem length_covered (source destination : Address) (data : Octets) :
    (covered source destination data).length = 12 + data.length := by
  rw [covered, List.length_append, Checksum.length_pseudoHeader]

/-- With a checksum in its field a datagram is intact exactly if all that is covered is. -/
theorem verify_iff_covered {data : Octets} {source destination : Address} (hroom : headerSize ≤ data.length)
    (hfield : data.wordAt 6 ≠ 0) :
    verify data source destination = true ↔ Checksum.verify (covered source destination data) = true := by
  rw [verify, Checksum.computeTransport_eq_compute, decide_eq_true hroom, Bool.true_and,
    beq_eq_false_iff_ne.2 hfield, Bool.false_or]
  rfl

/-- A datagram with the checksum that is sent for it is intact: among what the checksum covers, too, its field
stands at an even place. -/
theorem verify_of_wordAt_eq {data : Octets} {source destination : Address} (hroom : headerSize ≤ data.length)
    (h : data.length ≤ 131060)
    (hfield : data.wordAt 6 = sentChecksum source destination (data.clearWord 6)) :
    verify data source destination = true := by
  have hroom' : 8 ≤ data.length := hroom
  have hlength := length_covered source destination data
  have hne : data.wordAt 6 ≠ 0 := hfield.symm ▸ sentChecksum_ne_zero _ _ _
  have hword : (covered source destination data).wordAt 18 = data.wordAt 6 := rfl
  have hclear : (covered source destination data).clearWord 18 =
      covered source destination (data.clearWord 6) := by
    rw [covered, covered, Octets.length_clearWord]
    rfl
  have hintact := @Checksum.verify_iff_wordAt (covered source destination data) 18 rfl (by omega) (by omega)
  rw [verify_iff_covered hroom hne, hintact, hword, hclear, hfield, toNat_sentChecksum_mod,
    Checksum.computeTransport_eq_compute, covered]

end LabelTunnel.UserDatagram
