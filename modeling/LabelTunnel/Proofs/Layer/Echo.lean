import LabelTunnel.Layer.Echo
import LabelTunnel.Proofs.WordSum

/-! Echo messages printed and read. Any data with room for a header is a message, and what was read,
printed with the checksum it came with, is the data again; of a message only the spelling of its kind
can change on the way. -/

namespace LabelTunnel.EchoMessage

def ofFields (data : Octets) : EchoMessage where
  kind := .ofNumber (data.byteAt 0)
  code := data.byteAt 1
  identifier := data.wordAt 4
  sequence := data.wordAt 6
  checksum := data.wordAt 2
  payload := data.drop headerSize

theorem decode_of_le {data : Octets} (h : headerSize ≤ data.length) :
    decode data = .ok (ofFields data) := by
  rw [decode, if_neg (by omega)]
  rfl

theorem decode_eq_ok_iff {data : Octets} {m : EchoMessage} :
    decode data = .ok m ↔ headerSize ≤ data.length ∧ m = ofFields data := by
  by_cases h : headerSize ≤ data.length
  · rw [decode_of_le h, Except.ok.injEq, and_iff_right h, eq_comm]
  · rw [decode, if_pos (by omega)]
    simp [h]

theorem size_of_decode {data : Octets} {m : EchoMessage} (h : decode data = .ok m) : m.size = data.length := by
  obtain ⟨hroom, rfl⟩ := decode_eq_ok_iff.1 h
  rw [size, ofFields, List.length_drop]
  omega

theorem exists_parsing_of_decode {data : Octets} {fault : Fault} (h : decode data = .error fault) :
    ∃ cause, fault = .parsing cause := by
  rw [decode] at h
  split at h
  · exact ⟨_, (Except.error.inj h).symm⟩
  · cases h

section Layout

variable (m : EchoMessage) (checksum : UInt16)

@[simp] theorem wordAt_layout : (m.layout checksum).wordAt 2 = checksum := Octets.word_ofWord checksum

theorem clearWord_layout : (m.layout checksum).clearWord 2 = m.layout 0 := rfl

theorem ofFields_layout :
    ofFields (m.layout checksum) = { m with kind := .ofNumber m.kind.number, checksum } := by
  have hidentifier : (m.layout checksum).wordAt 4 = m.identifier := Octets.word_ofWord m.identifier
  have hsequence : (m.layout checksum).wordAt 6 = m.sequence := Octets.word_ofWord m.sequence
  rw [ofFields, hidentifier, hsequence, wordAt_layout]
  rfl

end Layout

/-- What was read, printed with the checksum it came with, is the data again. -/
theorem layout_ofFields {data : Octets} (h : headerSize ≤ data.length) :
    (ofFields data).layout (data.wordAt 2) = data := by
  have hroom : 8 ≤ data.length := h
  have hfront : [data.byteAt 0, data.byteAt 1] = data.slice 0 2 := by
    rw [Octets.slice_word (by omega), Octets.wordAt, Octets.ofWord_word]
  rw [layout, ofFields, EchoKind.number_ofNumber, hfront, ← Octets.slice_word (by omega),
    ← Octets.slice_word (by omega), ← Octets.slice_word (by omega)]
  simp (disch := omega) only [Octets.slice_append_slice]
  exact List.take_append_drop headerSize data

theorem encode_ofFields {data : Octets} (h : headerSize ≤ data.length)
    (hchecksum : data.wordAt 2 = Checksum.compute (data.clearWord 2)) : (ofFields data).encode = data := by
  have hlayout := layout_ofFields h
  have hclear : data.clearWord 2 = (ofFields data).layout 0 := by
    conv => lhs; rw [← hlayout, clearWord_layout]
  rw [encode, ← hclear, ← hchecksum, hlayout]

theorem length_encode (m : EchoMessage) : m.encode.length = m.size := length_layout m _

theorem wordAt_encode (m : EchoMessage) : m.encode.wordAt 2 = Checksum.compute (m.encode.clearWord 2) := by
  rw [encode, wordAt_layout, clearWord_layout]

theorem verify_of_wordAt_eq {data : Octets} (hroom : headerSize ≤ data.length)
    (h : data.length ≤ 131072) (hfield : data.wordAt 2 = Checksum.compute (data.clearWord 2)) :
    verify data = true := by
  have hroom' : 8 ≤ data.length := hroom
  rw [verify, Bool.and_eq_true, decide_eq_true_eq]
  exact ⟨hroom, Checksum.verify_of_wordAt_eq rfl (by omega) h hfield⟩

/-- A printed message is read back with the number of its kind. -/
theorem decode_encode (m : EchoMessage) : decode m.encode = .ok { m with
    kind := .ofNumber m.kind.number
    checksum := m.encode.wordAt 2 } := by
  have hroom : headerSize ≤ m.encode.length := by
    rw [length_encode, size]
    exact Nat.le_add_right _ _
  rw [decode_of_le hroom, encode, ofFields_layout, wordAt_layout]

end LabelTunnel.EchoMessage
