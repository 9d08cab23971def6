import LabelTunnel.Proofs.Checksum.Detection
import LabelTunnel.Proofs.Checksum.Rearrangement
import LabelTunnel.Proofs.Layer.RoundTrip

/-! Padding behind a user datagram. The reader ends a datagram where its length field says and drops what
follows. The check takes every octet it is given: padding counts among the words, and its length in the
pseudo-header. So an intact datagram with a checksum stays intact behind padding only where the two cancel
out, and never does with zeros behind it. -/

namespace LabelTunnel.UserDatagram

/-- The octets behind the length that the datagram states. -/
def padding (data : Octets) : Octets := data.drop (data.wordAt 4).toNat

variable {data : Octets} {source destination : Address}

theorem unpadded_append_padding (data : Octets) : unpadded data ++ padding data = data := by
  rw [unpadded, Octets.slice, List.drop_zero, padding, List.take_append_drop]

theorem Fits.wordSum_eq (h : Fits data) : Checksum.wordSum data = Checksum.wordSum (unpadded data) +
    Checksum.wordSum (Octets.fromPosition (data.wordAt 4).toNat (padding data)) := by
  rw [← h.length_unpadded, ← Checksum.wordSum_append_fromPosition, unpadded_append_padding]

/-! ### The sum with and without padding -/

/-- With a checksum in its field, a datagram is intact if the words of the pseudo-header and its own sum to
a multiple of 65535. -/
theorem verify_iff_sum (hroom : headerSize ≤ data.length) (h : data.length ≤ 131060)
    (hfield : data.wordAt 6 ≠ 0) : verify data source destination = true ↔
      (Checksum.pseudoSum source destination 17 data.length + Checksum.wordSum data) % 65535 = 0 := by
  rw [verify_iff_covered hroom hfield, Checksum.verify_iff (by rw [length_covered]; omega), covered,
    Checksum.wordSum_append (by rw [Checksum.length_pseudoHeader]), Checksum.wordSum_pseudoHeader]
  rfl

/-- What counts under the checksum whether the padding is there or not. -/
def unpaddedSum (source destination : Address) (data : Octets) : Nat :=
  Checksum.wordSum source.octets + Checksum.wordSum destination.octets + 17 + Checksum.wordSum (unpadded data)

/-- What padding adds: its words as they fall, and the length of the whole in place of the stated one. -/
def paddingSum (data : Octets) : Nat :=
  data.length % 65536 + Checksum.wordSum (Octets.fromPosition (data.wordAt 4).toNat (padding data))

/-- The padding counts for no more than the stated length does alone. -/
def PaddingCancels (data : Octets) : Prop := paddingSum data % 65535 = (data.wordAt 4).toNat % 65535

instance (data : Octets) : Decidable (PaddingCancels data) := inferInstanceAs (Decidable (_ = _))

theorem verify_iff_paddingSum (hfits : Fits data) (h : data.length ≤ 131060) (hfield : data.wordAt 6 ≠ 0) :
    verify data source destination = true ↔
      (unpaddedSum source destination data + paddingSum data) % 65535 = 0 := by
  have hprotocol : (17 : UInt8).toNat = 17 := rfl
  rw [verify_iff_sum hfits.room h hfield, hfits.wordSum_eq, Checksum.pseudoSum, unpaddedSum, paddingSum,
    hprotocol]
  omega

theorem verify_unpadded_iff (hfits : Fits data) (hfield : data.wordAt 6 ≠ 0) :
    verify (unpadded data) source destination = true ↔
      (unpaddedSum source destination data + (data.wordAt 4).toNat) % 65535 = 0 := by
  have hprotocol : (17 : UInt8).toNat = 17 := rfl
  have hlt := (data.wordAt 4).toNat_lt
  have hlength := hfits.length_unpadded
  have hfield' : (unpadded data).wordAt 6 ≠ 0 := by rwa [hfits.wordAt_unpadded]
  rw [verify_iff_sum hfits.room_unpadded (by omega) hfield', hlength, Checksum.pseudoSum, unpaddedSum,
    hprotocol]
  omega

/-! ### Where reader and check agree -/

theorem verify_and_unpadded_of_field_eq_zero (hfits : Fits data) (hfield : data.wordAt 6 = 0) :
    verify data source destination = true ∧ verify (unpadded data) source destination = true :=
  ⟨verify_of_field_eq_zero hfits.room hfield,
    verify_of_field_eq_zero hfits.room_unpadded (hfits.wordAt_unpadded.trans hfield)⟩

theorem verify_eq_of_paddingCancels (hfits : Fits data) (h : data.length ≤ 131060)
    (hfield : data.wordAt 6 ≠ 0) (hcancels : PaddingCancels data) :
    verify data source destination = verify (unpadded data) source destination := by
  rw [Bool.eq_iff_iff, verify_iff_paddingSum hfits h hfield, verify_unpadded_iff hfits hfield]
  rw [PaddingCancels] at hcancels
  omega

theorem paddingCancels_of_verify (hfits : Fits data) (h : data.length ≤ 131060) (hfield : data.wordAt 6 ≠ 0)
    (hpadded : verify data source destination = true)
    (hintact : verify (unpadded data) source destination = true) : PaddingCancels data := by
  rw [verify_iff_paddingSum hfits h hfield] at hpadded
  rw [verify_unpadded_iff hfits hfield] at hintact
  rw [PaddingCancels]
  omega

/-- Zeros add their number. -/
theorem not_paddingCancels_of_zeros (hfits : Fits data) (h : data.length ≤ 65535)
    (hlonger : (data.wordAt 4).toNat < data.length) (hzeros : ∀ octet ∈ padding data, octet = 0) :
    ¬PaddingCancels data := by
  have hcovers : 8 ≤ (data.wordAt 4).toNat := hfits.covers
  rw [PaddingCancels, paddingSum, Checksum.wordSum_fromPosition_eq_zero hzeros]
  omega

/-- **The check and padding.** The reader accepts the data as a datagram, with or without octets behind its
stated length. Without a checksum the check accepts it either way. With one, both ways have the same answer
where the padding cancels, and are not both accepted where it does not; so an intact datagram is refused
with zeros behind it, in data of no more than 65535 octets. -/
theorem verify_of_padded {d : UserDatagram} (h : decode data = .ok d) (source destination : Address) :
    (data.wordAt 6 = 0 →
      verify data source destination = true ∧ verify (unpadded data) source destination = true) ∧
    (data.wordAt 6 ≠ 0 → data.length ≤ 131060 →
      (PaddingCancels data → verify data source destination = verify (unpadded data) source destination) ∧
      (¬PaddingCancels data →
        ¬(verify data source destination = true ∧ verify (unpadded data) source destination = true)) ∧
      (data.length ≤ 65535 → (data.wordAt 4).toNat < data.length → (∀ octet ∈ padding data, octet = 0) →
        verify (unpadded data) source destination = true → verify data source destination = false)) := by
  have hfits := (decode_eq_ok_iff.1 h).1
  refine ⟨verify_and_unpadded_of_field_eq_zero hfits, ?_⟩
  intro hfield hlength
  refine ⟨verify_eq_of_paddingCancels hfits hlength hfield, ?_, ?_⟩
  · rintro hcancels ⟨hpadded, hintact⟩
    exact hcancels (paddingCancels_of_verify hfits hlength hfield hpadded hintact)
  · intro hshort hlonger hzeros hintact
    rw [Bool.eq_false_iff]
    intro hpadded
    exact not_paddingCancels_of_zeros hfits hshort hlonger hzeros
      (paddingCancels_of_verify hfits hlength hfield hpadded hintact)

/-- An intact datagram from 10.0.0.1 to 0.0.10.2 without padding. -/
def sampleBare : Octets := [0x13, 0x88, 0x19, 0xEB, 0, 10, 0xBE, 0x64, 0, 0]

/-- Two octets that make up for their number. -/
def sampleCancelled : Octets := sampleBare ++ [0xFF, 0xFD]

def sampleZeros : Octets := sampleBare ++ [0, 0, 0]

theorem verify_of_padded_samples :
    (decode sampleCancelled = .ok ⟨5000, 6635, 0xBE64, [0, 0]⟩ ∧ PaddingCancels sampleCancelled ∧
      verify sampleCancelled ⟨10, 0, 0, 1⟩ ⟨0, 0, 10, 2⟩ =
        verify (unpadded sampleCancelled) ⟨10, 0, 0, 1⟩ ⟨0, 0, 10, 2⟩) ∧
    (decode sampleZeros = .ok ⟨5000, 6635, 0xBE64, [0, 0]⟩ ∧
      verify (unpadded sampleZeros) ⟨10, 0, 0, 1⟩ ⟨0, 0, 10, 2⟩ = true ∧
      verify sampleZeros ⟨10, 0, 0, 1⟩ ⟨0, 0, 10, 2⟩ = false) := by
  have hcancels : PaddingCancels sampleCancelled := by decide
  have hintact : verify (unpadded sampleZeros) ⟨10, 0, 0, 1⟩ ⟨0, 0, 10, 2⟩ = true := by cbv
  have hread : decode sampleCancelled = .ok ⟨5000, 6635, 0xBE64, [0, 0]⟩ := rfl
  have hread' : decode sampleZeros = .ok ⟨5000, 6635, 0xBE64, [0, 0]⟩ := rfl
  have hpadding : padding sampleZeros = List.replicate 3 0 := rfl
  have hall (octet : UInt8) (hmem : octet ∈ padding sampleZeros) : octet = 0 := by
    rw [hpadding] at hmem
    exact List.eq_of_mem_replicate hmem
  obtain ⟨-, hcancelled⟩ := verify_of_padded hread ⟨10, 0, 0, 1⟩ ⟨0, 0, 10, 2⟩
  obtain ⟨-, hzeros⟩ := verify_of_padded hread' ⟨10, 0, 0, 1⟩ ⟨0, 0, 10, 2⟩
  refine ⟨⟨hread, hcancels, ?_⟩, hread', hintact, ?_⟩
  · exact (hcancelled (by decide) (by decide)).1 hcancels
  · exact (hzeros (by decide) (by decide)).2.2 (by decide) (by decide) hall hintact

/-- The check is not a check of what the reader takes: one zero behind an intact datagram is enough. -/
theorem not_verify_eq_verify_unpadded : ¬∀ (data : Octets) (d : UserDatagram) (source destination : Address),
    decode data = .ok d → verify data source destination = verify (unpadded data) source destination := by
  intro hall
  have hpadded : verify (sampleBare ++ [0]) ⟨10, 0, 0, 1⟩ ⟨0, 0, 10, 2⟩ = false := by cbv
  have hintact : verify (unpadded (sampleBare ++ [0])) ⟨10, 0, 0, 1⟩ ⟨0, 0, 10, 2⟩ = true := by cbv
  have heq := hall (sampleBare ++ [0]) ⟨5000, 6635, 0xBE64, [0, 0]⟩ ⟨10, 0, 0, 1⟩ ⟨0, 0, 10, 2⟩ rfl
  rw [hpadded, hintact] at heq
  exact Bool.noConfusion heq

end LabelTunnel.UserDatagram
