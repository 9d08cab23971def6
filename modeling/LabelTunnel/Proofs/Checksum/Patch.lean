import LabelTunnel.Proofs.Layer.Echo
import LabelTunnel.Proofs.Layer.Internet
import LabelTunnel.Proofs.Layer.User

/-! Checksums filled in. The checksum of data with a cleared word at an even offset, written over that
word, makes the data intact, and no other word does but the twin of a zero. The printers of all three
layers fill their field in this way, so what they print passes the check of its layer. -/

namespace LabelTunnel

namespace Checksum

/-- The two zeros of ones' complement, one in the place of the other. -/
def TwinZeros (a b : UInt16) : Prop := a = 0 ∧ b = 0xFFFF ∨ a = 0xFFFF ∧ b = 0

instance (a b : UInt16) : Decidable (TwinZeros a b) := inferInstanceAs (Decidable (_ ∨ _))

/-- Words count alike in a sum exactly if they are equal or the two zeros. -/
theorem toNat_mod_eq_iff {a b : UInt16} :
    a.toNat % 65535 = b.toNat % 65535 ↔ a = b ∨ TwinZeros a b := by
  have := a.toNat_lt
  have := b.toNat_lt
  simp only [TwinZeros, ← UInt16.toNat_inj, UInt16.reduceToNat]
  omega

theorem verify_setWord_iff {data : Octets} {offset : Nat} (heven : offset % 2 = 0)
    (hfit : offset + 2 ≤ data.length) (h : data.length ≤ 131072) (hclear : data.wordAt offset = 0)
    (w : UInt16) :
    verify (data.setWord offset w) = true ↔ w = compute data ∨ TwinZeros w (compute data) := by
  have hsum := wordSum_setWord_add heven hfit w
  rw [hclear, UInt16.toNat_zero, Nat.add_zero] at hsum
  have := residue_lt (wordSum data)
  have := residue_mod (wordSum data)
  rw [← toNat_mod_eq_iff, verify_iff (by rwa [Octets.length_setWord]), hsum, toNat_compute h]
  omega

theorem verify_setWord_compute {data : Octets} {offset : Nat} (heven : offset % 2 = 0)
    (hfit : offset + 2 ≤ data.length) (h : data.length ≤ 131072) (hclear : data.wordAt offset = 0) :
    verify (data.setWord offset (compute data)) = true :=
  (verify_setWord_iff heven hfit h hclear _).2 (.inl rfl)

end Checksum

/-! ### The fields of the layers -/

namespace InternetDatagram

variable (d : InternetDatagram) (total checksum : UInt16)

theorem setWord_header : (d.header total 0).setWord 10 checksum = d.header total checksum := rfl

/-- A header with its own checksum is intact, whatever total length it states. -/
theorem verify_header :
    Checksum.verify (d.header total (Checksum.compute (d.header total 0))) = true := by
  have hlength : (d.header total 0).length = 20 := length_header d total 0
  rw [← setWord_header]
  exact Checksum.verify_setWord_compute rfl (by omega) (by omega) (Octets.word_ofWord 0)

theorem slice_encode {d : InternetDatagram} {bytes : Octets} (h : d.encode = .ok bytes) :
    bytes.slice 0 headerSize = d.header d.size.toUInt16 (Checksum.compute (d.header d.size.toUInt16 0)) := by
  rw [(encode_eq_ok_iff.1 h).2, Octets.slice, List.drop_zero, List.take_left' (length_header d _ _)]

end InternetDatagram

namespace EchoMessage

theorem setWord_layout (m : EchoMessage) (checksum : UInt16) :
    (m.layout 0).setWord 2 checksum = m.layout checksum := rfl

theorem verify_encode {m : EchoMessage} (h : m.size ≤ 131072) : verify m.encode = true := by
  refine verify_of_wordAt_eq ?_ (by rwa [length_encode]) (wordAt_encode m)
  rw [length_encode, size]
  exact Nat.le_add_right _ _

end EchoMessage

namespace UserDatagram

theorem setWord_layout (d : UserDatagram) (length checksum : UInt16) :
    (d.layout length 0).setWord 6 checksum = d.layout length checksum := rfl

variable {d : UserDatagram} {source destination : Address} {bytes : Octets}

theorem wordAt_encode_ne_zero (h : d.encode source destination = .ok bytes) : bytes.wordAt 6 ≠ 0 := by
  rw [(fields_of_encode h).2]
  exact sentChecksum_ne_zero _ _ _

theorem verify_encode (h : d.encode source destination = .ok bytes) :
    verify bytes source destination = true := by
  have hsize := (encode_eq_ok_iff.1 h).1
  have hlength := length_of_encode h
  refine verify_of_wordAt_eq ?_ (by omega) (fields_of_encode h).2
  rw [hlength, size]
  exact Nat.le_add_right _ _

end UserDatagram

namespace Checksum

/-- **Filling in a checksum.** A cleared word at an even offset becomes right exactly by the checksum
computed around it, up to the two zeros; and what is printed by an internet datagram, an echo message and
a user datagram, each with its field filled in so, is accepted by the check of that layer. A user datagram
never prints zero, which would say that there is no checksum. -/
theorem setWord_intact (data : Octets) (offset : Nat) (w : UInt16) (i : InternetDatagram) (m : EchoMessage)
    (u : UserDatagram) (source destination : Address) :
    (data.length ≤ 131072 → offset % 2 = 0 → offset + 2 ≤ data.length →
      data.byteAt offset = 0 → data.byteAt (offset + 1) = 0 →
      verify (data.setWord offset (compute data)) = true ∧
      (verify (data.setWord offset w) = true ↔ w = compute data ∨ TwinZeros w (compute data))) ∧
    (i.size ≤ 65535 → ∃ bytes, i.encode = .ok bytes ∧
      bytes.slice 0 20 = (i.header i.size.toUInt16 0).setWord 10 (compute (i.header i.size.toUInt16 0)) ∧
      verify (bytes.slice 0 20) = true) ∧
    (m.size ≤ 131072 → m.encode = (m.layout 0).setWord 2 (compute (m.layout 0)) ∧
      EchoMessage.verify m.encode = true) ∧
    (u.size ≤ 65535 → ∃ bytes, u.encode source destination = .ok bytes ∧
      bytes = (u.layout u.size.toUInt16 0).setWord 6
        (UserDatagram.sentChecksum source destination (u.layout u.size.toUInt16 0)) ∧
      bytes.wordAt 6 ≠ 0 ∧ UserDatagram.verify bytes source destination = true) := by
  refine ⟨?_, ?_, ?_, ?_⟩
  · intro h heven hfit hhigh hlow
    have hclear : data.wordAt offset = 0 := Octets.word_eq_zero_iff.2 ⟨hhigh, hlow⟩
    exact ⟨verify_setWord_compute heven hfit h hclear, verify_setWord_iff heven hfit h hclear w⟩
  · intro hsize
    have hencode := InternetDatagram.encode_of_le hsize
    have hslice := InternetDatagram.slice_encode hencode
    rw [InternetDatagram.headerSize] at hslice
    refine ⟨_, hencode, ?_, ?_⟩
    · rw [hslice, InternetDatagram.setWord_header]
    · rw [hslice, InternetDatagram.verify_header]
  · intro hsize
    exact ⟨(EchoMessage.setWord_layout m _).symm, EchoMessage.verify_encode hsize⟩
  · intro hsize
    have hencode := UserDatagram.encode_of_le hsize source destination
    exact ⟨_, hencode, (UserDatagram.setWord_layout u _ _).symm, UserDatagram.wordAt_encode_ne_zero hencode,
      UserDatagram.verify_encode hencode⟩

/-- Five octets, so that the last one is half a word, with a cleared word in the middle. -/
def sampleCleared : Octets := [0x12, 0x34, 0, 0, 0x56]

def sampleHeader : InternetDatagram :=
  { protocol := .udp, source := ⟨10, 0, 0, 1⟩, destination := ⟨10, 0, 0, 2⟩, payload := [0x68, 0x69, 0x21] }

def sampleMessage : EchoMessage := { payload := [0x68, 0x69, 0x21] }

/-- A user datagram whose checksum comes out as zero between the addresses of the sample header. -/
def sampleZeroSum : UserDatagram := { sourcePort := 5000, destinationPort := 6635, payload := [0xBE, 0x64] }

theorem setWord_intact_samples :
    (verify (sampleCleared.setWord 2 (compute sampleCleared)) = true ∧
      (verify (sampleCleared.setWord 2 0x97CB) = true ↔
        0x97CB = compute sampleCleared ∨ TwinZeros 0x97CB (compute sampleCleared))) ∧
    (∃ bytes, sampleHeader.encode = .ok bytes ∧
      bytes.slice 0 20 = (sampleHeader.header sampleHeader.size.toUInt16 0).setWord 10
        (compute (sampleHeader.header sampleHeader.size.toUInt16 0)) ∧
      verify (bytes.slice 0 20) = true) ∧
    (sampleMessage.encode = (sampleMessage.layout 0).setWord 2 (compute (sampleMessage.layout 0)) ∧
      EchoMessage.verify sampleMessage.encode = true) ∧
    computeTransport sampleHeader.source sampleHeader.destination 17 (sampleZeroSum.layout 10 0) = 0 ∧
    ∃ bytes, sampleZeroSum.encode sampleHeader.source sampleHeader.destination = .ok bytes ∧
      bytes = (sampleZeroSum.layout sampleZeroSum.size.toUInt16 0).setWord 6
        (UserDatagram.sentChecksum sampleHeader.source sampleHeader.destination
          (sampleZeroSum.layout sampleZeroSum.size.toUInt16 0)) ∧
      bytes.wordAt 6 ≠ 0 ∧
      UserDatagram.verify bytes sampleHeader.source sampleHeader.destination = true := by
  have hsize : sampleHeader.size = 23 := rfl
  have hsize' : sampleMessage.size = 11 := rfl
  have hsize'' : sampleZeroSum.size = 10 := rfl
  have hlength : sampleCleared.length = 5 := rfl
  obtain ⟨hdata, hheader, hmessage, hdatagram⟩ := setWord_intact sampleCleared 2 0x97CB sampleHeader
    sampleMessage sampleZeroSum sampleHeader.source sampleHeader.destination
  exact ⟨hdata (by omega) rfl (by omega) rfl rfl, hheader (by omega), hmessage (by omega), by cbv,
    hdatagram (by omega)⟩

end Checksum

end LabelTunnel
