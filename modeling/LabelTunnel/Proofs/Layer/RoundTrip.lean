import LabelTunnel.Proofs.Checksum.Patch

/-! Datagrams and messages on their way through printer and reader. What is printed is intact and is read
back, whatever padding follows, with the checksum it was sent with; a payload that is too long for the length
field is refused. What was read can be printed, and comes out as the octets it was read from exactly if these
hold nothing that the reader drops and the checksum that the printer computes. An echo message has no length
field, and its reader drops nothing: only the checksum can come out differently. -/

namespace LabelTunnel

namespace InternetDatagram

variable {d : InternetDatagram} {data bytes : Octets}

/-- The octets up to the total length that the datagram states, which are all that the reader looks at. -/
def unpadded (data : Octets) : Octets := data.slice 0 (data.wordAt 2).toNat

theorem encode_of_lt (h : 65535 < d.size) :
    d.encode = .error (.construction (.internetTooLong d.payload.length)) := by
  rw [encode, totalLength, if_neg (Nat.not_le.2 h)]
  rfl

/-- Padding is not part of the header. -/
theorem Plain.of_unpadded (hfits : Fits data) (h : Plain (unpadded data)) : Plain data := by
  have hheader : 20 ≤ headerLength data := hfits.header
  have htotal : 20 ≤ (data.wordAt 2).toNat := Nat.le_trans hheader hfits.total
  have hbyte : (unpadded data).byteAt 0 = data.byteAt 0 := by
    rw [unpadded, Octets.byteAt_slice data (by omega)]
  have hword {k : Nat} (hk : k + 2 ≤ 20) : (unpadded data).wordAt k = data.wordAt k := by
    rw [unpadded, Octets.wordAt_slice data (by omega), Nat.zero_add]
  have hslice : (unpadded data).slice 0 headerSize = data.slice 0 headerSize := by
    have hmin : min headerSize (data.wordAt 2).toNat = headerSize := Nat.min_eq_left htotal
    rw [unpadded, Octets.slice, Octets.slice, Octets.slice, List.drop_zero, List.drop_zero, List.drop_zero,
      List.take_take, hmin]
  obtain ⟨hfirst, hreserved, hoffset, hchecksum⟩ := h
  rw [hword (by decide)] at hreserved hoffset hchecksum
  exact ⟨hbyte ▸ hfirst, hreserved, hoffset, hslice ▸ hchecksum⟩

/-- What was read is printed as what it was read from exactly if its header is plain. -/
theorem encode_ofFields_eq_iff (h : Fits data) : (ofFields data).encode = .ok (unpadded data) ↔ Plain data := by
  constructor
  · intro hencode
    exact .of_unpadded h (plain_of_encode hencode)
  · intro hplain
    exact encode_ofFields h hplain

/-- **Internet datagrams printed and read.** A payload of more than 65515 octets is refused. Any other
datagram is printed with an intact header and read back, whatever padding follows: only the spelling of the
protocol can change, and the checksum is the one that was sent. What was read from some data is printed, and
read again as the same but for a checksum computed anew; and it is printed as the data up to its total
length exactly if the header is plain. -/
theorem internet_round_trips (d q : InternetDatagram) (padding data : Octets) :
    (65515 < d.payload.length → d.encode = .error (.construction (.internetTooLong d.payload.length))) ∧
    (d.payload.length ≤ 65515 → ∃ bytes, d.encode = .ok bytes ∧ bytes.length = d.size ∧
      Checksum.verify (bytes.slice 0 20) = true ∧
      decode (bytes ++ padding) =
        .ok { d with protocol := .ofNumber d.protocol.number, checksum := bytes.wordAt 10 }) ∧
    (decode data = .ok q → ∃ bytes, q.encode = .ok bytes ∧
      decode bytes = .ok { q with checksum := bytes.wordAt 10 } ∧
      bytes.wordAt 10 = Checksum.compute ((bytes.slice 0 20).clearWord 10) ∧
      (bytes = data.slice 0 (data.wordAt 2).toNat ↔ Plain data)) := by
  have hsize : d.size = 20 + d.payload.length := rfl
  refine ⟨?_, ?_, ?_⟩
  · intro hlong
    exact encode_of_lt (by omega)
  · intro hshort
    have hencode := encode_of_le (d := d) (by omega)
    refine ⟨_, hencode, length_of_encode hencode, ?_, decode_encode_append hencode padding⟩
    have hslice := slice_encode hencode
    rw [headerSize] at hslice
    rw [hslice, verify_header]
  · intro hdecode
    have hencode := encode_of_le (size_le_of_decode hdecode).2
    obtain ⟨hfits, rfl⟩ := decode_eq_ok_iff.1 hdecode
    have hread := decode_encode_append hencode []
    have hprotocol : Protocol.ofNumber (ofFields data).protocol.number = (ofFields data).protocol := by
      rw [ofFields, Protocol.number_ofNumber]
    rw [List.append_nil, hprotocol] at hread
    refine ⟨_, hencode, hread, (plain_of_encode hencode).checksum, ?_⟩
    rw [← encode_ofFields_eq_iff hfits, hencode, Except.ok.injEq, unpadded]

/-- A datagram with two words of options in its header, the reserved flag, and padding behind its end. -/
def sampleAdorned : Octets :=
  [0x47, 0xB8, 0, 31, 0x12, 0x34, 0xC0, 0, 9, 1, 0, 0, 10, 0, 0, 1, 10, 0, 0, 2, 1, 1, 1, 0, 1, 1, 1, 0,
    0x68, 0x69, 0x21, 0, 0]

def sampleUnadorned : InternetDatagram where
  serviceType := 0xB8
  identification := 0x1234
  flags := ⟨true, false⟩
  ttl := 9
  protocol := .icmp
  source := ⟨10, 0, 0, 1⟩
  destination := ⟨10, 0, 0, 2⟩
  payload := [0x68, 0x69, 0x21]

/-- The number of the protocol has a name, and the payload is one octet too long. -/
def sampleTooLong : InternetDatagram :=
  { sampleUnadorned with protocol := .other 17, payload := List.replicate 65516 0 }

theorem internet_round_trips_samples :
    (65515 < sampleTooLong.payload.length ∧
      sampleTooLong.encode = .error (.construction (.internetTooLong sampleTooLong.payload.length))) ∧
    (sampleUnadorned.payload.length ≤ 65515 ∧ ∃ bytes, sampleUnadorned.encode = .ok bytes ∧
      bytes.length = sampleUnadorned.size ∧ Checksum.verify (bytes.slice 0 20) = true ∧
      decode (bytes ++ [0, 0]) = .ok { sampleUnadorned with
        protocol := .ofNumber sampleUnadorned.protocol.number, checksum := bytes.wordAt 10 }) ∧
    decode sampleAdorned = .ok sampleUnadorned ∧ ∃ bytes, sampleUnadorned.encode = .ok bytes ∧
      decode bytes = .ok { sampleUnadorned with checksum := bytes.wordAt 10 } ∧
      bytes.wordAt 10 = Checksum.compute ((bytes.slice 0 20).clearWord 10) ∧
      (bytes = sampleAdorned.slice 0 (sampleAdorned.wordAt 2).toNat ↔ Plain sampleAdorned) := by
  have hlong : 65515 < sampleTooLong.payload.length := by
    have hlength : sampleTooLong.payload.length = 65516 := List.length_replicate
    omega
  have hshort : sampleUnadorned.payload.length ≤ 65515 := by
    have hlength : sampleUnadorned.payload.length = 3 := rfl
    omega
  have hdecode : decode sampleAdorned = .ok sampleUnadorned := rfl
  obtain ⟨hrefused, -, -⟩ := internet_round_trips sampleTooLong sampleUnadorned [] sampleAdorned
  obtain ⟨-, hprinted, hread⟩ := internet_round_trips sampleUnadorned sampleUnadorned [0, 0] sampleAdorned
  exact ⟨⟨hlong, hrefused hlong⟩, ⟨hshort, hprinted hshort⟩, hdecode, hread hdecode⟩

end InternetDatagram

namespace UserDatagram

variable {d : UserDatagram} {data : Octets} {source destination : Address}

/-- The octets up to the length that the datagram states, which are all that the reader looks at. -/
def unpadded (data : Octets) : Octets := data.slice 0 (data.wordAt 4).toNat

theorem encode_of_lt (h : 65535 < d.size) (source destination : Address) :
    d.encode source destination = .error (.construction (.userTooLong d.payload.length)) := by
  rw [encode, lengthField, if_neg (Nat.not_le.2 h)]
  rfl

namespace Fits

theorem length_unpadded (h : Fits data) : (unpadded data).length = (data.wordAt 4).toNat := by
  rw [unpadded, Octets.length_slice, Nat.min_eq_left h.available, Nat.sub_zero]

theorem room_unpadded (h : Fits data) : headerSize ≤ (unpadded data).length := by
  rw [h.length_unpadded]
  exact h.covers

theorem wordAt_unpadded (h : Fits data) : (unpadded data).wordAt 6 = data.wordAt 6 := by
  have hcovers : 8 ≤ (data.wordAt 4).toNat := h.covers
  rw [unpadded, Octets.wordAt_slice data (by omega), Nat.zero_add]

end Fits

/-- What was read is printed as what it was read from exactly if the checksum field holds what is sent
between the given addresses. -/
theorem encode_ofFields_eq_iff (h : Fits data) :
    (ofFields data).encode source destination = .ok (unpadded data) ↔
      data.wordAt 6 = sentChecksum source destination ((unpadded data).clearWord 6) := by
  constructor
  · intro hencode
    rw [← h.wordAt_unpadded]
    exact (fields_of_encode hencode).2
  · intro hchecksum
    exact encode_ofFields h hchecksum

theorem size_le_of_fits (h : Fits data) : (ofFields data).size ≤ 65535 := by
  have hlt := (data.wordAt 4).toNat_lt
  have hcovers := h.covers
  rw [size, length_payload_ofFields h]
  omega

/-- **User datagrams printed and read.** A payload of more than 65527 octets is refused. Any other datagram is
printed with a checksum, which is never zero, is intact between its addresses, and is read back with that
checksum, whatever padding follows. What was read from some data is printed, and as the data up to the
stated length exactly if the checksum there is the one that is sent between the given addresses. -/
theorem user_round_trips (d e : UserDatagram) (source destination : Address) (padding data : Octets) :
    (65527 < d.payload.length →
      d.encode source destination = .error (.construction (.userTooLong d.payload.length))) ∧
    (d.payload.length ≤ 65527 → ∃ bytes, d.encode source destination = .ok bytes ∧ bytes.length = d.size ∧
      bytes.wordAt 6 ≠ 0 ∧ verify bytes source destination = true ∧
      decode (bytes ++ padding) = .ok { d with checksum := bytes.wordAt 6 }) ∧
    (decode data = .ok e → ∃ bytes, e.encode source destination = .ok bytes ∧
      (bytes = data.slice 0 (data.wordAt 4).toNat ↔ data.wordAt 6 = sentChecksum source destination
        ((data.slice 0 (data.wordAt 4).toNat).clearWord 6))) := by
  have hsize : d.size = 8 + d.payload.length := rfl
  refine ⟨?_, ?_, ?_⟩
  · intro hlong
    exact encode_of_lt (by omega) source destination
  · intro hshort
    have hencode := encode_of_le (d := d) (by omega) source destination
    exact ⟨_, hencode, length_of_encode hencode, wordAt_encode_ne_zero hencode, verify_encode hencode,
      decode_encode_append hencode padding⟩
  · intro hdecode
    obtain ⟨hfits, rfl⟩ := decode_eq_ok_iff.1 hdecode
    have hencode := encode_of_le (size_le_of_fits hfits) source destination
    refine ⟨_, hencode, ?_⟩
    rw [← unpadded, ← encode_ofFields_eq_iff hfits, hencode, Except.ok.injEq]

/-- A datagram from 10.0.0.1 to 0.0.10.2 whose checksum comes out as zero and is sent as all ones, with one
octet of padding. -/
def sampleOnes : Octets := [0x13, 0x88, 0x19, 0xEB, 0, 11, 0xFF, 0xFF, 0xBD, 0x62, 1, 0x77]

theorem user_round_trips_samples :
    (65527 < (List.replicate 65528 (0 : UInt8)).length ∧
      encode ⟨5000, 6635, 0, List.replicate 65528 0⟩ ⟨10, 0, 0, 1⟩ ⟨0, 0, 10, 2⟩ =
        .error (.construction (.userTooLong (List.replicate 65528 (0 : UInt8)).length))) ∧
    (∃ bytes, encode ⟨5000, 6635, 7, [0x68, 0x69, 0x21]⟩ ⟨10, 0, 0, 1⟩ ⟨0, 0, 10, 2⟩ = .ok bytes ∧
      bytes.length = 11 ∧ bytes.wordAt 6 ≠ 0 ∧ verify bytes ⟨10, 0, 0, 1⟩ ⟨0, 0, 10, 2⟩ = true ∧
      decode (bytes ++ [0]) = .ok ⟨5000, 6635, bytes.wordAt 6, [0x68, 0x69, 0x21]⟩) ∧
    decode sampleOnes = .ok ⟨5000, 6635, 0xFFFF, [0xBD, 0x62, 1]⟩ ∧
    ∃ bytes, encode ⟨5000, 6635, 0xFFFF, [0xBD, 0x62, 1]⟩ ⟨10, 0, 0, 1⟩ ⟨0, 0, 10, 2⟩ = .ok bytes ∧
      (bytes = sampleOnes.slice 0 (sampleOnes.wordAt 4).toNat ↔ sampleOnes.wordAt 6 =
        sentChecksum ⟨10, 0, 0, 1⟩ ⟨0, 0, 10, 2⟩
          ((sampleOnes.slice 0 (sampleOnes.wordAt 4).toNat).clearWord 6)) := by
  have hlong : 65527 < (List.replicate 65528 (0 : UInt8)).length := by
    rw [List.length_replicate]
    decide
  have hdecode : decode sampleOnes = .ok ⟨5000, 6635, 0xFFFF, [0xBD, 0x62, 1]⟩ := rfl
  obtain ⟨hrefused, -, -⟩ := user_round_trips ⟨5000, 6635, 0, List.replicate 65528 0⟩
    ⟨5000, 6635, 0xFFFF, [0xBD, 0x62, 1]⟩ ⟨10, 0, 0, 1⟩ ⟨0, 0, 10, 2⟩ [] sampleOnes
  obtain ⟨-, hprinted, hread⟩ := user_round_trips ⟨5000, 6635, 7, [0x68, 0x69, 0x21]⟩
    ⟨5000, 6635, 0xFFFF, [0xBD, 0x62, 1]⟩ ⟨10, 0, 0, 1⟩ ⟨0, 0, 10, 2⟩ [0] sampleOnes
  exact ⟨⟨hlong, hrefused hlong⟩, hprinted (by decide), hdecode, hread hdecode⟩

end UserDatagram

namespace EchoMessage

variable {data : Octets}

/-- What was read is printed as the data with the checksum computed anew. -/
theorem encode_ofFields_eq_setWord (h : headerSize ≤ data.length) :
    (ofFields data).encode = data.setWord 2 (Checksum.compute (data.clearWord 2)) := by
  have hlayout := layout_ofFields h
  calc (ofFields data).encode
      = ((ofFields data).layout (data.wordAt 2)).setWord 2
          (Checksum.compute (((ofFields data).layout (data.wordAt 2)).clearWord 2)) := rfl
    _ = data.setWord 2 (Checksum.compute (data.clearWord 2)) := by rw [hlayout]

theorem wordAt_encode_ofFields (h : headerSize ≤ data.length) :
    (ofFields data).encode.wordAt 2 = Checksum.compute (data.clearWord 2) := by
  have hroom : 8 ≤ data.length := h
  rw [encode_ofFields_eq_setWord h, Octets.wordAt_setWord (by omega)]

/-- What was read is printed as the data exactly if the checksum there is the one that is computed. -/
theorem encode_ofFields_eq_iff (h : headerSize ≤ data.length) :
    (ofFields data).encode = data ↔ data.wordAt 2 = Checksum.compute (data.clearWord 2) := by
  constructor
  · intro hencode
    rw [← wordAt_encode_ofFields h, hencode]
  · exact encode_ofFields h

theorem byteAt_encode_ofFields (h : headerSize ≤ data.length) {i : Nat} (hhigh : i ≠ 2) (hlow : i ≠ 3) :
    (ofFields data).encode.byteAt i = data.byteAt i := by
  rw [encode_ofFields_eq_setWord h, Octets.setWord, Octets.byteAt_set_of_ne hlow.symm,
    Octets.byteAt_set_of_ne hhigh.symm]

/-- A message is intact exactly if its checksum is the one that is computed, or the other zero. -/
theorem verify_iff_encode_ofFields (h : headerSize ≤ data.length) (hlength : data.length ≤ 131072) :
    verify data = true ↔ (ofFields data).encode = data ∨
      Checksum.TwinZeros (data.wordAt 2) ((ofFields data).encode.wordAt 2) := by
  have hroom : 8 ≤ data.length := h
  have hfield := @Checksum.verify_iff_wordAt data 2 rfl (by omega) hlength
  rw [verify, decide_eq_true h, Bool.true_and, hfield, Checksum.toNat_mod_eq_iff, encode_ofFields_eq_iff h,
    wordAt_encode_ofFields h]

/-- **Echo messages printed and read.** A message is printed in its size and intact, and read back with the
checksum it was sent with: only the spelling of its kind can change. What was read from some data is printed
as that data, the checksum apart; the data is intact exactly if nothing changes at all, or if the one zero is
printed in the place of the other. -/
theorem echo_round_trips (m : EchoMessage) (data : Octets) :
    (m.payload.length ≤ 131064 → m.encode.length = m.size ∧ verify m.encode = true ∧
      decode m.encode =
        .ok { m with kind := .ofNumber m.kind.number, checksum := m.encode.wordAt 2 }) ∧
    (8 ≤ data.length → data.length ≤ 131072 → ∃ e, decode data = .ok e ∧
      e.encode.length = data.length ∧ (∀ i, i ≠ 2 → i ≠ 3 → e.encode.byteAt i = data.byteAt i) ∧
      (verify data = true ↔
        e.encode = data ∨ Checksum.TwinZeros (data.wordAt 2) (e.encode.wordAt 2))) := by
  constructor
  · intro hpayload
    have hsize : m.size = 8 + m.payload.length := rfl
    exact ⟨m.length_encode, verify_encode (by omega), m.decode_encode⟩
  · intro hroom hlength
    have hdecode := decode_of_le hroom
    refine ⟨ofFields data, hdecode, ?_, ?_, verify_iff_encode_ofFields hroom hlength⟩
    · rw [length_encode, size_of_decode hdecode]
    · intro i hhigh hlow
      exact byteAt_encode_ofFields hroom hhigh hlow

/-- A message whose kind is spelled by a number that has a name, with a checksum from before. -/
def sampleRespelled : EchoMessage where
  kind := .other 8
  identifier := 7
  checksum := 0x1234
  payload := [0x68, 0x69, 0x21]

/-- An intact message whose checksum is all ones, where the printer computes zero. -/
def sampleTwin : Octets := [8, 0, 0xFF, 0xFF, 0xF7, 0xFF, 0, 0]

theorem echo_round_trips_samples :
    (sampleRespelled.payload.length ≤ 131064 ∧ sampleRespelled.encode.length = sampleRespelled.size ∧
      verify sampleRespelled.encode = true ∧ decode sampleRespelled.encode = .ok { sampleRespelled with
        kind := .ofNumber sampleRespelled.kind.number, checksum := sampleRespelled.encode.wordAt 2 }) ∧
    8 ≤ sampleTwin.length ∧ sampleTwin.length ≤ 131072 ∧ ∃ e, decode sampleTwin = .ok e ∧
      e.encode.length = sampleTwin.length ∧
      (∀ i, i ≠ 2 → i ≠ 3 → e.encode.byteAt i = sampleTwin.byteAt i) ∧
      (verify sampleTwin = true ↔
        e.encode = sampleTwin ∨ Checksum.TwinZeros (sampleTwin.wordAt 2) (e.encode.wordAt 2)) := by
  have hpayload : sampleRespelled.payload.length ≤ 131064 := by decide
  have hroom : 8 ≤ sampleTwin.length := by decide
  have hlength : sampleTwin.length ≤ 131072 := by decide
  obtain ⟨hprinted, hread⟩ := echo_round_trips sampleRespelled sampleTwin
  exact ⟨⟨hpayload, hprinted hpayload⟩, hroom, hlength, hread hroom hlength⟩

end EchoMessage

end LabelTunnel
