import LabelTunnel.Layer.Internet
import LabelTunnel.Proofs.Outcome
import LabelTunnel.Proofs.WordSum

/-! Internet datagrams printed and read. The reader accepts exactly the octets whose front fits the
lengths it states, and takes every field from its place; a printed header is read back to the fields
it was printed from, whatever lengths and checksum it was given and whatever follows. In the other
direction the first octets are the header printed from what was read, if they hold nothing that the
reader drops: options, the reserved flag and the fragment offset. -/

namespace LabelTunnel

namespace FragmentFlags

/-- The flags stand in the top three bits of their word. -/
@[simp] theorem ofBits_field (f : FragmentFlags) :
    ofBits ((f.bits.toUInt16 * 8192 / 256).toUInt8 / 32) = f := by
  rcases f with ⟨_ | _, _ | _⟩ <;> rfl

theorem toNat_toUInt8_odd (b : UInt8) : (b % 2 == 1).toUInt8.toNat = b.toNat % 2 := by
  have hodd : b % 2 = 1 ↔ b.toNat % 2 = 1 := by
    rw [← UInt8.toNat_inj, UInt8.toNat_mod]
    rfl
  rcases Nat.mod_two_eq_zero_or_one b.toNat with h | h
  · rw [h, beq_eq_false_iff_ne.2 (by rw [ne_eq, hodd]; omega)]
    rfl
  · rw [h, beq_iff_eq.2 (hodd.2 h)]
    rfl

/-- The reader takes the two lower bits of three. -/
theorem toNat_bits_ofBits (b : UInt8) : (ofBits b).bits.toNat = b.toNat % 4 := by
  simp only [bits, ofBits, UInt8.toNat_add, UInt8.toNat_mul, UInt8.toNat_div, toNat_toUInt8_odd,
    UInt8.reduceToNat]
  omega

end FragmentFlags

namespace InternetDatagram

def headerLength (data : Octets) : Nat := 4 * (data.byteAt 0 % 16).toNat

/-- The front of the data is a header of version 4 whose own length and total length fit in each other
and in the data. -/
structure Fits (data : Octets) : Prop where
  room : headerSize ≤ data.length
  version : data.byteAt 0 / 16 = 4
  header : headerSize ≤ headerLength data
  total : headerLength data ≤ (data.wordAt 2).toNat
  available : (data.wordAt 2).toNat ≤ data.length

/-- The fields at their places. -/
def ofFields (data : Octets) : InternetDatagram where
  serviceType := data.byteAt 1
  identification := data.wordAt 4
  flags := .ofBits (data.byteAt 6 / 32)
  ttl := data.byteAt 8
  protocol := .ofNumber (data.byteAt 9)
  checksum := data.wordAt 10
  source := .ofOctetsAt data 12
  destination := .ofOctetsAt data 16
  payload := data.slice (headerLength data) (data.wordAt 2).toNat

theorem decode_of_fits {data : Octets} (h : Fits data) : decode data = .ok (ofFields data) := by
  obtain ⟨hroom, hversion, hheader, htotal, havailable⟩ := h
  rw [headerLength] at hheader htotal
  simp only [decode]
  rw [if_neg (by omega), if_neg (Decidable.not_not.2 hversion), if_neg (by omega), if_neg (by omega)]
  rfl

/-- Data that does not fit is refused as octets that are no packet: what passes all four checks fits. -/
theorem decode_of_not_fits {data : Octets} (h : ¬Fits data) :
    ∃ cause, decode data = .error (.parsing cause) := by
  simp only [decode]
  by_cases hroom : data.length < headerSize
  · exact ⟨_, if_pos hroom⟩
  rw [if_neg hroom]
  by_cases hversion : data.byteAt 0 / 16 ≠ 4
  · exact ⟨_, if_pos hversion⟩
  rw [if_neg hversion]
  by_cases hheader : 4 * (data.byteAt 0 % 16).toNat < headerSize ∨
      data.length < 4 * (data.byteAt 0 % 16).toNat
  · exact ⟨_, if_pos hheader⟩
  rw [if_neg hheader]
  by_cases htotal : (data.wordAt 2).toNat < 4 * (data.byteAt 0 % 16).toNat ∨
      data.length < (data.wordAt 2).toNat
  · exact ⟨_, if_pos htotal⟩
  apply absurd _ h
  refine ⟨by omega, Decidable.not_not.1 hversion, ?_, ?_, by omega⟩
  · rw [headerLength]
    omega
  · rw [headerLength]
    omega

theorem decode_eq_ok_iff {data : Octets} {d : InternetDatagram} :
    decode data = .ok d ↔ Fits data ∧ d = ofFields data :=
  Outcome.eq_ok_iff_of_decided decode_of_fits decode_of_not_fits

theorem exists_parsing_of_decode {data : Octets} {fault : Fault} (h : decode data = .error fault) :
    ∃ cause, fault = .parsing cause :=
  Outcome.exists_fault_of_decided decode_of_fits decode_of_not_fits h

theorem length_payload_ofFields {data : Octets} (h : Fits data) :
    (ofFields data).payload.length = (data.wordAt 2).toNat - headerLength data := by
  rw [ofFields, Octets.length_slice, Nat.min_eq_left h.available]

theorem size_le_of_decode {data : Octets} {d : InternetDatagram} (h : decode data = .ok d) :
    d.size ≤ data.length ∧ d.size ≤ 65535 := by
  obtain ⟨hfits, rfl⟩ := decode_eq_ok_iff.1 h
  have hlt := (data.wordAt 2).toNat_lt
  rw [size, length_payload_ofFields hfits]
  obtain ⟨-, -, hheader, htotal, havailable⟩ := hfits
  omega

/-! ### From fields to octets and back -/

section Header

variable (d : InternetDatagram) (total checksum : UInt16) (rest : Octets)

@[simp] theorem byteAt_header_zero : (d.header total checksum ++ rest).byteAt 0 = 0x45 := rfl

@[simp] theorem wordAt_header_total : (d.header total checksum ++ rest).wordAt 2 = total :=
  Octets.word_ofWord total

@[simp] theorem wordAt_header_fragment :
    (d.header total checksum ++ rest).wordAt 6 = d.flags.bits.toUInt16 * 8192 := Octets.word_ofWord _

@[simp] theorem wordAt_header_checksum : (d.header total checksum ++ rest).wordAt 10 = checksum :=
  Octets.word_ofWord checksum

@[simp] theorem headerLength_header : headerLength (d.header total checksum ++ rest) = headerSize := by
  rw [headerLength, byteAt_header_zero]
  rfl

@[simp] theorem source_header : Address.ofOctetsAt (d.header total checksum ++ rest) 12 = d.source := rfl

@[simp] theorem destination_header :
    Address.ofOctetsAt (d.header total checksum ++ rest) 16 = d.destination := rfl

theorem clearWord_header : (d.header total checksum).clearWord 10 = d.header total 0 := rfl

theorem ofFields_header : ofFields (d.header total checksum ++ rest) =
    { d with
      protocol := .ofNumber d.protocol.number
      checksum
      payload := rest.take (total.toNat - headerSize) } := by
  have hid : (d.header total checksum ++ rest).wordAt 4 = d.identification :=
    Octets.word_ofWord d.identification
  have hflags : FragmentFlags.ofBits ((d.header total checksum ++ rest).byteAt 6 / 32) = d.flags :=
    FragmentFlags.ofBits_field d.flags
  have hpayload : (d.header total checksum ++ rest).slice headerSize total.toNat =
      rest.take (total.toNat - headerSize) := by
    rw [Octets.slice_eq_take_drop, List.drop_left' (length_header d total checksum)]
  rw [ofFields, hid, hflags, wordAt_header_checksum, wordAt_header_total, headerLength_header, hpayload]
  rfl

end Header

/-- A header is read back whatever follows it, if the total length covers it and no more than there is. -/
theorem decode_header_append (d : InternetDatagram) {total : UInt16} (checksum : UInt16) {rest : Octets}
    (hlow : headerSize ≤ total.toNat) (hfit : total.toNat ≤ headerSize + rest.length) :
    decode (d.header total checksum ++ rest) = .ok { d with
      protocol := .ofNumber d.protocol.number
      checksum
      payload := rest.take (total.toNat - headerSize) } := by
  have hlength : (d.header total checksum ++ rest).length = headerSize + rest.length := by
    rw [List.length_append, length_header]
  rw [← ofFields_header]
  refine decode_of_fits ⟨by omega, ?_, ?_, ?_, ?_⟩
  · rw [byteAt_header_zero]
    rfl
  · exact Nat.le_of_eq (headerLength_header d total checksum rest).symm
  · rwa [wordAt_header_total, headerLength_header]
  · rwa [wordAt_header_total, hlength]

/-- The first octets are the header printed from the fields, if it has no options and its fragment word
holds nothing but the two flags. -/
theorem header_ofFields {data : Octets} (h : Fits data) (hheader : headerLength data = headerSize)
    (hflags : data.wordAt 6 = (ofFields data).flags.bits.toUInt16 * 8192) :
    (ofFields data).header (data.wordAt 2) (data.wordAt 10) = data.slice 0 headerSize := by
  have hroom : 20 ≤ data.length := h.room
  have hfirst : data.byteAt 0 = 0x45 := by
    have hversion := h.version
    rw [headerLength, headerSize] at hheader
    rw [← UInt8.toNat_inj] at hversion ⊢
    simp only [UInt8.toNat_div, UInt8.toNat_mod, UInt8.reduceToNat] at hversion hheader ⊢
    omega
  have hfront : [0x45, data.byteAt 1] = data.slice 0 2 := by
    rw [Octets.slice_word (by omega), Octets.wordAt, Octets.ofWord_word, hfirst]
  have hmiddle : [data.byteAt 8, data.byteAt 9] = data.slice 8 10 := by
    rw [Octets.slice_word (by omega), Octets.wordAt, Octets.ofWord_word]
  rw [header, ← hflags]
  simp only [ofFields, Protocol.number_ofNumber]
  rw [hfront, hmiddle, Address.octets_ofOctetsAt (by omega), Address.octets_ofOctetsAt (by omega),
    ← Octets.slice_word (by omega), ← Octets.slice_word (by omega), ← Octets.slice_word (by omega),
    ← Octets.slice_word (by omega)]
  simp (disch := omega) only [Octets.slice_append_slice]
  rfl

/-! ### Printing -/

theorem encode_of_le {d : InternetDatagram} (h : d.size ≤ 65535) : d.encode = .ok
    (d.header d.size.toUInt16 (Checksum.compute (d.header d.size.toUInt16 0)) ++ d.payload) := by
  rw [encode, totalLength, if_pos h]
  rfl

theorem encode_eq_ok_iff {d : InternetDatagram} {bytes : Octets} : d.encode = .ok bytes ↔
    d.size ≤ 65535 ∧ bytes = d.header d.size.toUInt16
      (Checksum.compute (d.header d.size.toUInt16 0)) ++ d.payload := by
  by_cases h : d.size ≤ 65535
  · rw [encode_of_le h, Except.ok.injEq, and_iff_right h, eq_comm]
  · rw [encode, totalLength, if_neg h]
    simp [Except.map, h]

theorem toNat_toUInt16_size {d : InternetDatagram} (h : d.size ≤ 65535) :
    d.size.toUInt16.toNat = d.size := Nat.mod_eq_of_lt (by omega)

theorem length_of_encode {d : InternetDatagram} {bytes : Octets} (h : d.encode = .ok bytes) :
    bytes.length = d.size := by
  rw [(encode_eq_ok_iff.1 h).2, List.length_append, length_header, size]

/-! ### Headers that lose nothing -/

/-- The header could have been printed: no options, neither the reserved flag nor a fragment offset, and
the checksum that is computed for it. -/
structure Plain (data : Octets) : Prop where
  header : data.byteAt 0 % 16 = 5
  reserved : data.wordAt 6 / 32768 = 0
  offset : data.wordAt 6 % 8192 = 0
  checksum : data.wordAt 10 = Checksum.compute ((data.slice 0 headerSize).clearWord 10)

theorem plain_of_encode {d : InternetDatagram} {bytes : Octets} (h : d.encode = .ok bytes) : Plain bytes := by
  obtain ⟨-, rfl⟩ := encode_eq_ok_iff.1 h
  refine ⟨?_, ?_, ?_, ?_⟩
  · rw [byteAt_header_zero]
    rfl
  · rw [wordAt_header_fragment]
    rcases d.flags with ⟨_ | _, _ | _⟩ <;> rfl
  · rw [wordAt_header_fragment]
    rcases d.flags with ⟨_ | _, _ | _⟩ <;> rfl
  · rw [wordAt_header_checksum, Octets.slice, List.drop_zero, List.take_left' (length_header d _ _),
      clearWord_header]

namespace Plain

variable {data : Octets}

theorem headerLength_eq (h : Plain data) : headerLength data = headerSize := by
  rw [headerLength, h.header]
  rfl

/-- The fragment word holds the two flags and nothing else. -/
theorem fragment_eq (h : Plain data) :
    data.wordAt 6 = (ofFields data).flags.bits.toUInt16 * 8192 := by
  have hreserved := h.reserved
  have hoffset := h.offset
  have hhigh := (data.byteAt 6).toNat_lt
  have hlow := (data.byteAt (6 + 1)).toNat_lt
  have hbits : (ofFields data).flags.bits.toNat = (data.byteAt 6).toNat / 32 % 4 := by
    rw [ofFields, FragmentFlags.toNat_bits_ofBits, UInt8.toNat_div]
    rfl
  rw [← UInt16.toNat_inj, Octets.wordAt] at hreserved hoffset ⊢
  simp only [UInt16.toNat_div, UInt16.toNat_mod, UInt16.toNat_mul, UInt8.toNat_toUInt16, Octets.toNat_word,
    UInt16.reduceToNat, hbits] at hreserved hoffset ⊢
  omega

end Plain

/-- What was read is printed as the data up to its total length, if the header lost nothing and held the
checksum that is computed for it. -/
theorem encode_ofFields {data : Octets} (h : Fits data) (hplain : Plain data) :
    (ofFields data).encode = .ok (data.slice 0 (data.wordAt 2).toNat) := by
  have hheader := hplain.headerLength_eq
  have hchecksum := hplain.checksum
  have htotal := h.total
  have hlt := (data.wordAt 2).toNat_lt
  have hsize : (ofFields data).size = (data.wordAt 2).toNat := by
    rw [size, length_payload_ofFields h]
    omega
  have hword : (ofFields data).size.toUInt16 = data.wordAt 2 := by
    rw [hsize]
    exact UInt16.ofNat_toNat
  have hheaders := header_ofFields h hheader hplain.fragment_eq
  have hpayload : (ofFields data).payload = data.slice headerSize (data.wordAt 2).toNat := by
    rw [ofFields, hheader]
  rw [← hheaders, clearWord_header] at hchecksum
  rw [encode_of_le (by omega), hword, ← hchecksum, hheaders, hpayload,
    Octets.slice_append_slice data (Nat.zero_le _) (by omega)]

/-- The data is one datagram from end to end, with a header that asks for nothing special. -/
structure Canonical (data : Octets) : Prop where
  /-- Five words of header leave no room for options. -/
  header : data.byteAt 0 % 16 = 5
  service : data.byteAt 1 = 0
  /-- Neither the flags, the reserved one among them, nor the fragment offset is set. -/
  fragment : data.wordAt 6 = 0
  total : (data.wordAt 2).toNat = data.length
  checksum : data.wordAt 10 = Checksum.compute ((data.slice 0 headerSize).clearWord 10)

namespace Canonical

variable {data : Octets}

theorem plain (h : Canonical data) : Plain data := by
  refine ⟨h.header, ?_, ?_, h.checksum⟩ <;> rw [h.fragment] <;> rfl

theorem flags_eq (h : Canonical data) : (ofFields data).flags = {} := by
  have hbyte : data.byteAt 6 = 0 := by
    have hnat := congrArg UInt16.toNat h.fragment
    rw [Octets.wordAt, Octets.toNat_word, UInt16.toNat_zero] at hnat
    rw [← UInt8.toNat_inj, UInt8.toNat_zero]
    omega
  rw [ofFields, hbyte]
  rfl

theorem payload_eq (h : Canonical data) : (ofFields data).payload = data.drop headerSize := by
  rw [ofFields, h.plain.headerLength_eq, h.total, Octets.slice, List.take_length]

theorem encode_ofFields (h : Canonical data) (hfits : Fits data) : (ofFields data).encode = .ok data := by
  rw [InternetDatagram.encode_ofFields hfits h.plain, h.total, Octets.slice, List.take_length, List.drop_zero]

theorem verify_header (h : Canonical data) (hroom : headerSize ≤ data.length) :
    Checksum.verify (data.slice 0 headerSize) = true := by
  have hlength : (data.slice 0 headerSize).length = 20 := by
    rw [Octets.length_slice, Nat.min_eq_left hroom]
    rfl
  have hword : (data.slice 0 headerSize).wordAt 10 = data.wordAt 10 := by
    rw [Octets.wordAt_slice data (by decide), Nat.zero_add]
  exact @Checksum.verify_of_wordAt_eq (data.slice 0 headerSize) 10 rfl (by omega) (by omega)
    (hword.trans h.checksum)

end Canonical

theorem canonical_of_encode {d : InternetDatagram} {bytes : Octets} (h : d.encode = .ok bytes)
    (hservice : d.serviceType = 0) (hflags : d.flags = {}) : Canonical bytes := by
  have hplain := plain_of_encode h
  obtain ⟨hsize, rfl⟩ := encode_eq_ok_iff.1 h
  refine ⟨hplain.header, hservice, ?_, ?_, hplain.checksum⟩
  · rw [wordAt_header_fragment, hflags]
    rfl
  · rw [wordAt_header_total, toNat_toUInt16_size hsize, List.length_append, length_header, size]

/-- A printed datagram is read back, whatever padding follows it. -/
theorem decode_encode_append {d : InternetDatagram} {bytes : Octets} (h : d.encode = .ok bytes)
    (padding : Octets) : decode (bytes ++ padding) = .ok { d with
      protocol := .ofNumber d.protocol.number
      checksum := bytes.wordAt 10 } := by
  obtain ⟨hsize, hbytes⟩ := encode_eq_ok_iff.1 h
  have htotal := toNat_toUInt16_size hsize
  rw [hbytes, wordAt_header_checksum, List.append_assoc, decode_header_append d _
    (by rw [htotal, size]; omega) (by rw [htotal, size, List.length_append]; omega), htotal, size,
    Nat.add_sub_cancel_left, List.take_left]

/-- A printed datagram that is cut short is refused: it has no room for a header, or states more octets than
are left. -/
theorem decode_take_of_encode {d : InternetDatagram} {bytes : Octets} (h : d.encode = .ok bytes) {k : Nat}
    (hk : k < bytes.length) : ∃ cause, decode (bytes.take k) = .error (.parsing cause) := by
  have hlength := length_of_encode h
  obtain ⟨hsize, hbytes⟩ := encode_eq_ok_iff.1 h
  have htotal : (bytes.wordAt 2).toNat = d.size := by
    rw [hbytes, wordAt_header_total, toNat_toUInt16_size hsize]
  refine decode_of_not_fits ?_
  rintro ⟨hroom, -, -, -, havailable⟩
  have hslice : bytes.take k = bytes.slice 0 k := rfl
  rw [List.length_take_of_le (by omega), headerSize] at hroom
  rw [List.length_take_of_le (by omega), hslice, Octets.wordAt_slice bytes (by omega), Nat.zero_add] at havailable
  omega

end InternetDatagram

end LabelTunnel
