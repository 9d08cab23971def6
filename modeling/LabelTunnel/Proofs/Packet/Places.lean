import LabelTunnel.Proofs.Packet.Layers

/-! Where the fields of a packet stand. Headers have options and lengths of their own, so the place of a
layer is known only from the layer around it: the tunnel begins behind the outer header, the label behind
the header of the tunnel, the inner datagram behind the label, the message behind the inner header. Read
at these places, the data is a packet exactly if its lengths fit in each other, its protocol numbers are
right and its first label is the last one; and then every field is at its place. -/

namespace LabelTunnel

variable {data other : Octets} {start stop : Nat}

/-! ### Parts of parts -/

namespace Octets

theorem drop_slice (data : Octets) (start stop count : Nat) :
    (data.slice start stop).drop count = data.slice (start + count) stop := by
  rw [slice, List.drop_drop, slice]

theorem slice_slice (data : Octets) {start stop start' stop' : Nat} (h : start + stop' ≤ stop) :
    slice (data.slice start stop) start' stop' = data.slice (start + start') (start + stop') := by
  rw [slice_eq_take_drop _ start' stop', drop_slice, slice_eq_take_drop, slice_eq_take_drop, List.take_take]
  congr 1
  omega

theorem slice_zero_length (data : Octets) : data.slice 0 data.length = data := by
  rw [slice, List.take_length, List.drop_zero]

theorem length_slice_of_le (h : stop ≤ data.length) : (data.slice start stop).length = stop - start := by
  rw [length_slice, Nat.min_eq_left h]

end Octets

theorem Address.ofOctetsAt_slice (data : Octets) {offset : Nat} (h : start + offset + 4 ≤ stop) :
    ofOctetsAt (data.slice start stop) offset = ofOctetsAt data (start + offset) := by
  simp (disch := omega) only [ofOctetsAt, Octets.byteAt_slice, Nat.add_assoc]

theorem Protocol.ofNumber_eq_udp_iff (n : UInt8) : ofNumber n = .udp ↔ n = 17 := by
  constructor
  · intro h
    rw [← number_ofNumber n, h]
    rfl
  · rintro rfl
    rfl

theorem Protocol.ofNumber_eq_icmp_iff (n : UInt8) : ofNumber n = .icmp ↔ n = 1 := by
  constructor
  · intro h
    rw [← number_ofNumber n, h]
    rfl
  · rintro rfl
    rfl

/-! ### The layers at their places -/

namespace InternetDatagram

/-- The header length that is stated by a header at this place. -/
def headerLengthAt (data : Octets) (start : Nat) : Nat := 4 * (data.byteAt start % 16).toNat

def totalLengthAt (data : Octets) (start : Nat) : Nat := (data.wordAt (start + 2)).toNat

/-- The octets from `start` up to `stop` begin with a header of version 4, and they hold the header and the
total length that it states. -/
structure HeadedAt (data : Octets) (start stop : Nat) : Prop where
  room : start + 20 ≤ stop
  version : data.byteAt start / 16 = 4
  header : 20 ≤ headerLengthAt data start
  total : headerLengthAt data start ≤ totalLengthAt data start
  available : start + totalLengthAt data start ≤ stop

def ofFieldsAt (data : Octets) (start : Nat) : InternetDatagram where
  serviceType := data.byteAt (start + 1)
  identification := data.wordAt (start + 4)
  flags := .ofBits (data.byteAt (start + 6) / 32)
  ttl := data.byteAt (start + 8)
  protocol := .ofNumber (data.byteAt (start + 9))
  checksum := data.wordAt (start + 10)
  source := .ofOctetsAt data (start + 12)
  destination := .ofOctetsAt data (start + 16)
  payload := data.slice (start + headerLengthAt data start) (start + totalLengthAt data start)

theorem headerLength_slice (h : start < stop) :
    headerLength (data.slice start stop) = headerLengthAt data start := by
  rw [headerLength, Octets.byteAt_slice data h, headerLengthAt, Nat.add_zero]

theorem totalLength_slice (h : start + 4 ≤ stop) :
    (Octets.wordAt (data.slice start stop) 2).toNat = totalLengthAt data start := by
  rw [Octets.wordAt_slice data (by omega), totalLengthAt]

theorem fits_slice_iff (hstop : stop ≤ data.length) :
    Fits (data.slice start stop) ↔ HeadedAt data start stop := by
  have hlength : (data.slice start stop).length = stop - start := Octets.length_slice_of_le hstop
  constructor
  · rintro ⟨hroom, hversion, hheader, htotal, havailable⟩
    rw [hlength, headerSize] at hroom
    have hroom' : start + 20 ≤ stop := by omega
    rw [Octets.byteAt_slice data (by omega), Nat.add_zero] at hversion
    rw [headerLength_slice (by omega)] at hheader htotal
    rw [totalLength_slice (by omega)] at htotal havailable
    exact ⟨hroom', hversion, hheader, htotal, by omega⟩
  · rintro ⟨hroom, hversion, hheader, htotal, havailable⟩
    refine ⟨?_, ?_, ?_, ?_, ?_⟩
    · rw [hlength, headerSize]
      omega
    · rwa [Octets.byteAt_slice data (by omega), Nat.add_zero]
    · rwa [headerLength_slice (by omega)]
    · rwa [headerLength_slice (by omega), totalLength_slice (by omega)]
    · rw [totalLength_slice (by omega), hlength]
      omega

theorem ofFields_slice (h : HeadedAt data start stop) : ofFields (data.slice start stop) = ofFieldsAt data start := by
  obtain ⟨hroom, -, hheader, htotal, havailable⟩ := h
  rw [ofFields, ofFieldsAt, headerLength_slice (by omega), totalLength_slice (by omega),
    Octets.slice_slice data havailable]
  simp (disch := omega) only [Octets.byteAt_slice, Octets.wordAt_slice, Address.ofOctetsAt_slice]

theorem decode_slice_eq_ok_iff (hstop : stop ≤ data.length) {d : InternetDatagram} :
    decode (data.slice start stop) = .ok d ↔ HeadedAt data start stop ∧ d = ofFieldsAt data start := by
  rw [decode_eq_ok_iff, fits_slice_iff hstop]
  constructor
  · rintro ⟨h, rfl⟩
    exact ⟨h, ofFields_slice h⟩
  · rintro ⟨h, rfl⟩
    exact ⟨h, (ofFields_slice h).symm⟩

end InternetDatagram

namespace UserDatagram

def lengthAt (data : Octets) (start : Nat) : Nat := (data.wordAt (start + 4)).toNat

def ofFieldsAt (data : Octets) (start : Nat) : UserDatagram where
  sourcePort := data.wordAt start
  destinationPort := data.wordAt (start + 2)
  checksum := data.wordAt (start + 6)
  payload := data.slice (start + 8) (start + lengthAt data start)

theorem decode_slice_eq_ok_iff (hstop : stop ≤ data.length) {d : UserDatagram} :
    decode (data.slice start stop) = .ok d ↔
      (start + 8 ≤ stop ∧ 8 ≤ lengthAt data start ∧ start + lengthAt data start ≤ stop) ∧
        d = ofFieldsAt data start := by
  have hlength : (data.slice start stop).length = stop - start := Octets.length_slice_of_le hstop
  have hfield (hroom : start + 8 ≤ stop) :
      (Octets.wordAt (data.slice start stop) 4).toNat = lengthAt data start := by
    rw [Octets.wordAt_slice data (by omega), lengthAt]
  have hfields (hroom : start + 8 ≤ stop) (havailable : start + lengthAt data start ≤ stop) :
      ofFields (data.slice start stop) = ofFieldsAt data start := by
    rw [ofFields, ofFieldsAt, hfield hroom, Octets.slice_slice data havailable, headerSize]
    simp (disch := omega) only [Octets.wordAt_slice, Nat.add_zero]
  rw [decode_eq_ok_iff]
  constructor
  · rintro ⟨⟨hroom, hcovers, havailable⟩, rfl⟩
    rw [hlength, headerSize] at hroom
    have hroom' : start + 8 ≤ stop := by omega
    rw [hfield hroom', headerSize] at hcovers
    rw [hfield hroom', hlength] at havailable
    exact ⟨⟨hroom', hcovers, by omega⟩, hfields hroom' (by omega)⟩
  · rintro ⟨⟨hroom, hcovers, havailable⟩, rfl⟩
    refine ⟨⟨?_, ?_, ?_⟩, (hfields hroom havailable).symm⟩
    · rw [hlength, headerSize]
      omega
    · rwa [hfield hroom]
    · rw [hfield hroom, hlength]
      omega

end UserDatagram

namespace LabelEntry

def ofFieldsAt (data : Octets) (start : Nat) : LabelEntry :=
  ofDoubleWord (Octets.doubleWord (data.byteAt start) (data.byteAt (start + 1)) (data.byteAt (start + 2))
    (data.byteAt (start + 3)))

theorem ofFields_slice (h : start + 4 ≤ stop) : ofFields (data.slice start stop) = ofFieldsAt data start := by
  simp (disch := omega) only [ofFields, ofFieldsAt, Octets.byteAt_slice, Nat.add_zero]

/-- The bottom bit is the last one of the third octet. -/
theorem bottom_ofFieldsAt : (ofFieldsAt data start).bottom = true ↔ data.byteAt (start + 2) % 2 = 1 := by
  have hhigh := (Octets.word (data.byteAt start) (data.byteAt (start + 1))).toNat_lt
  have hlow := (data.byteAt (start + 3)).toNat_lt
  have hthird := (data.byteAt (start + 2)).toNat_lt
  rw [ofFieldsAt, ofDoubleWord, beq_iff_eq, ← UInt32.toNat_inj, ← UInt8.toNat_inj]
  simp only [Octets.doubleWord, UInt32.toNat_mod, UInt32.toNat_div, UInt32.toNat_add, UInt32.toNat_mul,
    UInt16.toNat_toUInt32, Octets.toNat_word, UInt8.toNat_mod, UInt32.reduceToNat, UInt8.reduceToNat] at *
  omega

end LabelEntry

theorem LabelStack.decode_slice_eq_ok_iff (hstop : stop ≤ data.length) {e : LabelEntry} :
    decode (data.slice start stop) = .ok [e] ↔ (start + 4 ≤ stop ∧ data.byteAt (start + 2) % 2 = 1) ∧
      e = LabelEntry.ofFieldsAt data start := by
  rw [decode_eq_ok_singleton_iff, Octets.length_slice_of_le hstop, LabelEntry.size, ← LabelEntry.bottom_ofFieldsAt]
  constructor
  · rintro ⟨hroom, rfl, hbottom⟩
    have hroom' : start + 4 ≤ stop := by omega
    rw [LabelEntry.ofFields_slice hroom'] at hbottom
    exact ⟨⟨hroom', hbottom⟩, LabelEntry.ofFields_slice hroom'⟩
  · rintro ⟨⟨hroom, hbottom⟩, rfl⟩
    exact ⟨by omega, (LabelEntry.ofFields_slice hroom).symm, hbottom⟩

namespace EchoMessage

def ofFieldsAt (data : Octets) (start stop : Nat) : EchoMessage where
  kind := .ofNumber (data.byteAt start)
  code := data.byteAt (start + 1)
  checksum := data.wordAt (start + 2)
  identifier := data.wordAt (start + 4)
  sequence := data.wordAt (start + 6)
  payload := data.slice (start + 8) stop

theorem decode_slice_eq_ok_iff (hstop : stop ≤ data.length) {m : EchoMessage} :
    decode (data.slice start stop) = .ok m ↔ start + 8 ≤ stop ∧ m = ofFieldsAt data start stop := by
  have hfields (hroom : start + 8 ≤ stop) : ofFields (data.slice start stop) = ofFieldsAt data start stop := by
    rw [ofFields, ofFieldsAt, Octets.drop_slice, headerSize]
    simp (disch := omega) only [Octets.byteAt_slice, Octets.wordAt_slice, Nat.add_zero]
  rw [decode_eq_ok_iff, Octets.length_slice_of_le hstop, headerSize]
  constructor
  · rintro ⟨hroom, rfl⟩
    exact ⟨by omega, hfields (by omega)⟩
  · rintro ⟨hroom, rfl⟩
    exact ⟨by omega, (hfields hroom).symm⟩

end EchoMessage

end LabelTunnel
